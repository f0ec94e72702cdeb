import Repartee.Lib.Prog
import Repartee.Text

/-!
The client side of SCRAM over one of three hashes: the messages it sends, the proof and the
signature it derives, and the check of the server's.
-/

namespace Repartee.Irc

open Text Lib

inductive ScramHash where
  | sha1
  | sha256
  | sha512
  deriving DecidableEq

def ScramHash.mechanism : ScramHash → Str
  | .sha1 => "SCRAM-SHA-1".toList
  | .sha256 => "SCRAM-SHA-256".toList
  | .sha512 => "SCRAM-SHA-512".toList

/-- The primitives of the crates: hashes, base64 and SASLprep. The texts are those of their
errors. -/
structure ScramCrypto where
  digest : ScramHash → Bytes → Bytes
  hmac : ScramHash → Bytes → Bytes → Bytes
  pbkdf2 : ScramHash → Bytes → Bytes → Nat → Bytes
  encode : Bytes → Str
  decode : Str → Except Str Bytes
  stringprep : Str → Option Str
  utf8Error : Bytes → Str

inductive SaslError where
  | accountRequired
  | stream (e : Str)
  | send
  | eyre (text : Str)
  deriving DecidableEq

variable (C : ScramCrypto)

/-- Input SASLprep prohibits is sent as it is. -/
def saslprep (value : Str) : Str := (C.stringprep value).getD value

def replaceChar (c : Char) (by_ s : Str) : Str := s.flatMap fun d => if d = c then by_ else [d]

/-- The bare client-first message, the full one, and the client nonce. -/
def clientFirst (username : Str) (nonceBytes : Bytes) : Str × Str × Str :=
  let clientNonce := C.encode nonceBytes
  let safeUsername := replaceChar ',' "=2C".toList (replaceChar '=' "=3D".toList (saslprep C username))
  let clientFirstBare := "n=".toList ++ safeUsername ++ ",r=".toList ++ clientNonce
  (clientFirstBare, "n,,".toList ++ clientFirstBare, clientNonce)

structure ServerFirst where
  combinedNonce : Option Str
  saltB64 : Option Str
  iterations : Option Str

/-- The last of each attribute counts. -/
def readServerFirst (serverFirst : Str) : ServerFirst :=
  (serverFirst.splitOn ',').foldl (fun fields field =>
    match stripPrefix "r=".toList field with
    | some value => { fields with combinedNonce := some value }
    | none =>
        match stripPrefix "s=".toList field with
        | some value => { fields with saltB64 := some value }
        | none =>
            match stripPrefix "i=".toList field with
            | some value => { fields with iterations := some value }
            | none => fields) ⟨none, none, none⟩

def maxIterations : Nat := 100000

def parseU32 : Str → Except Str Nat := parseUnsigned (2 ^ 32 - 1)

/-- The client-final message and the signature the server has to show. -/
def computeProof (hash : ScramHash) (password : Str) (salt : Bytes) (iterations : Nat)
    (clientFirstBare serverFirst combinedNonce : Str) : Str × Bytes :=
  let saltedPassword := C.pbkdf2 hash (utf8 password) salt iterations
  let clientKey := C.hmac hash saltedPassword (utf8 "Client Key".toList)
  let storedKey := C.digest hash clientKey
  let clientFinalWithoutProof := "c=biws,r=".toList ++ combinedNonce
  let authMessage :=
    clientFirstBare ++ ",".toList ++ serverFirst ++ ",".toList ++ clientFinalWithoutProof
  let clientSignature := C.hmac hash storedKey (utf8 authMessage)
  let clientProof := List.zipWith (fun a b => a ^^^ b) clientKey clientSignature
  let serverKey := C.hmac hash saltedPassword (utf8 "Server Key".toList)
  let serverSignature := C.hmac hash serverKey (utf8 authMessage)
  (clientFinalWithoutProof ++ ",p=".toList ++ C.encode clientProof, serverSignature)

def required (field : Option Str) (missing : String) : Except SaslError Str :=
  match field with
  | some value => .ok value
  | none => .error (.eyre missing.toList)

def checked (ok : Bool) (text : Str) : Except SaslError Unit :=
  if ok then .ok () else .error (.eyre text)

def clientFinal (hash : ScramHash) (serverFirst clientFirstBare clientNonce password : Str) :
    Except SaslError (Str × Bytes) := do
  let fields := readServerFirst serverFirst
  let combinedNonce ← required fields.combinedNonce "SCRAM: server-first missing nonce (r=)"
  let saltB64 ← required fields.saltB64 "SCRAM: server-first missing salt (s=)"
  let iterationsStr ← required fields.iterations "SCRAM: server-first missing iterations (i=)"
  checked (clientNonce.isPrefixOf combinedNonce)
    "SCRAM: server nonce does not start with client nonce".toList
  let salt ← (C.decode saltB64).mapError fun e =>
    .eyre ("SCRAM: invalid base64 salt: ".toList ++ e)
  let iterCount ← (parseU32 iterationsStr).mapError fun e =>
    .eyre ("SCRAM: invalid iteration count: ".toList ++ e)
  checked (iterCount != 0) "SCRAM: iteration count must be > 0".toList
  checked (iterCount ≤ maxIterations) ("SCRAM: iteration count ".toList ++ natText iterCount ++
    " exceeds maximum ".toList ++ natText maxIterations)
  return computeProof C hash (saslprep C password) salt iterCount clientFirstBare serverFirst
    combinedNonce

def constantTimeEq (a b : Bytes) : Bool :=
  if a.length ≠ b.length then false
  else (List.zipWith (fun x y => x ^^^ y) a b).foldl (fun diff d => diff ||| d) 0 == 0

def verifyServer (serverFinal : Str) (expectedSignature : Bytes) : Bool :=
  match stripPrefix "v=".toList serverFinal with
  | none => false
  | some sigB64 =>
      match C.decode sigB64 with
      | .error _ => false
      | .ok sigBytes => constantTimeEq sigBytes expectedSignature

/-- Pieces of at most 400 characters; a full last piece is followed by an empty one. -/
def chunkAuthenticate (payload : Str) : List Str :=
  if payload = [] then ["+".toList]
  else
    let chunks := payload.toChunks 400
    if chunks.getLast?.any fun last => decide (last.length = 400) then chunks ++ ["+".toList]
    else chunks

theorem or_eq_zero (a b : UInt8) : a ||| b = 0 ↔ a = 0 ∧ b = 0 := by
  simp only [← UInt8.toBitVec_inj, UInt8.toBitVec_or, UInt8.toBitVec_zero]
  exact BitVec.or_eq_zero_iff

theorem foldl_or_eq_zero (bytes : Bytes) (acc : UInt8) :
    bytes.foldl (fun diff d => diff ||| d) acc = 0 ↔ acc = 0 ∧ ∀ d ∈ bytes, d = 0 := by
  induction bytes generalizing acc with
  | nil => simp
  | cons d rest ih =>
      rw [List.foldl_cons, ih, or_eq_zero]
      simp [and_assoc]

theorem constantTimeEq_iff (a b : Bytes) : constantTimeEq a b = true ↔ a = b := by
  unfold constantTimeEq
  by_cases sized : a.length = b.length
  · rw [if_neg (by simpa using sized), beq_iff_eq, foldl_or_eq_zero]
    simp only [true_and]
    induction a generalizing b with
    | nil =>
        have empty : b = [] := List.length_eq_zero_iff.mp sized.symm
        simp [empty]
    | cons x rest ih =>
        cases b with
        | nil => simp at sized
        | cons y others =>
            have same : x ^^^ y = 0 ↔ x = y := UInt8.xor_eq_zero_iff
            simp only [List.zipWith_cons_cons, List.mem_cons, forall_eq_or_imp, same,
              ih others (by simpa using sized), List.cons.injEq]
  · rw [if_pos (by simpa using sized)]
    constructor
    · intro wrong
      cases wrong
    · intro same
      exact absurd (congrArg List.length same) sized

/-- The server's message carries the expected signature. -/
theorem verifyServer_iff (serverFinal : Str) (expected : Bytes) :
    verifyServer C serverFinal expected = true ↔
      ∃ sigB64, stripPrefix "v=".toList serverFinal = some sigB64 ∧
        C.decode sigB64 = .ok expected := by
  unfold verifyServer
  cases stripPrefix "v=".toList serverFinal with
  | none => simp
  | some sigB64 =>
      cases decoded : C.decode sigB64 with
      | error e => simp [decoded]
      | ok sigBytes => simp [decoded, constantTimeEq_iff]

/-- A client-final message is made only for a nonce that extends the client's. -/
theorem clientFinal_nonce (hash : ScramHash)
    (serverFirst clientFirstBare clientNonce password : Str) (result : Str × Bytes)
    (made : clientFinal C hash serverFirst clientFirstBare clientNonce password = .ok result) :
    ∃ nonce, (readServerFirst serverFirst).combinedNonce = some nonce ∧ clientNonce <+: nonce := by
  unfold clientFinal at made
  obtain ⟨nonce, found, made⟩ := (bind_eq_ok _ _ _).mp made
  obtain ⟨salt, -, made⟩ := (bind_eq_ok _ _ _).mp made
  obtain ⟨iterations, -, made⟩ := (bind_eq_ok _ _ _).mp made
  obtain ⟨_, extends_, -⟩ := (bind_eq_ok _ _ _).mp made
  refine ⟨nonce, ?_, ?_⟩
  · cases present : (readServerFirst serverFirst).combinedNonce with
    | none => simp [required, present] at found
    | some value => simpa [required, present] using found
  · unfold checked at extends_
    split at extends_
    · rename_i front
      exact List.isPrefixOf_iff_prefix.mp front
    · cases extends_

end Repartee.Irc
