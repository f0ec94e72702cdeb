import Repartee.E2e.Keyring

/-!
The wire line of an encrypted chunk, its associated data, and the chunker.
-/

namespace Repartee.E2e

open Text

def proto : Str := "RPE2E01".toList
def wirePrefix : Str := "+RPE2E01".toList
def maxChunks : Nat := 16
def maxPlaintextPerChunk : Nat := 180

structure WireChunk where
  msgid : Bytes
  ts : Int
  part : Nat
  total : Nat
  nonce : Bytes
  ciphertext : Bytes
  deriving DecidableEq

section Chunk

variable (P : Platform)

def WireChunk.encode (chunk : WireChunk) : Except E2eError Str :=
  if chunk.total = 0 ∨ maxChunks < chunk.total then .error (.chunkLimit chunk.total)
  else if chunk.part = 0 ∨ chunk.total < chunk.part then
    .error (.wire ("invalid part/total: ".toList ++ natText chunk.part ++ '/' ::
      natText chunk.total))
  else .ok (wirePrefix ++ ' ' :: hexEncode chunk.msgid ++ ' ' :: intText chunk.ts ++ ' ' ::
    natText chunk.part ++ '/' :: natText chunk.total ++ ' ' :: P.base64 chunk.nonce ++ ':' ::
    P.base64 chunk.ciphertext)

def splitField (separator : Char) (missing : Str) (s : Str) : Except E2eError (Str × Str) :=
  match splitOnce separator s with
  | some parts => .ok parts
  | none => .error (.wire missing)

def decodeMsgid (text : Str) : Except E2eError Bytes :=
  if utf8Length text ≠ 16 then .error (.wire "msgid must be 16 hex chars".toList)
  else match hexDecode text with
    | some msgid => .ok msgid
    | none => .error (.hex (P.hexError text))

def decodeBase64 (text : Str) : Except E2eError Bytes := (P.base64Decode text).mapError .base64

def decodeChunkNonce (text : Str) : Except E2eError Bytes := do
  let raw ← decodeBase64 P text
  if raw.length ≠ 24 then
    .error (.wire ("nonce must be 24 bytes, got ".toList ++ natText raw.length))
  else .ok raw

def WireChunk.parseFields (msgidHex tsStr parttot body : Str) : Except E2eError WireChunk := do
  let msgid ← decodeMsgid P msgidHex
  let ts ← (parseI64 tsStr).mapError fun e => .wire ("bad ts: ".toList ++ e)
  let (p, t) ← splitField '/' "part/total missing slash".toList parttot
  let part ← (parseU8 p).mapError fun e => .wire ("bad part: ".toList ++ e)
  let total ← (parseU8 t).mapError fun e => .wire ("bad total: ".toList ++ e)
  if total = 0 ∨ maxChunks < total ∨ part = 0 ∨ total < part then
    .error (.wire ("bad part/total ".toList ++ natText part ++ '/' :: natText total))
  else do
    let (nonceB64, ctB64) ← splitField ':' "missing nonce:ct separator".toList body
    let nonce ← decodeChunkNonce P nonceB64
    let ciphertext ← decodeBase64 P ctB64
    return ⟨msgid, ts, part, total, nonce, ciphertext⟩

/-- The chunk a line carries, or nothing when the line is cleartext. -/
def WireChunk.parse (line : Str) : Except E2eError (Option WireChunk) :=
  match stripPrefix wirePrefix line with
  | none => .ok none
  | some rest => match splitWhitespace rest with
      | [] => .error (.wire "missing msgid".toList)
      | [_] => .error (.wire "missing ts".toList)
      | [_, _] => .error (.wire "missing part/total".toList)
      | [_, _, _] => .error (.wire "missing body".toList)
      | [msgidHex, tsStr, parttot, body] =>
          (WireChunk.parseFields P msgidHex tsStr parttot body).map some
      | _ => .error (.wire "extra fields".toList)

end Chunk

section AssociatedData

/-- The big-endian bytes of a number, at a width. -/
def bigEndian : Nat → Nat → Bytes
  | 0, _ => []
  | width + 1, n => UInt8.ofNat (n / 256 ^ width) :: bigEndian width n

def lengthPrefixed (bytes : Bytes) : Bytes := bigEndian 2 (min bytes.length 65535) ++ bytes

def timestampBytes (ts : Int) : Bytes := bigEndian 8 (ts % 2 ^ 64).toNat

def buildAad (channel : Str) (msgid : Bytes) (ts : Int) (part total : Nat) : Bytes :=
  utf8 proto ++ lengthPrefixed (utf8 channel) ++ lengthPrefixed msgid ++
    lengthPrefixed (timestampBytes ts) ++ lengthPrefixed [UInt8.ofNat part] ++
    lengthPrefixed [UInt8.ofNat total]

end AssociatedData

section Chunker

/-- The longest start of the text that fits the budget, and the rest. -/
def takeBudget : Nat → Str → Str × Str
  | _, [] => ([], [])
  | budget, c :: rest =>
      if c.utf8Size ≤ budget then
        let taken := takeBudget (budget - c.utf8Size) rest
        (c :: taken.1, taken.2)
      else ([], c :: rest)

theorem takeBudget_append (budget : Nat) (s : Str) :
    (takeBudget budget s).1 ++ (takeBudget budget s).2 = s := by
  induction s generalizing budget with
  | nil => rfl
  | cons c rest ih =>
      simp only [takeBudget]
      split
      · exact congrArg (c :: ·) (ih (budget - c.utf8Size))
      · rfl

theorem takeBudget_fits (budget : Nat) (s : Str) : utf8Length (takeBudget budget s).1 ≤ budget := by
  induction s generalizing budget with
  | nil => exact Nat.zero_le budget
  | cons c rest ih =>
      simp only [takeBudget]
      split
      · have tail := ih (budget - c.utf8Size)
        simp only [utf8Length_cons]
        omega
      · exact Nat.zero_le budget

/-- The pieces of a text, fuelled by its length; the count already cut bounds them. -/
def cutPieces (maxPerChunk : Nat) : Nat → Nat → Str → Except E2eError (List Str)
  | _, _, [] => .ok []
  | 0, _, _ :: _ => .ok []
  | fuel + 1, done, c :: rest =>
      let cut := takeBudget maxPerChunk (c :: rest)
      if cut.1 = [] then
        .error (.wire "cannot split: single UTF-8 char exceeds chunk budget".toList)
      else if maxChunks < done + 1 then .error (.chunkLimit (min (done + 1) 255))
      else (cutPieces maxPerChunk fuel (done + 1) cut.2).map (cut.1 :: ·)

def splitPlaintextBudget (plaintext : Str) (maxPerChunk : Nat) : Except E2eError (List Str) :=
  if plaintext = [] then .error (.wire "empty plaintext".toList)
  else cutPieces maxPerChunk plaintext.length 0 plaintext

def splitPlaintext (plaintext : Str) : Except E2eError (List Str) :=
  splitPlaintextBudget plaintext maxPlaintextPerChunk

/-- The fuel never runs out: the pieces spell the text, each fits, and there are not too many. -/
theorem cutPieces_spells (maxPerChunk fuel done : Nat) (s : Str) (pieces : List Str)
    (enough : s.length ≤ fuel) (cut : cutPieces maxPerChunk fuel done s = .ok pieces) :
    pieces.flatten = s ∧ (∀ piece ∈ pieces, utf8Length piece ≤ maxPerChunk) ∧
      (pieces = [] ∨ done + pieces.length ≤ maxChunks) := by
  induction fuel generalizing done s pieces with
  | zero =>
      have none : s = [] := List.eq_nil_of_length_eq_zero (Nat.le_zero.mp enough)
      subst none
      cases cut
      simp
  | succ fuel ih =>
      cases s with
      | nil =>
          cases cut
          simp
      | cons c rest =>
          have whole := takeBudget_append maxPerChunk (c :: rest)
          have fits := takeBudget_fits maxPerChunk (c :: rest)
          simp only [cutPieces] at cut
          split at cut
          · cases cut
          · rename_i nonempty
            split at cut
            · cases cut
            · rename_i room
              cases tail : cutPieces maxPerChunk fuel (done + 1) (takeBudget maxPerChunk (c :: rest)).2 with
              | error e => simp [tail, Except.map] at cut
              | ok others =>
                  have positive := List.length_pos_of_ne_nil nonempty
                  have lengths := congrArg List.length whole
                  simp only [List.length_append, List.length_cons] at enough lengths
                  obtain ⟨spelled, small, count⟩ := ih (done + 1) _ others (by omega) tail
                  simp only [tail, Except.map, Except.ok.injEq] at cut
                  subst cut
                  refine ⟨by rw [List.flatten_cons, spelled, whole], ?_, ?_⟩
                  · intro piece member
                    rcases List.mem_cons.mp member with first | later
                    · exact first ▸ fits
                    · exact small piece later
                  · rcases count with none | bounded
                    · simp only [none, List.length_singleton]
                      omega
                    · simp only [List.length_cons]
                      omega

/-- A text that is split is spelled by at least one piece and at most as many as a message has. -/
theorem splitPlaintextBudget_spells (plaintext : Str) (maxPerChunk : Nat) (pieces : List Str)
    (split : splitPlaintextBudget plaintext maxPerChunk = .ok pieces) :
    pieces.flatten = plaintext ∧ (∀ piece ∈ pieces, utf8Length piece ≤ maxPerChunk) ∧
      1 ≤ pieces.length ∧ pieces.length ≤ maxChunks := by
  unfold splitPlaintextBudget at split
  split at split
  · cases split
  · rename_i some
    obtain ⟨spelled, small, count⟩ := cutPieces_spells maxPerChunk _ 0 plaintext pieces le_rfl split
    have nonempty : pieces ≠ [] := by
      intro none
      rw [none] at spelled
      exact some spelled.symm
    have positive := List.length_pos_of_ne_nil nonempty
    have bounded := count.resolve_left nonempty
    exact ⟨spelled, small, positive, by omega⟩

/-- A text that fits one chunk is one chunk. -/
theorem splitPlaintext_short (plaintext : Str) (some : plaintext ≠ [])
    (short : utf8Length plaintext ≤ maxPlaintextPerChunk) :
    splitPlaintext plaintext = .ok [plaintext] := by
  have whole : ∀ (s : Str) (budget : Nat), utf8Length s ≤ budget →
      takeBudget budget s = (s, []) := by
    intro s
    induction s with
    | nil => exact fun _ _ => rfl
    | cons c rest ih =>
        intro budget fits
        simp only [utf8Length_cons] at fits
        have head : c.utf8Size ≤ budget := by omega
        have tail := ih (budget - c.utf8Size) (by omega)
        simp only [takeBudget, if_pos head, tail]
  cases plaintext with
  | nil => exact absurd rfl some
  | cons c rest =>
      have cut := whole (c :: rest) maxPlaintextPerChunk short
      unfold splitPlaintext splitPlaintextBudget
      simp only [reduceCtorEq, if_false, List.length_cons, cutPieces, cut]
      cases rest.length <;> rfl

end Chunker

end Repartee.E2e
