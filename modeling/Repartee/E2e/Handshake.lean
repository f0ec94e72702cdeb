import Repartee.Lib.Prog
import Repartee.E2e.Keyring

/-!
The handshake messages, what their senders sign, their text form, and the rate limiter.
-/

namespace Repartee.E2e

open Text Lib

structure KeyReq where
  channel : Str
  pubkey : Bytes
  ephX25519 : Bytes
  nonce : Bytes
  sig : Bytes
  deriving DecidableEq

structure KeyRsp where
  channel : Str
  pubkey : Bytes
  ephemeralPub : Bytes
  wrapNonce : Bytes
  wrapCt : Bytes
  nonce : Bytes
  sig : Bytes
  deriving DecidableEq

structure KeyRekey where
  channel : Str
  pubkey : Bytes
  ephPub : Bytes
  wrapNonce : Bytes
  wrapCt : Bytes
  nonce : Bytes
  sig : Bytes
  deriving DecidableEq

inductive HandshakeMsg where
  | req (msg : KeyReq)
  | rsp (msg : KeyRsp)
  | rekey (msg : KeyRekey)
  deriving DecidableEq

section Payload

def colon : UInt8 := 0x3A

def signedKeyreqPayload (channel : Str) (pubkey ephX25519 nonce : Bytes) : Bytes :=
  utf8 "KEYREQ:".toList ++ utf8 channel ++ [colon] ++ pubkey ++ [colon] ++ ephX25519 ++ [colon] ++
    nonce

def signedKeyrspPayload (channel : Str) (pubkey ephPub wrapNonce wrapCt nonce : Bytes) : Bytes :=
  utf8 "KEYRSP:".toList ++ utf8 channel ++ [colon] ++ pubkey ++ [colon] ++ ephPub ++ [colon] ++
    wrapNonce ++ [colon] ++ wrapCt ++ [colon] ++ nonce

def signedKeyrekeyPayload (channel : Str) (pubkey ephPub wrapNonce wrapCt nonce : Bytes) : Bytes :=
  utf8 "REKEY:".toList ++ utf8 channel ++ [colon] ++ pubkey ++ [colon] ++ ephPub ++ [colon] ++
    wrapNonce ++ [colon] ++ wrapCt ++ [colon] ++ nonce

/-- The fields a response and a rekey have in common, and sign. -/
structure Envelope where
  channel : Str
  pubkey : Bytes
  ephPub : Bytes
  wrapNonce : Bytes
  wrapCt : Bytes
  nonce : Bytes

def KeyRsp.envelope (rsp : KeyRsp) : Envelope :=
  ⟨rsp.channel, rsp.pubkey, rsp.ephemeralPub, rsp.wrapNonce, rsp.wrapCt, rsp.nonce⟩

def KeyRekey.envelope (rekey : KeyRekey) : Envelope :=
  ⟨rekey.channel, rekey.pubkey, rekey.ephPub, rekey.wrapNonce, rekey.wrapCt, rekey.nonce⟩

/-- The lengths of the fixed fields of an envelope, as its text form has them. -/
structure Envelope.WellFormed (e : Envelope) : Prop where
  pubkey : e.pubkey.length = 32
  ephPub : e.ephPub.length = 32
  wrapNonce : e.wrapNonce.length = nonceLen
  nonce : e.nonce.length = 16

/-- What the signer of a message signs. -/
def HandshakeMsg.payload : HandshakeMsg → Bytes
  | .req m => signedKeyreqPayload m.channel m.pubkey m.ephX25519 m.nonce
  | .rsp m => signedKeyrspPayload m.channel m.pubkey m.ephemeralPub m.wrapNonce m.wrapCt m.nonce
  | .rekey m => signedKeyrekeyPayload m.channel m.pubkey m.ephPub m.wrapNonce m.wrapCt m.nonce

/-- Behind one kind, the payload of a well-formed envelope tells the envelope. -/
theorem payload_inj (kind : Str) (a b : Envelope) (left : a.WellFormed) (right : b.WellFormed)
    (wrapped : a.wrapCt.length = b.wrapCt.length)
    (same : utf8 kind ++ utf8 a.channel ++ [colon] ++ a.pubkey ++ [colon] ++ a.ephPub ++ [colon] ++
        a.wrapNonce ++ [colon] ++ a.wrapCt ++ [colon] ++ a.nonce =
      utf8 kind ++ utf8 b.channel ++ [colon] ++ b.pubkey ++ [colon] ++ b.ephPub ++ [colon] ++
        b.wrapNonce ++ [colon] ++ b.wrapCt ++ [colon] ++ b.nonce) : a = b := by
  obtain ⟨same, nonce⟩ := List.append_inj' same (left.nonce.trans right.nonce.symm)
  obtain ⟨same, wrapCt⟩ := List.append_inj' (List.append_inj' same rfl).1 wrapped
  obtain ⟨same, wrapNonce⟩ := List.append_inj' (List.append_inj' same rfl).1
    (left.wrapNonce.trans right.wrapNonce.symm)
  obtain ⟨same, ephPub⟩ := List.append_inj' (List.append_inj' same rfl).1
    (left.ephPub.trans right.ephPub.symm)
  obtain ⟨same, pubkey⟩ := List.append_inj' (List.append_inj' same rfl).1
    (left.pubkey.trans right.pubkey.symm)
  have channel := utf8_injective _ _ (List.append_cancel_left (List.append_inj' same rfl).1)
  cases a
  cases b
  simp_all

theorem kinds_differ (x y : Bytes) :
    utf8 "KEYRSP:".toList ++ x ≠ utf8 "KEYREQ:".toList ++ y ∧
      utf8 "KEYRSP:".toList ++ x ≠ utf8 "REKEY:".toList ++ y ∧
      utf8 "REKEY:".toList ++ x ≠ utf8 "KEYREQ:".toList ++ y := by
  have rsp : utf8 "KEYRSP:".toList = [75, 69, 89, 82, 83, 80, 58] := by decide
  have req : utf8 "KEYREQ:".toList = [75, 69, 89, 82, 69, 81, 58] := by decide
  have rekey : utf8 "REKEY:".toList = [82, 69, 75, 69, 89, 58] := by decide
  rw [rsp, req, rekey]
  simp

end Payload

section TextForm

variable (P : Platform)

def ctcpTag : Str := "RPEE2E".toList
def protoVersion : Nat := 1

def field (name : Str) (value : Str) : Str := ' ' :: name ++ '=' :: value

def encodeHeader (kind : Str) : Str :=
  ctcpTag ++ ' ' :: kind ++ field "v".toList (natText protoVersion)

def encodeKeyreq (req : KeyReq) : Str :=
  encodeHeader "KEYREQ".toList ++ field "c".toList req.channel ++
    field "p".toList (P.base64Url req.pubkey) ++ field "e".toList (P.base64Url req.ephX25519) ++
    field "n".toList (P.base64Url req.nonce) ++ field "s".toList (P.base64Url req.sig)

def encodeKeyrsp (rsp : KeyRsp) : Str :=
  encodeHeader "KEYRSP".toList ++ field "c".toList rsp.channel ++
    field "p".toList (P.base64Url rsp.pubkey) ++ field "e".toList (P.base64Url rsp.ephemeralPub) ++
    field "wn".toList (P.base64Url rsp.wrapNonce) ++ field "w".toList (P.base64Url rsp.wrapCt) ++
    field "n".toList (P.base64Url rsp.nonce) ++ field "s".toList (P.base64Url rsp.sig)

def encodeKeyrekey (rk : KeyRekey) : Str :=
  encodeHeader "REKEY".toList ++ field "c".toList rk.channel ++
    field "p".toList (P.base64Url rk.pubkey) ++ field "e".toList (P.base64Url rk.ephPub) ++
    field "wn".toList (P.base64Url rk.wrapNonce) ++ field "w".toList (P.base64Url rk.wrapCt) ++
    field "n".toList (P.base64Url rk.nonce) ++ field "s".toList (P.base64Url rk.sig)

def ctcpDelimiter : Char := Char.ofNat 1

/-- The body of a CTCP message between its delimiters. -/
def ctcpFrame (body : Str) : Str := ctcpDelimiter :: body ++ [ctcpDelimiter]

abbrev Fields : Type := Map Str Str

/-- Reads the name=value fields; a name given twice is refused. -/
def parseKv : List Str → Fields → Except E2eError Fields
  | [], out => .ok out
  | f :: rest, out => match splitOnce '=' f with
      | none => parseKv rest out
      | some (k, v) =>
          match out.get? k with
          | some _ => .error (.wire ("duplicate key: ".toList ++ k))
          | none => parseKv rest (out.insert k v)

def kvGet (kv : Fields) (key : Str) : Except E2eError Str :=
  match kv.get? key with
  | some value => .ok value
  | none => .error (.handshake key)

def b64Decode (s : Str) : Except E2eError Bytes :=
  (P.base64UrlDecode s).mapError fun e => .handshake ("bad b64: ".toList ++ e)

def b64Fixed (length : Nat) (s : Str) : Except E2eError Bytes := do
  let raw ← b64Decode P s
  if raw.length ≠ length then
    .error (.handshake ("expected ".toList ++ natText length ++ " bytes, got ".toList ++
      natText raw.length))
  else .ok raw

def parseWrapNonce (kv : Fields) : Except E2eError Bytes := do
  let text ← kvGet kv "wn".toList
  let raw ← b64Decode P text
  if raw.length ≠ nonceLen then
    .error (.handshake ("wn len ".toList ++ natText raw.length ++ " != ".toList ++
      natText nonceLen))
  else .ok raw

def parseWrapCt (kv : Fields) : Except E2eError Bytes := do
  let text ← kvGet kv "w".toList
  (P.base64UrlDecode text).mapError fun e => .handshake ("bad wrap b64: ".toList ++ e)

def parseFixed (kv : Fields) (key : Str) (length : Nat) : Except E2eError Bytes := do
  let text ← kvGet kv key
  b64Fixed P length text

def parseKeyreq (kv : Fields) : Except E2eError KeyReq := do
  let channel ← kvGet kv "c".toList
  let pubkey ← parseFixed P kv "p".toList 32
  let ephX25519 ← parseFixed P kv "e".toList 32
  let nonce ← parseFixed P kv "n".toList 16
  let sig ← parseFixed P kv "s".toList 64
  return ⟨channel, pubkey, ephX25519, nonce, sig⟩

def parseKeyrsp (kv : Fields) : Except E2eError KeyRsp := do
  let channel ← kvGet kv "c".toList
  let pubkey ← parseFixed P kv "p".toList 32
  let ephemeralPub ← parseFixed P kv "e".toList 32
  let wrapNonce ← parseWrapNonce P kv
  let wrapCt ← parseWrapCt P kv
  let nonce ← parseFixed P kv "n".toList 16
  let sig ← parseFixed P kv "s".toList 64
  return ⟨channel, pubkey, ephemeralPub, wrapNonce, wrapCt, nonce, sig⟩

def parseKeyrekey (kv : Fields) : Except E2eError KeyRekey := do
  let rsp ← parseKeyrsp P kv
  return ⟨rsp.channel, rsp.pubkey, rsp.ephemeralPub, rsp.wrapNonce, rsp.wrapCt, rsp.nonce, rsp.sig⟩

/-- A handshake body, or nothing when the tag is another one. -/
def parseHandshake (body : Str) : Except E2eError (Option HandshakeMsg) :=
  match splitWhitespace body with
  | [] => .ok none
  | tag :: parts =>
      if tag ≠ ctcpTag then .ok none
      else match parts with
        | [] => .error (.handshake "missing type".toList)
        | kind :: rest => do
            let kv ← parseKv rest .empty
            let text ← match kv.get? "v".toList with
              | some v => .ok v
              | none => .error (.handshake "missing v".toList)
            let v ← (parseU8 text).mapError fun e => .handshake ("bad v: ".toList ++ e)
            if v ≠ protoVersion then
              .error (.handshake ("unsupported version ".toList ++ natText v))
            else if kind = "KEYREQ".toList then (parseKeyreq P kv).map fun r => some (.req r)
            else if kind = "KEYRSP".toList then (parseKeyrsp P kv).map fun r => some (.rsp r)
            else if kind = "REKEY".toList then (parseKeyrekey P kv).map fun r => some (.rekey r)
            else .error (.handshake ("unknown type ".toList ++ kind))

theorem b64Fixed_length (length : Nat) (s : Str) (raw : Bytes)
    (decoded : b64Fixed P length s = .ok raw) : raw.length = length := by
  obtain ⟨bytes, -, checked⟩ := (bind_eq_ok _ _ _).mp decoded
  split at checked
  · cases checked
  · rename_i fits
    cases checked
    exact not_not.mp fits

theorem parseFixed_length (kv : Fields) (key : Str) (length : Nat) (raw : Bytes)
    (parsed : parseFixed P kv key length = .ok raw) : raw.length = length := by
  obtain ⟨text, -, decoded⟩ := (bind_eq_ok _ _ _).mp parsed
  exact b64Fixed_length P length text raw decoded

theorem parseWrapNonce_length (kv : Fields) (raw : Bytes)
    (parsed : parseWrapNonce P kv = .ok raw) : raw.length = nonceLen := by
  obtain ⟨text, -, parsed⟩ := (bind_eq_ok _ _ _).mp parsed
  obtain ⟨bytes, -, checked⟩ := (bind_eq_ok _ _ _).mp parsed
  split at checked
  · cases checked
  · rename_i fits
    cases checked
    exact not_not.mp fits

theorem parseKeyrsp_wellFormed (kv : Fields) (rsp : KeyRsp)
    (parsed : parseKeyrsp P kv = .ok rsp) : rsp.envelope.WellFormed := by
  obtain ⟨channel, -, parsed⟩ := (bind_eq_ok _ _ _).mp parsed
  obtain ⟨pubkey, pubkeyIs, parsed⟩ := (bind_eq_ok _ _ _).mp parsed
  obtain ⟨ephPub, ephPubIs, parsed⟩ := (bind_eq_ok _ _ _).mp parsed
  obtain ⟨wrapNonce, wrapNonceIs, parsed⟩ := (bind_eq_ok _ _ _).mp parsed
  obtain ⟨wrapCt, -, parsed⟩ := (bind_eq_ok _ _ _).mp parsed
  obtain ⟨nonce, nonceIs, parsed⟩ := (bind_eq_ok _ _ _).mp parsed
  obtain ⟨sig, -, parsed⟩ := (bind_eq_ok _ _ _).mp parsed
  cases parsed
  exact ⟨parseFixed_length P _ _ _ _ pubkeyIs, parseFixed_length P _ _ _ _ ephPubIs,
    parseWrapNonce_length P _ _ wrapNonceIs, parseFixed_length P _ _ _ _ nonceIs⟩

theorem parseKeyrekey_wellFormed (kv : Fields) (rekey : KeyRekey)
    (parsed : parseKeyrekey P kv = .ok rekey) : rekey.envelope.WellFormed := by
  obtain ⟨rsp, rspIs, parsed⟩ := (bind_eq_ok _ _ _).mp parsed
  cases parsed
  have formed := parseKeyrsp_wellFormed P kv rsp rspIs
  exact ⟨formed.pubkey, formed.ephPub, formed.wrapNonce, formed.nonce⟩

end TextForm

section RateLimit

/-- Instants and durations are in nanoseconds. -/
def rateLimitWindow : Nat := 30 * 1000000000
def incomingWindow : Nat := 60 * 1000000000
def incomingMaxPerWindow : Nat := 3
def incomingBackoff : Nat := 300 * 1000000000

structure IncomingBucket where
  recent : List Nat
  backoffUntil : Option Nat
  deriving DecidableEq

structure RateLimiter where
  lastSent : Map Str Nat
  incoming : Map Str IncomingBucket

namespace RateLimiter

def new : RateLimiter := ⟨.empty, .empty⟩

variable (limiter : RateLimiter) (now : Nat) (peerHandle : Str)

def allowOutgoing : Bool × RateLimiter :=
  let allowed := match limiter.lastSent.get? peerHandle with
    | some ts => decide (rateLimitWindow ≤ now - ts)
    | none => true
  if allowed then (true, { limiter with lastSent := limiter.lastSent.insert peerHandle now })
  else (false, limiter)

def IncomingBucket.admit (bucket : IncomingBucket) : Bool × IncomingBucket :=
  let recent := bucket.recent.dropWhile fun front => incomingWindow < now - front
  if incomingMaxPerWindow ≤ recent.length then (false, ⟨recent, some (now + incomingBackoff)⟩)
  else (true, ⟨recent ++ [now], bucket.backoffUntil⟩)

def IncomingBucket.allow (bucket : IncomingBucket) : Bool × IncomingBucket :=
  match bucket.backoffUntil with
  | some till => if now < till then (false, bucket) else IncomingBucket.admit now ⟨[], none⟩
  | none => IncomingBucket.admit now bucket

def allowIncoming : Bool × RateLimiter :=
  let verdict := IncomingBucket.allow now ((limiter.incoming.get? peerHandle).getD ⟨[], none⟩)
  (verdict.1, { limiter with incoming := limiter.incoming.insert peerHandle verdict.2 })

end RateLimiter

end RateLimit

end Repartee.E2e
