import Repartee.Text

/-!
The functions of the cryptographic crates, of the random number generator and of the encodings
the code calls. They stay parameters: a result that needs a law of theirs states it.
-/

namespace Repartee.E2e

structure Platform where
  sha256 : Bytes → Bytes
  /-- The Ed25519 public key of a seed. -/
  verifyingKey : Bytes → Bytes
  signBytes : Bytes → Bytes → Bytes
  /-- Why some bytes are no Ed25519 public key, if they are not. -/
  publicKeyError : Bytes → Option Str
  /-- Public key, message and signature. -/
  verifyBytes : Bytes → Bytes → Bytes → Except Str Unit
  toMontgomery : Bytes → Bytes
  toScalar : Bytes → Bytes
  xPublic : Bytes → Bytes
  diffieHellman : Bytes → Bytes → Bytes
  /-- Salt, input key material and info. -/
  hkdfSha256 : Bytes → Bytes → Bytes → Bytes
  /-- Key, nonce, associated data and plaintext. -/
  aeadEncrypt : Bytes → Bytes → Bytes → Bytes → Except Str Bytes
  aeadDecrypt : Bytes → Bytes → Bytes → Bytes → Except Str Bytes
  /-- The bytes of a draw, by its number and its length. -/
  random : Nat → Nat → Bytes
  base64 : Bytes → Str
  base64Decode : Str → Except Str Bytes
  base64Url : Bytes → Str
  base64UrlDecode : Str → Except Str Bytes
  hexError : Str → Str
  utf8Error : Bytes → Str
  charLowercase : Char → List Char

inductive E2eError where
  | crypto (text : Str)
  | wire (text : Str)
  | keyring (text : Str)
  | handshake (text : Str)
  | peerNotTrusted (handle channel : Str)
  | handleMismatch (expected got : Str)
  | replayWindow (ts now : Int)
  | chunkLimit (count : Nat)
  | rateLimit (peer : Str)
  | io (text : Str)
  | sqlite (text : Str)
  | base64 (text : Str)
  | hex (text : Str)
  deriving DecidableEq

abbrev Fingerprint : Type := Bytes
abbrev SessionKey : Type := Bytes

def keyLen : Nat := 32
def nonceLen : Nat := 24

/-- The zero-filled key a session row holds before its handshake completes. -/
def zeroKey : SessionKey := List.replicate keyLen 0

variable (P : Platform)

def fingerprint (pubkey : Bytes) : Fingerprint :=
  (P.sha256 (Text.utf8 "RPE2E01-FP:".toList ++ pubkey)).take 16

def wrapSalt : Bytes := Text.utf8 "RPE2E01-WRAP".toList

def deriveWrapKey (secret peerPub info : Bytes) : SessionKey :=
  P.hkdfSha256 wrapSalt (P.diffieHellman secret peerPub) info

def verify (pubkey message sig : Bytes) : Except E2eError Unit :=
  match P.publicKeyError pubkey with
  | some e => .error (.crypto ("invalid verifying key: ".toList ++ e))
  | none => (P.verifyBytes pubkey message sig).mapError fun e =>
      .crypto ("signature verify: ".toList ++ e)

def ed25519PubToX25519 (edPub : Bytes) : Except E2eError Bytes :=
  match P.publicKeyError edPub with
  | some e => .error (.crypto ("invalid ed25519 pub: ".toList ++ e))
  | none => .ok (P.toMontgomery edPub)

def decrypt (key nonce aad ciphertext : Bytes) : Except E2eError Bytes :=
  (P.aeadDecrypt key nonce aad ciphertext).mapError fun e => .crypto ("aead decrypt: ".toList ++ e)

end Repartee.E2e
