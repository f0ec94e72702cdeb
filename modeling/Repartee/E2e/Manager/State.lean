import Repartee.Lib.Prog
import Repartee.E2e.Handshake
import Repartee.E2e.Wire

/-!
The manager's state, the world it runs in, and the few actions its methods are made of. The
database may fail at any call: the schedule of faults is part of the world, and a failed call
leaves the keyring as it was.
-/

namespace Repartee.E2e

open Text Lib

structure PendingHandshake where
  channel : Str
  peerHandle : Option Str
  ephX25519Secret : Bytes
  createdAt : Int
  deriving DecidableEq

structure PendingInboundKeyReq where
  req : KeyReq
  createdAt : Int
  deriving DecidableEq

structure PendingRekeySend where
  targetHandle : Str
  noticeText : Str
  deriving DecidableEq

structure PendingOutboundKeyReq where
  peerHandle : Str
  channel : Str
  req : KeyReq
  deriving DecidableEq

structure PendingAcceptRequest where
  nick : Option Str
  handle : Str
  channel : Str
  deriving DecidableEq

inductive TrustChange where
  | new
  | known
  | handleChanged (oldHandle newHandle : Str) (fingerprint : Fingerprint)
  | fingerprintChanged (handle : Str) (oldFp newFp : Fingerprint)
  | revoked (handle : Str) (fingerprint : Fingerprint)
  deriving DecidableEq

structure PendingTrustNotice where
  handle : Str
  channel : Str
  change : TrustChange
  newPubkey : Option Bytes
  deriving DecidableEq

def pendingKeyreqTtlSecs : Int := 900
def pendingInboundTtlSecs : Int := 21600
def rekeyPrevKeyGraceSecs : Int := 300
def maxUnresolvedTrustChanges : Nat := 64

structure E2eManager where
  /-- The Ed25519 seed. -/
  identity : Bytes
  keyring : Keyring
  rateLimiter : RateLimiter
  tsToleranceSecs : Int
  pending : Map (Str × Bytes) PendingHandshake
  pendingTrustChange : List PendingTrustNotice
  unresolvedTrustChanges : List PendingTrustNotice
  pendingRekeySends : List PendingRekeySend
  pendingOutboundKeyreqs : List PendingOutboundKeyReq
  pendingInbound : Map (Str × Str) PendingInboundKeyReq
  pendingAcceptRequests : List PendingAcceptRequest

def E2eManager.withIdentity (keyring : Keyring) (identity : Bytes) (tsToleranceSecs : Int) :
    E2eManager :=
  ⟨identity, keyring, .new, tsToleranceSecs, .empty, [], [], [], [], .empty, []⟩

structure Env where
  now : Int
  instant : Nat
  /-- How many times the random number generator has been asked. -/
  draws : Nat
  /-- The database errors of the keyring calls to come; past its end no call fails. -/
  faults : List (Option Str)

/-- What a run leaves behind for the proofs to speak about. No function reads it. -/
structure Ledger where
  signed : List HandshakeMsg
  generated : List (Str × SessionKey)
  queued : List (Str × PendingRekeySend)

structure World where
  manager : E2eManager
  env : Env
  ledger : Ledger

abbrev Action (α : Type) : Type := Prog World E2eError α

namespace World

/-- The world after a keyring call has used up its place in the schedule. -/
def tick (w : World) : World := { w with env := { w.env with faults := w.env.faults.tail } }

def setKeyring (w : World) (kr : Keyring) : World :=
  { w with manager := { w.manager with keyring := kr } }

end World

section Actions

variable {α : Type}

/-- One keyring call: it fails as scheduled, or answers and stores the keyring it leaves. -/
def transact (f : Env → Keyring → Except E2eError (α × Keyring)) : Action α := fun w =>
  match w.env.faults with
  | some text :: _ => (.error (.sqlite text), w.tick)
  | _ => match f w.env w.manager.keyring with
    | .ok (a, kr) => (.ok a, w.tick.setKeyring kr)
    | .error e => (.error e, w.tick)

def query (f : Keyring → α) : Action α := transact fun _ kr => .ok (f kr, kr)

def execute (f : Keyring → Keyring) : Action Unit := transact fun _ kr => .ok ((), f kr)

def executeGet (f : Keyring → α × Keyring) : Action α := transact fun _ kr => .ok (f kr)

def nowUnix : Action Int := Prog.read fun w => w.env.now

def onManager (f : E2eManager → E2eManager) : Action Unit :=
  Prog.change fun w => { w with manager := f w.manager }

def onLedger (f : Ledger → Ledger) : Action Unit :=
  Prog.change fun w => { w with ledger := f w.ledger }

variable (P : Platform)

def draw (length : Nat) : Action Bytes :=
  Prog.update fun w =>
    (P.random w.env.draws length, { w with env := { w.env with draws := w.env.draws + 1 } })

def identityPub : Action Bytes := Prog.read fun w => P.verifyingKey w.manager.identity

def recordSigned (msg : HandshakeMsg) : Action Unit :=
  onLedger fun l => { l with signed := l.signed ++ [msg] }

def allowOutgoing (peerHandle : Str) : Action Bool :=
  Prog.update fun w =>
    let verdict := w.manager.rateLimiter.allowOutgoing w.env.instant peerHandle
    (verdict.1, { w with manager := { w.manager with rateLimiter := verdict.2 } })

def allowIncoming (peerHandle : Str) : Action Bool :=
  Prog.update fun w =>
    let verdict := w.manager.rateLimiter.allowIncoming w.env.instant peerHandle
    (verdict.1, { w with manager := { w.manager with rateLimiter := verdict.2 } })

/-- Encrypts under a fresh nonce, which it returns with the ciphertext. -/
def aeadSeal (key aad plaintext : Bytes) : Action (Bytes × Bytes) := do
  let nonce ← draw P nonceLen
  let ct ← Prog.lift ((P.aeadEncrypt key nonce aad plaintext).mapError fun e =>
    .crypto ("aead encrypt: ".toList ++ e))
  return (nonce, ct)

end Actions

end Repartee.E2e
