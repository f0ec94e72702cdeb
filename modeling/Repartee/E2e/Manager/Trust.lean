import Repartee.E2e.Manager.State

/-!
Classifying a peer's identity, the warnings this raises, and the ways the user resolves them.
-/

namespace Repartee.E2e

open Text Lib

section Classification

def classifyPeerChange (newFp : Fingerprint) (newHandle : Str) : Action TrustChange := do
  match ← query (·.getPeerByFingerprint newFp) with
  | some existing =>
      if existing.globalStatus = .revoked then return .revoked newHandle newFp
      else if existing.lastHandle ≠ some newHandle then
        return .handleChanged (existing.lastHandle.getD []) newHandle newFp
      else return .known
  | none => match ← query (·.getPeerByHandle newHandle) with
      | some existing => return .fingerprintChanged newHandle existing.fingerprint newFp
      | none => return .new

def handleMismatchFor (change : TrustChange) (gotHandle : Str) : E2eError :=
  .handleMismatch (match change with
    | .handleChanged oldHandle _ _ => oldHandle
    | .fingerprintChanged handle oldFp _ =>
        handle ++ " (fp=".toList ++ hexEncode oldFp ++ ")".toList
    | .revoked handle fp => handle ++ " (revoked, fp=".toList ++ hexEncode fp ++ ")".toList
    | .new => []
    | .known => []) gotHandle

/-- The two outcomes on which a handshake may go on. -/
def TrustChange.accepted : TrustChange → Bool
  | .new => true
  | .known => true
  | _ => false

/-- The offered key goes into the warning when it would replace another. -/
def TrustChange.offeredKey (change : TrustChange) (pubkey : Bytes) : Option Bytes :=
  match change with
  | .fingerprintChanged _ _ _ => some pubkey
  | _ => none

end Classification

section Notices

/-- The channel is left out: a peer's identity is not per channel. -/
def sameWarning (a b : PendingTrustNotice) : Bool := a.handle = b.handle && a.change = b.change

def rememberUnresolved (unresolved : List PendingTrustNotice) (notice : PendingTrustNotice) :
    List PendingTrustNotice :=
  let others := unresolved.filter fun n => !sameWarning n notice
  (if maxUnresolvedTrustChanges ≤ others.length then others.drop 1 else others) ++ [notice]

def recordTrustChange (notice : PendingTrustNotice) : Action Unit :=
  onManager fun m => { m with
    unresolvedTrustChanges := rememberUnresolved m.unresolvedTrustChanges notice
    pendingTrustChange := m.pendingTrustChange ++ [notice] }

def noticeNames (target : Str) (notice : PendingTrustNotice) : Bool :=
  notice.handle = target || match notice.change with
    | .handleChanged oldHandle newHandle _ => oldHandle = target || newHandle = target
    | _ => false

def trustNoticesFor (target : Str) : Action (List PendingTrustNotice) :=
  Prog.read fun w => w.manager.unresolvedTrustChanges.filter (noticeNames target)

def dropTrustNotices (resolved : List PendingTrustNotice) : Action Unit :=
  onManager fun m => { m with
    pendingTrustChange := m.pendingTrustChange.filter fun n => !resolved.any (sameWarning n)
    unresolvedTrustChanges :=
      m.unresolvedTrustChanges.filter fun n => !resolved.any (sameWarning n) }

def takePendingTrustChanges : Action (List PendingTrustNotice) :=
  Prog.update fun w =>
    (w.manager.pendingTrustChange, { w with manager := { w.manager with pendingTrustChange := [] } })

/-- Retires the warnings filed under the handle and counts the decisions among them. -/
def clearTrustNoticesForHandle (handle : Str) : Action Nat :=
  Prog.update fun w =>
    (w.manager.unresolvedTrustChanges.countP fun n => n.handle = handle,
      { w with manager := { w.manager with
        pendingTrustChange := w.manager.pendingTrustChange.filter fun n => n.handle ≠ handle
        unresolvedTrustChanges :=
          w.manager.unresolvedTrustChanges.filter fun n => n.handle ≠ handle } })

end Notices

section Consents

inductive Consent where
  | rebind (oldHandle newHandle : Str) (fingerprint : Fingerprint)
  | install (handle : Str) (oldFp newFp : Fingerprint) (pubkey : Bytes)
  deriving DecidableEq

def Consent.acceptedFingerprint : Consent → Fingerprint
  | .rebind _ _ fp => fp
  | .install _ _ newFp _ => newFp

/-- The key an accepted warning would trust, and the handle it would trust it at. -/
def Consent.commitment : Consent → Fingerprint × Str
  | .rebind _ newHandle fp => (fp, newHandle)
  | .install handle _ newFp _ => (newFp, handle)

def consentFor (notice : PendingTrustNotice) : Option Consent :=
  match notice.change, notice.newPubkey with
  | .handleChanged oldHandle newHandle fp, _ => some (.rebind oldHandle newHandle fp)
  | .fingerprintChanged handle oldFp newFp, some pubkey => some (.install handle oldFp newFp pubkey)
  | _, _ => none

def selects (selector : Str) (notice : PendingTrustNotice) : Bool :=
  (consentFor notice).any fun consent => selector.isPrefixOf (hexEncode consent.acceptedFingerprint)

def actionableChanges (notices : List PendingTrustNotice) : List TrustChange :=
  (notices.filter fun n => (consentFor n).isSome).map PendingTrustNotice.change

/-- The distinct decisions among the warnings, in the order they were raised. -/
def distinctConsents (notices : List PendingTrustNotice) : List Consent :=
  notices.foldl (fun seen notice => match consentFor notice with
    | some consent =>
        if seen.any fun other => other.commitment = consent.commitment then seen
        else seen ++ [consent]
    | none => seen) []

inductive ReverifyOutcome where
  | applied (oldFp newFp : Fingerprint)
  | cleared (deleted : Nat)
  | rebound (fingerprint : Fingerprint) (oldHandle newHandle : Str)
  | ambiguous (candidates : List TrustChange)
  | noSuchCandidate (candidates : List TrustChange)
  | stale (fingerprint : Fingerprint)
  | notFound
  deriving DecidableEq

end Consents

section Reverify

/-- What is in flight with the peer at the handle, in every queue. -/
def E2eManager.dropPendingFor (m : E2eManager) (handle : Str) : E2eManager :=
  { m with
    pending := m.pending.retain fun _ ph => ph.peerHandle ≠ some handle
    pendingInbound := m.pendingInbound.retain fun k _ => k.1 ≠ handle
    pendingAcceptRequests := m.pendingAcceptRequests.filter fun r => r.handle ≠ handle
    pendingOutboundKeyreqs := m.pendingOutboundKeyreqs.filter fun r => r.peerHandle ≠ handle }

def E2eManager.pendingCount (m : E2eManager) : Nat :=
  m.pending.rows.length + m.pendingInbound.rows.length + m.pendingAcceptRequests.length +
    m.pendingOutboundKeyreqs.length

def clearPendingStateForHandle (handle : Str) : Action Nat :=
  Prog.update fun w =>
    let cleared := w.manager.dropPendingFor handle
    (w.manager.pendingCount - cleared.pendingCount, { w with manager := cleared })

def clearHandleState (handle : Str) : Action Unit := do
  let _ ← executeGet (·.deleteIncomingSessionsForHandle handle)
  let _ ← executeGet (·.deleteOutgoingRecipientsForHandle handle)
  let _ ← clearPendingStateForHandle handle

def currentBinding (fp : Fingerprint) : Action (Option Str) := do
  let peer ← query (·.getPeerByFingerprint fp)
  return peer.bind PeerRecord.lastHandle

/-- Clears the handle the peer is bound to now, when that is not the one it is moving to. -/
def clearFormerHandle (current : Option Str) (handle : Str) : Action Unit :=
  match current with
  | some former => if former ≠ handle then clearHandleState former else pure ()
  | none => pure ()

def isMoving (fp : Fingerprint) : Action Bool :=
  Prog.read fun w => w.manager.unresolvedTrustChanges.any fun n => match n.change with
    | .handleChanged _ _ moved => moved = fp
    | _ => false

def evictReplacedIdentity (oldFp : Fingerprint) (handle : Str) : Action Unit := do
  match ← query (·.getPeerByFingerprint oldFp) with
  | none => return ()
  | some peer =>
      if peer.lastHandle ≠ some handle then return ()
      else
        let moving ← isMoving oldFp
        if moving then execute (·.upsertPeer { peer with lastHandle := none })
        else execute (·.deletePeerByFingerprint oldFp)

def applyRebind (candidates : List PendingTrustNotice) (oldHandle newHandle : Str)
    (fp : Fingerprint) : Action ReverifyOutcome := do
  match ← query (·.getPeerByFingerprint fp) with
  | none =>
      dropTrustNotices candidates
      return .stale fp
  | some peer =>
      clearHandleState newHandle
      clearFormerHandle peer.lastHandle newHandle
      let now ← nowUnix
      execute (·.upsertPeer { peer with
        fingerprint := fp
        lastHandle := some newHandle
        lastSeen := now })
      execute (·.detachOtherPeersFromHandle newHandle fp)
      let _ ← clearTrustNoticesForHandle newHandle
      dropTrustNotices candidates
      return .rebound fp (peer.lastHandle.getD oldHandle) newHandle

def applyInstall (candidates : List PendingTrustNotice) (handle : Str) (oldFp newFp : Fingerprint)
    (pubkey : Bytes) : Action ReverifyOutcome := do
  evictReplacedIdentity oldFp handle
  clearHandleState handle
  let current ← currentBinding newFp
  clearFormerHandle current handle
  let now ← nowUnix
  execute (·.upsertPeer ⟨newFp, pubkey, some handle, none, now, now, .trusted⟩)
  execute (·.detachOtherPeersFromHandle handle newFp)
  let _ ← clearTrustNoticesForHandle handle
  dropTrustNotices candidates
  return .applied oldFp newFp

/-- Deletes the peer the handle resolves to, and says how many rows that was. -/
def deletePeerAt (handle : Str) : Action Nat := do
  match ← query (·.getPeerByHandle handle) with
  | none => return 0
  | some peer =>
      execute (·.deletePeerByFingerprint peer.fingerprint)
      return 1

def purgeHandle (handle : Str) (resolved : List PendingTrustNotice) : Action ReverifyOutcome := do
  let peers ← deletePeerAt handle
  let sessions ← executeGet (·.deleteIncomingSessionsForHandle handle)
  let recipients ← executeGet (·.deleteOutgoingRecipientsForHandle handle)
  let pending ← clearPendingStateForHandle handle
  dropTrustNotices resolved
  let deleted := peers + sessions + recipients + pending + resolved.length
  if deleted = 0 then return .notFound else return .cleared deleted

/-- Applies the one decision the candidates stand for, if they stand for one. -/
def applyConsents (nickOrHandle : Str) (candidates : List PendingTrustNotice) :
    Action ReverifyOutcome :=
  match distinctConsents candidates with
  | [] => purgeHandle nickOrHandle candidates
  | [.rebind oldHandle newHandle fp] => applyRebind candidates oldHandle newHandle fp
  | [.install handle oldFp newFp pubkey] => applyInstall candidates handle oldFp newFp pubkey
  | _ :: _ :: _ => pure (.ambiguous (actionableChanges candidates))

def reverifyPeer (nickOrHandle : Str) (fp : Option Str) : Action ReverifyOutcome := do
  let notices ← trustNoticesFor nickOrHandle
  let exact := notices.filter fun n => n.handle = nickOrHandle
  let candidates := if exact = [] then notices else exact
  match fp with
  | none => applyConsents nickOrHandle candidates
  | some text =>
      let picked := candidates.filter (selects (asciiLower (trim text)))
      if picked = [] then return .noSuchCandidate (actionableChanges candidates)
      else applyConsents nickOrHandle picked

end Reverify

section Forget

/-- Takes the peer's pending state in the one context out of every queue. -/
def E2eManager.dropPendingOn (m : E2eManager) (handle channel : Str) : E2eManager :=
  { m with
    pendingInbound := m.pendingInbound.erase (handle, channel)
    pendingAcceptRequests :=
      m.pendingAcceptRequests.filter fun r => !(r.handle = handle && r.channel = channel)
    pending := m.pending.retain fun k ph => !(k.1 = channel && ph.peerHandle = some handle)
    pendingOutboundKeyreqs :=
      m.pendingOutboundKeyreqs.filter fun r => !(r.peerHandle = handle && r.channel = channel) }

def forgetPeerOnChannel (handle channel : Str) : Action Nat := do
  let present ← query fun kr => (kr.getIncomingSession handle channel).isSome
  Prog.onlyIf present (execute (·.deleteIncomingSession handle channel))
  let pending ← Prog.update fun w =>
    let cleared := w.manager.dropPendingOn handle channel
    (w.manager.pendingCount - cleared.pendingCount, { w with manager := cleared })
  return (if present then 1 else 0) + pending

def forgetPeerOnDmContexts (handle peerChannel : Str) (ownChannel : Option Str) : Action Nat := do
  let n ← forgetPeerOnChannel handle peerChannel
  match ownChannel with
  | some own =>
      if own ≠ peerChannel then
        let m ← forgetPeerOnChannel handle own
        return n + m
      else return n
  | none => return n

def forgetPeerEverywhere (handle : Str) : Action Nat := do
  let peers ← deletePeerAt handle
  let sessions ← executeGet (·.deleteIncomingSessionsForHandle handle)
  let recipients ← executeGet (·.deleteOutgoingRecipientsForHandle handle)
  let pending ← clearPendingStateForHandle handle
  let notices ← clearTrustNoticesForHandle handle
  return peers + sessions + recipients + pending + notices

end Forget

end Repartee.E2e
