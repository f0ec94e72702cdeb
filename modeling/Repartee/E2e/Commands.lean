import Repartee.E2e.Manager.Messages

/-!
The trust commands, from the point where the nick and the contexts are resolved. The peer context
is the channel or the peer's handle; the own context is the channel or our own handle, under
which the peer's direct messages to us are keyed.
-/

namespace Repartee.E2e

open Text Lib

variable (P : Platform)

inductive AcceptOutcome where
  | served (rsp : KeyRsp) (reciprocals : List PendingOutboundKeyReq)
  | ownHandleUnknown
  | requestLost
  | nothingToAccept
  | retrusted
  deriving DecidableEq

/-- Without a cached request the stored session is trusted again, unless it is the placeholder
of a request that was lost. -/
def acceptStored (handle ownContext : Str) : Action AcceptOutcome := do
  match ← query (·.getIncomingSession handle ownContext) with
  | none => return .nothingToAccept
  | some sess =>
      if sess.status = .pending ∧ sess.sk = zeroKey then return .requestLost
      else
        execute (·.updateIncomingStatus handle ownContext .trusted)
        return .retrusted

def e2eAccept (handle chan : Str) (ownContext : Option Str) : Action AcceptOutcome := do
  match ← acceptPendingInbound P handle chan with
  | some rsp =>
      let reciprocals ← takePendingOutboundKeyreqs
      return .served rsp reciprocals
  | none => match ownContext with
      | none => return .ownHandleUnknown
      | some own => acceptStored handle own

def e2eDecline (handle chan : Str) : Action Unit :=
  execute (·.updateIncomingStatus handle chan .revoked)

def e2eRevoke (handle peerChan ownChan : Str) : Action Unit := do
  execute (·.updateIncomingStatus handle ownChan .revoked)
  execute (·.removeOutgoingRecipient peerChan handle)
  execute (·.markOutgoingPendingRotation peerChan)

def e2eUnrevoke (handle ownChan : Str) : Action Unit :=
  execute (·.updateIncomingStatus handle ownChan .trusted)

def e2eRotate (chan : Str) : Action Unit := execute (·.markOutgoingPendingRotation chan)

end Repartee.E2e
