import Repartee.Lib.Run
import Repartee.E2e.Commands

/-!
The machine of one client: what the network, the user and the surrounding program can make the
manager do, and what the environment can do meanwhile.
-/

namespace Repartee.E2e

open Text Lib

inductive Op where
  | keyreq (handle : Str) (nick : Option Str) (req : KeyReq)
  | keyrsp (handle : Str) (rsp : KeyRsp)
  | rekey (handle : Str) (msg : KeyRekey)
  | send (channel text : Str)
  | sendCtcp (channel frame : Str)
  | receive (handle channel line : Str)
  | handshake (channel : Str) (peer : Option Str)
  | acceptPending (handle channel : Str)
  | accept (handle chan : Str) (own : Option Str)
  | decline (handle chan : Str)
  | revoke (handle peerChan ownChan : Str)
  | unrevoke (handle ownChan : Str)
  | forget (handle channel : Str) (own : Option Str)
  | forgetEverywhere (handle : Str)
  | reverify (nickOrHandle : Str) (fp : Option Str)
  | rotate (chan : Str)
  /-- The dispatcher empties the queues it surfaces or sends. -/
  | drain
  /-- Channel settings, autotrust rules, the handle cache and the configured networks change. -/
  | configure (config : Table ChannelConfig.channel) (rules : Table AutotrustRule.key)
      (cache : Table DmHandle.key) (networks : Table (id : Str → Str))
  /-- The process restarts on the same database. -/
  | restart
  | advance (now : Int) (instant : Nat)
  /-- The coming keyring calls fail as the list says. -/
  | faults (schedule : List (Option Str))
  /-- A hash map gives its entries in no particular order. -/
  | reorder (pending : Map (Str × Bytes) PendingHandshake)

def drainQueues : Action Unit := do
  let _ ← takePendingRekeySends
  let _ ← takePendingOutboundKeyreqs
  let _ ← takePendingAcceptRequests
  let _ ← takePendingTrustChanges

def configureKeyring (config : Table ChannelConfig.channel) (rules : Table AutotrustRule.key)
    (cache : Table DmHandle.key) (networks : Table (id : Str → Str)) (kr : Keyring) : Keyring :=
  { kr with
    channelConfig := config
    autotrust := rules
    dmHandleCache := cache
    configuredNetworks := networks }

def E2eManager.restarted (m : E2eManager) : E2eManager :=
  .withIdentity m.keyring m.identity m.tsToleranceSecs

def E2eManager.reordered (m : E2eManager) (pending : Map (Str × Bytes) PendingHandshake) :
    E2eManager :=
  if pending.rows.isPerm m.pending.rows then { m with pending := pending } else m

def Op.act (P : Platform) : Op → Action Unit
  | .keyreq handle nick req => discard (handleKeyreqWithNick P handle nick req)
  | .keyrsp handle rsp => handleKeyrsp P handle rsp
  | .rekey handle msg => handleRekey P handle msg
  | .send channel text => discard (encryptOutgoing P channel text)
  | .sendCtcp channel frame => discard (encryptOutgoingCtcp P channel frame)
  | .receive handle channel line => discard (decryptIncoming P handle channel line)
  | .handshake channel peer => discard (buildKeyreqForPeer P channel peer)
  | .acceptPending handle channel => discard (acceptPendingInbound P handle channel)
  | .accept handle chan own => discard (e2eAccept P handle chan own)
  | .decline handle chan => e2eDecline handle chan
  | .revoke handle peerChan ownChan => e2eRevoke handle peerChan ownChan
  | .unrevoke handle ownChan => e2eUnrevoke handle ownChan
  | .forget handle channel own => discard (forgetPeerOnDmContexts handle channel own)
  | .forgetEverywhere handle => discard (forgetPeerEverywhere handle)
  | .reverify nickOrHandle fp => discard (reverifyPeer nickOrHandle fp)
  | .rotate chan => e2eRotate chan
  | .drain => drainQueues
  | .configure config rules cache networks => onManager fun m =>
      { m with keyring := configureKeyring config rules cache networks m.keyring }
  | .restart => onManager E2eManager.restarted
  | .advance now instant => Prog.change fun w =>
      { w with env := { w.env with now := now, instant := instant } }
  | .faults schedule => Prog.change fun w => { w with env := { w.env with faults := schedule } }
  | .reorder pending => onManager fun m => m.reordered pending

/-- One step: the operation runs, and its result or error goes to the caller. -/
def exec (P : Platform) (w : World) (op : Op) : World := (op.act P w).2

/-- A client with an empty keyring that no fault awaits. -/
def World.fresh (identity : Bytes) (tsToleranceSecs : Int) : World :=
  ⟨.withIdentity .empty identity tsToleranceSecs, ⟨0, 0, 0, []⟩, ⟨[], [], []⟩⟩

end Repartee.E2e
