import Repartee.App.ReadMarkers
import Repartee.Irc.Batch

/-!
Discovery of the conversations a bouncer keeps: pages of targets, newest first, each page below the
oldest time of the one before it.
-/

namespace Repartee.Discovery

open Repartee.Text
open Repartee.Lib
open Repartee.Irc

structure HistoryDiscovery where
  pending : Option Nat
  discoveryStarted : Bool
  upperMs : Int
  limit : Nat
  queue : List Str
  seen : List Str
  finished : Bool
  incomplete : Bool
  attempts : Nat
  retryAt : Nat

structure Connection where
  label : Str
  serverOwnsHistory : Bool
  bouncerControl : Bool
  chathistory : Bool
  chathistoryMax : Option Nat
  closedTargets : List Str
  connected : Bool
  /-- The handle takes what is sent. -/
  sends : Bool

/-- The parameters of a request that vary. -/
structure TargetsRequest where
  upperMs : Int
  limit : Nat
  deriving DecidableEq

structure App where
  connections : Map Str Connection
  /-- Whether it is a channel, under the buffer's id. -/
  buffers : Map Str Bool
  historyDiscovery : Map Str HistoryDiscovery
  /-- What went out, and what was shown in which buffer. -/
  sent : List (Str × TargetsRequest)
  notices : List (Str × Str)

variable (P : MarkRead.MarkerPlatform)

def makeBufferId (conn name : Str) : Str := conn ++ '/' :: P.unicode.toLowercase name

def isChannel (target : Str) : Bool :=
  target.head?.any fun c => c = '#' || c = '&' || c = '+' || c = '!'

/-- The command of a request. -/
def TargetsRequest.command (request : TargetsRequest) : Command :=
  .raw "CHATHISTORY".toList
    ["TARGETS".toList, "timestamp=".toList ++ P.rfc3339Millis request.upperMs,
      "timestamp=1970-01-01T00:00:00.000Z".toList, natText request.limit]

def decodeTarget (upperMs : Int) (message : Message) : Option (Str × Int) :=
  match message.command with
  | .raw command [sub, name, text] =>
      if !eqNocase command "CHATHISTORY".toList || !eqNocase sub "TARGETS".toList || name.isEmpty ||
          name.head? = some ':' || name.any (fun c => isWhitespace c || isControl c) then none
      else
        match P.parseRfc3339 text with
        | some time => if time ≤ 0 ∨ upperMs ≤ time then none else some (name, time)
        | none => none
  | _ => none

/-- One row that does not fit and the page is refused. -/
def decodeTargets (batch : BatchInfo) (upperMs : Int) : Option (List (Str × Int)) :=
  if batch.droppedMessages ≠ 0 then none else batch.messages.mapM (decodeTarget P upperMs)

def clampLimit (want : Nat) (serverMax : Option Nat) : Nat := max (min want (serverMax.getD want)) 1

def gaveUpNotice : Str :=
  "Bouncer conversation discovery failed after three attempts; reconnect to retry.".toList

def incompleteNotice : Str :=
  ("Some conversations may be missing because the bouncer's history limit was reached. " ++
    "Open a known conversation by name to retrieve its history.").toList

def endTag : Str := "draft/chathistory-end".toList

/-- The least of the times of a page. -/
def oldestOf (targets : List (Str × Int)) : Option Int := (targets.map Prod.snd).min?

def ended (batch : BatchInfo) : Bool :=
  batch.openerTags.any fun tags => tags.any fun tag => tag.key = endTag

/-- The next page starts at the oldest time of this one, so that the targets that share it are
listed; where they fill a page the rest of them is given up. -/
def turnPage (discovery : HistoryDiscovery) (targets : List (Str × Int)) (ends : Bool) (now : Nat) :
    HistoryDiscovery :=
  let finished := discovery.finished || ends
  match oldestOf targets with
  | none =>
      { discovery with pending := none, attempts := 0, retryAt := now, finished := true }
  | some oldest =>
      { discovery with
        pending := none
        attempts := 0
        retryAt := now
        finished := finished
        incomplete := discovery.incomplete ||
          (!finished && decide (oldest + 1 = discovery.upperMs) &&
            decide (discovery.limit ≤ targets.length))
        upperMs := if oldest + 1 < discovery.upperMs then oldest + 1 else oldest }

namespace App

variable (app : App) (connId : Str)

def setDiscovery (discovery : HistoryDiscovery) : App :=
  { app with historyDiscovery := app.historyDiscovery.insert connId discovery }

def notice (text : Str) : App :=
  match app.connections.get? connId with
  | some conn => { app with notices := app.notices ++ [(makeBufferId P connId conn.label, text)] }
  | none => app

/-- Times of the day (`utc`) and of the steady clock (`now`) are in milliseconds. -/
def ensureHistoryDiscovery (utc : Int) (now : Nat) : App × Bool :=
  match app.connections.get? connId with
  | none => (app, false)
  | some conn =>
      if !conn.serverOwnsHistory || conn.bouncerControl || !conn.chathistory then (app, false)
      else
        match app.historyDiscovery.get? connId with
        | some _ => (app, true)
        | none =>
            (app.setDiscovery connId
              { pending := none
                discoveryStarted := false
                upperMs := utc + 5000
                limit := clampLimit 1000 conn.chathistoryMax
                queue := []
                seen := []
                finished := false
                incomplete := false
                attempts := 0
                retryAt := now }, true)

def sendHistoryTargets (now : Nat) : App :=
  match app.historyDiscovery.get? connId with
  | none => app
  | some discovery =>
      if discovery.finished || discovery.pending.isSome || now < discovery.retryAt then app
      else if 3 ≤ discovery.attempts then
        (app.setDiscovery connId { discovery with finished := true }).notice P connId gaveUpNotice
      else
        let goes := (app.connections.get? connId).any Connection.sends
        let app := app.setDiscovery connId
          { discovery with
            attempts := discovery.attempts + 1
            retryAt := now + 5000
            pending := if goes then some now else none }
        if goes then { app with sent := app.sent ++ [(connId, ⟨discovery.upperMs, discovery.limit⟩)] }
        else app

/-- The pass of the ticker over one connection, without what it does to the queue. -/
def tickHistoryDiscovery (now : Nat) : App :=
  match app.connections.get? connId with
  | none => { app with historyDiscovery := app.historyDiscovery.erase connId }
  | some conn =>
      if !conn.connected then app
      else
        match app.historyDiscovery.get? connId with
        | none => app
        | some discovery =>
            (app.setDiscovery connId
              { discovery with
                pending := discovery.pending.filter fun started => now - started ≤ 35000 }
              ).sendHistoryTargets P connId now

def startHistoryDiscovery (utc : Int) (now : Nat) : App :=
  let (app, ensured) := app.ensureHistoryDiscovery connId utc now
  if !ensured then app
  else
    match app.historyDiscovery.get? connId, app.connections.get? connId with
    | some discovery, some conn =>
        if discovery.discoveryStarted then app
        else
          (app.setDiscovery connId
            { discovery with
              discoveryStarted := true
              limit := clampLimit 1000 conn.chathistoryMax }).sendHistoryTargets P connId now
    | _, _ => app

/-- The buffer of a target that was not closed, and its place in the queue. -/
def openTarget (conn : Connection) (target : Str) (discovery : HistoryDiscovery) : App :=
  if asciiLower target ∈ conn.closedTargets then app.setDiscovery connId discovery
  else
    let bufferId := makeBufferId P connId target
    let app :=
      if (app.buffers.get? bufferId).isSome then app
      else { app with buffers := app.buffers.insert bufferId (isChannel target) }
    app.setDiscovery connId { discovery with queue := discovery.queue ++ [target] }

/-- The targets of an accepted page; `false` when the connection is gone on the way. -/
def reportTargets (app : App) : List Str → App × Bool
  | [] => (app, true)
  | target :: rest =>
      match app.historyDiscovery.get? connId with
      | none => (app, false)
      | some discovery =>
          if asciiLower target ∈ discovery.seen then app.reportTargets rest
          else
            let discovery := { discovery with seen := discovery.seen ++ [asciiLower target] }
            match app.connections.get? connId with
            | none => (app.setDiscovery connId discovery, false)
            | some conn => (app.openTarget P connId conn target discovery).reportTargets rest

def receiveHistoryTargets (batch : BatchInfo) (now : Nat) : App :=
  match app.historyDiscovery.get? connId with
  | none => app
  | some discovery =>
      if discovery.pending.all fun started => decide (batch.startedAt < started) then app
      else
        match decodeTargets P batch discovery.upperMs with
        | none => app
        | some targets =>
            let turned := turnPage discovery targets (ended batch) now
            let app := app.setDiscovery connId turned
            match app.reportTargets P connId (targets.map Prod.fst) with
            | (app, false) => app
            | (app, true) =>
                let app :=
                  if turned.incomplete && !discovery.incomplete then
                    app.notice P connId incompleteNotice
                  else app
                app.tickHistoryDiscovery P connId now

/-- A batch that ended: only the end of a targets batch is read as a page. -/
def dispatchCompletedBatch (batch : BatchInfo) (cleanEnd : Bool) (now : Nat) : App :=
  if batch.batchType = "DRAFT/CHATHISTORY-TARGETS".toList ∧ cleanEnd then
    app.receiveHistoryTargets P connId batch now
  else app

end App

end Repartee.Discovery
