import Repartee.State.ReadState

/-!
The read markers a connection sends to its bouncer: which are wanted, in flight, confirmed or
refused, and the requests that leave with each tick.
-/

namespace Repartee.MarkRead

open Text Lib Irc

/-- A request the server has not answered yet; without a timestamp it asks for the marker. -/
structure PendingMarker where
  target : Str
  timestamp : Option Int
  sentAt : Nat
  deriving DecidableEq

/-- All keyed by the target in lower case. Instants are in milliseconds. -/
structure ReadMarkers where
  scope : Str
  confirmed : Map Str (Option Int)
  desired : Map Str Int
  wireTargets : Map Str Str
  sent : Map Str (Int × Nat)
  queried : Map Str Nat
  rejected : Map Str Int
  rejectedQueries : List Str
  pending : List PendingMarker
  failures : Map Str Nat
  retryAfter : Map Str Nat

def ReadMarkers.default : ReadMarkers :=
  ⟨[], Table.empty, Table.empty, Table.empty, Table.empty, Table.empty, Table.empty, [], [],
    Table.empty, Table.empty⟩

/-- What the clock crate and the standard library do: times are read and written in milliseconds. -/
structure MarkerPlatform extends State.Platform where
  rfc3339Millis : Int → Str

variable (P : MarkerPlatform)

def timestampText (millis : Int) : Str := "timestamp=".toList ++ P.rfc3339Millis millis

/-- `some none` is the marker of a target the server knows nothing about. -/
def parseMarker (value : Str) : Option (Option Int) :=
  if value = ['*'] then some none
  else ((stripPrefix "timestamp=".toList value).bind P.parseRfc3339).map some

/-- An unknown marker is below every time. -/
def markerLe : Option Int → Option Int → Bool
  | none, _ => true
  | some _, none => false
  | some a, some b => decide (a ≤ b)

namespace ReadMarkers

variable (m : ReadMarkers)

/-- Another network under the same connection starts afresh. -/
def prepareScope (scope : Str) : ReadMarkers :=
  if m.scope = scope then m else { ReadMarkers.default with scope := scope }

/-- The wanted ones first, then those asked about longest ago. -/
def priority (target : Str) : Nat × Nat :=
  (if (m.desired.get? target).isSome then 0 else 1,
    match (m.sent.get? target).map Prod.snd with
    | some at_ => at_ + 1
    | none =>
        match m.queried.get? target with
        | some at_ => at_ + 1
        | none => 0)

def prioritizedTargets (targets : Map Str Str) : List (Str × Str) :=
  let all := m.desired.rows.foldl (fun (all : Map Str Str) wanted =>
    if (all.get? wanted.1).isSome then all
    else all.insert wanted.1 ((m.wireTargets.get? wanted.1).getD wanted.1)) targets
  (all.rows.insertionSort fun a b => a.1 ≤ b.1).insertionSort fun a b =>
    (m.priority a.1).1 < (m.priority b.1).1 ∨
      (m.priority a.1).1 = (m.priority b.1).1 ∧ (m.priority a.1).2 ≤ (m.priority b.1).2

/-- The bookkeeping of a receipt that is done whether or not it brings news. -/
def settle (target : Str) (marker : Option Int) : ReadMarkers :=
  { m with
    pending := m.pending.filter fun request =>
      request.target != target ||
        request.timestamp.any fun requested => marker.all fun time => decide (time < requested)
    rejected := m.rejected.erase target
    rejectedQueries := m.rejectedQueries.filter (· != target)
    failures := m.failures.erase target
    retryAfter := m.retryAfter.erase target }

/-- Whether a receipt is below what is confirmed already. -/
def stale (target : Str) (marker : Option Int) : Bool :=
  (m.confirmed.get? target).any (markerLe marker)

/-- Whether a receipt fulfils what is wanted of its target. -/
def fulfilled (target : Str) (marker : Option Int) : Bool :=
  marker.any fun time => (m.desired.get? target).any fun desired => decide (desired ≤ time)

/-- A receipt; whether it brings news. -/
def receive (name : Str) (marker : Option Int) : ReadMarkers × Bool :=
  let target := P.unicode.toLowercase name
  let settled := m.settle target marker
  if settled.stale target marker then (settled, false)
  else
    let done := if settled.fulfilled target marker then
        { settled with
          desired := settled.desired.erase target
          sent := settled.sent.erase target }
      else settled
    ({ done with confirmed := done.confirmed.insert target marker }, true)

/-- A new connection knows nothing of the old one's answers; what is wanted stays wanted. -/
def reconnect : ReadMarkers :=
  { m with
    confirmed := Table.empty
    sent := Table.empty
    queried := Table.empty
    rejected := Table.empty
    rejectedQueries := []
    pending := []
    failures := Table.empty
    retryAfter := Table.empty }

/-- A target may be asked about again. -/
def forgetRefusal (target : Str) : ReadMarkers :=
  if m.rejectedQueries.contains target then
    { m with
      rejected := m.rejected.erase target
      rejectedQueries := m.rejectedQueries.filter (· != target)
      failures := m.failures.erase target
      retryAfter := m.retryAfter.erase target }
  else { m with rejected := m.rejected.erase target }

/-- The user has read a target up to a time, unless the server refused that already. -/
def want (target : Str) (millis : Int) : ReadMarkers :=
  if (m.rejected.get? target).any fun rejected => decide (millis ≤ rejected) then m
  else
    let m := m.forgetRefusal target
    if (m.confirmed.get? target).any fun confirmed => confirmed.any fun time => decide (millis ≤ time)
    then m
    else { m with desired := m.desired.insert target (max ((m.desired.get? target).getD millis) millis) }

/-- Which request a failure speaks of: the oldest, or the oldest its context names. -/
def answers (context : Option Str) (request : PendingMarker) : Bool :=
  context.all fun context =>
    P.unicode.toLowercase context == request.target ||
      request.timestamp.any fun millis => context == timestampText P millis

def internalError : Str := "INTERNAL_ERROR".toList

/-- A refused request; what was wanted stays wanted if it has moved on since. -/
def refuse (target : Str) (rejected : Option Int) : ReadMarkers :=
  let m := match rejected with
    | some rejected =>
        let m := if (m.sent.get? target).any fun (sent : Int × Nat) => sent.1 == rejected then
            { m with sent := m.sent.erase target }
          else m
        if (m.desired.get? target).all fun desired => decide (desired ≤ rejected) then
          { m with
            desired := m.desired.erase target
            rejected := m.rejected.insert target rejected }
        else m
    | none =>
        { m with
          rejectedQueries :=
            if m.rejectedQueries.contains target then m.rejectedQueries
            else m.rejectedQueries ++ [target]
          queried := m.queried.erase target }
  { m with retryAfter := m.retryAfter.erase target }

/-- A failure: an internal error is tried again twice. `none` when no request is in flight. -/
def failed (code : Str) (context : Option Str) (now : Nat) : Option ReadMarkers :=
  (m.pending.find? (answers P context)).map fun request =>
    let count := min ((m.failures.get? request.target).getD 0 + 1) 255
    let m := { m with
      pending := m.pending.eraseP (answers P context)
      failures := m.failures.insert request.target count }
    if code = internalError ∧ count < 3 then
      { m with retryAfter := m.retryAfter.insert request.target (now + 5000 * 2 ^ count) }
    else m.refuse request.target request.timestamp

/-- The name a target is first sent under stays its name. -/
def withWireName (target name : Str) : ReadMarkers :=
  if (m.wireTargets.get? target).isSome then m
  else { m with wireTargets := m.wireTargets.insert target name }

end ReadMarkers

/-- A request as it leaves: the connection, the command and its parameters. -/
structure MarkerRequest where
  connId : Str
  command : Str
  params : List Str
  deriving DecidableEq

/-- The running state of a tick; `stopped` once a target was met with the budget spent. -/
structure Sending where
  markers : ReadMarkers
  budget : Nat
  stopped : Bool
  requests : List MarkerRequest

def pendingLimit : Nat := 128

/-- One target of a tick. `accepts` says which requests the connection's sender takes. -/
def sendTarget (accepts : MarkerRequest → Bool) (now : Nat) (connId command : Str) (tick : Sending)
    (entry : Str × Str) : Sending :=
  let (target, name) := entry
  let m := tick.markers
  if tick.stopped then tick
  else if tick.budget = 0 then { tick with stopped := true }
  else if (m.rejected.get? target).isSome || (m.retryAfter.get? target).any (now < ·) then tick
  else
    match m.desired.get? target with
    | some millis =>
        let m := m.withWireName target name
        let request : MarkerRequest :=
          ⟨connId, command, [(m.wireTargets.get? target).getD name, timestampText P millis]⟩
        let recent := (m.sent.get? target).any fun sent =>
          decide (now - sent.2 < if sent.1 = millis then 5000 else 1000)
        if recent || pendingLimit ≤ m.pending.length || !accepts request then { tick with markers := m }
        else
          { markers := { m with
              pending := m.pending ++ [⟨target, some millis, now⟩]
              sent := m.sent.insert target (millis, now) }
            budget := tick.budget - 1
            stopped := false
            requests := tick.requests ++ [request] }
    | none =>
        let request : MarkerRequest := ⟨connId, command, [name]⟩
        let asked := m.rejectedQueries.contains target || (m.confirmed.get? target).isSome ||
          (m.queried.get? target).any fun at_ => decide (now - at_ < 30000)
        if asked || pendingLimit ≤ m.pending.length || !accepts request then tick
        else
          { markers := { m with
              pending := m.pending ++ [⟨target, none, now⟩]
              queried := m.queried.insert target now }
            budget := tick.budget - 1
            stopped := false
            requests := tick.requests ++ [request] }

/-- The part of the application that keeps read markers. `ircHandles` are the connections that can
be written to. -/
structure App where
  state : State.AppState
  readMarkers : Map Str ReadMarkers
  ircHandles : List Str

namespace App

variable (app : App)

def markersOf (connId : Str) : ReadMarkers := (app.readMarkers.get? connId).getD .default

def setMarkers (connId : Str) (m : ReadMarkers) : App :=
  { app with readMarkers := app.readMarkers.insert connId m }

def reconnectReadMarkers (connId : Str) : App :=
  match app.state.connections.get? connId with
  | none => app
  | some conn =>
      let markers := app.markersOf connId
      let reset := if markers.scope = conn.networkKey then app.state
        else app.state.resetConnectionReadMarkers connId
      { app with state := reset.resetReadIdentity connId }.setMarkers connId
        (markers.prepareScope conn.networkKey).reconnect

/-- The command that carries markers on a connection, if it has one. -/
def markerCommand (conn : State.Connection) : Option Str :=
  if !conn.serverOwnsHistory || conn.bouncerControl || !conn.connected then none
  else if conn.enabledCaps.contains "draft/read-marker".toList then some "MARKREAD".toList
  else if conn.enabledCaps.contains "soju.im/read".toList then some "READ".toList
  else none

/-- The conversations of a connection, by their names in lower case. -/
def conversations (connId : Str) : Map Str Str :=
  (app.state.buffers.rows.filter fun e =>
    e.2.connectionId == connId && (e.2.bufferType == .channel || e.2.bufferType == .query)).foldl
      (fun (targets : Map Str Str) e => targets.insert (P.unicode.toLowercase e.2.name) e.2.name)
      Table.empty

/-- The turn of one connection in a tick. -/
def tickConnection (accepts : MarkerRequest → Bool) (now : Nat)
    (tick : App × Nat × Bool × List MarkerRequest) (entry : Str × State.Connection) :
    App × Nat × Bool × List MarkerRequest :=
  let (app, budget, stopped, requests) := tick
  let (connId, conn) := entry
  if stopped then tick
  else
    match markerCommand conn with
    | none => tick
    | some command =>
        if !app.ircHandles.contains connId then tick
        else
          let inScope := (app.markersOf connId).prepareScope conn.networkKey
          let live := { inScope with
            pending := inScope.pending.filter fun request => decide (now - request.sentAt < 45000) }
          let sending := (live.prioritizedTargets (app.conversations P connId)).foldl
            (sendTarget P accepts now connId command) ⟨live, budget, false, requests⟩
          (app.setMarkers connId sending.markers, sending.budget, sending.stopped, sending.requests)

/-- At most eight requests leave with a tick. -/
def tickReadMarkers (accepts : MarkerRequest → Bool) (now : Nat) : App × List MarkerRequest :=
  let kept := { app with readMarkers :=
    app.readMarkers.retain fun id _ => (app.state.connections.get? id).isSome }
  let done := app.state.connections.rows.foldl (tickConnection P accepts now) (kept, 8, false, [])
  (done.1, done.2.2.2)

/-- One boundary of what the user sees: wanted, and applied to the counters at once. -/
def markBoundary (connId scope : Str) (app : App) (boundary : Str × Int) : App :=
  match splitOnce '/' boundary.1 with
  | none => app
  | some (_, name) =>
      let target := P.unicode.toLowercase name
      let inScope := (app.markersOf connId).prepareScope scope
      let refused := (inScope.rejected.get? target).any fun rejected => decide (boundary.2 ≤ rejected)
      let wanted := app.setMarkers connId (inScope.want target boundary.2)
      if refused then wanted
      else { wanted with state := wanted.state.applyServerReadMarker boundary.1 boundary.2 }

def markVisibleMessageRead (accepts : MarkerRequest → Bool) (now : Nat) (bufferId : Str)
    (messageId : Nat) : App × List MarkerRequest :=
  if !app.state.usesReadMarkers bufferId then (app, [])
  else
    match app.state.buffers.get? bufferId with
    | none => (app, [])
    | some buffer =>
        match app.state.visibleReadMarkers P.toPlatform bufferId messageId,
            app.state.connections.get? buffer.connectionId with
        | some boundaries, some conn =>
            let cleared := { app with state := app.state.clearVisibleReadRows bufferId messageId }
            let marked := boundaries.rows.foldl
              (markBoundary P buffer.connectionId conn.networkKey) cleared
            if boundaries.rows.isEmpty then (marked, []) else marked.tickReadMarkers P accepts now
        | _, _ => (app, [])

/-- A `FAIL` line. -/
def handleReadMarkerFailure (connId : Str) (params : List Str) (now : Nat) : App :=
  match params with
  | _ :: code :: third :: rest =>
      match app.readMarkers.get? connId with
      | none => app
      | some markers =>
          match markers.failed P code (if rest.isEmpty then none else some third) now with
          | none => app
          | some failed => app.setMarkers connId failed
  | _ => app

/-- A marker that a server announces. -/
def handleMarker (connId : Str) (conn : State.Connection) (name : Str) (marker : Option Int) : App :=
  let inScope := (app.markersOf connId).prepareScope conn.networkKey
  let target := P.unicode.toLowercase name
  let firstConfirmation := (inScope.confirmed.get? target).isNone
  let received := inScope.receive P name marker
  let stored := app.setMarkers connId received.1
  if !received.2 && received.1.confirmed.get? target != some marker then stored
  else
    let bufferId := makeBufferId P.unicode connId name
    if firstConfirmation then
      let wanted := received.1.desired.get? target
      let newest := if markerLe marker wanted then wanted else marker
      { stored with
        state := stored.state.reconcileServerReadMarker P.toPlatform bufferId newest }
    else
      match marker with
      | some millis => { stored with state := stored.state.applyServerReadMarker bufferId millis }
      | none => stored

/-- A line of the server as far as it speaks of read markers. -/
def handleReadMarker (connId command : Str) (params : List Str) (now : Nat) : App :=
  if command = "FAIL".toList ∧
      (params.head? = some "MARKREAD".toList ∨ params.head? = some "READ".toList) then
    app.handleReadMarkerFailure P connId params now
  else if command = "MARKREAD".toList ∨ command = "READ".toList then
    match app.state.connections.get? connId, params with
    | some conn, [name, value] =>
        if conn.serverOwnsHistory && !conn.bouncerControl &&
            (conn.enabledCaps.contains "draft/read-marker".toList ||
              conn.enabledCaps.contains "soju.im/read".toList) && !name.isEmpty then
          match parseMarker P value with
          | some marker => app.handleMarker P connId conn name marker
          | none => app
        else app
    | _, _ => app
  else app

end App

end Repartee.MarkRead
