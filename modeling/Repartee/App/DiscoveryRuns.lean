import Repartee.App.HistoryDiscovery
import Repartee.App.MarkerRuns

/-!
Runs of the discovery against servers that answer requests with their newest targets: each page
lowers the bound, and what is above the bound was reported.
-/

namespace Repartee.Discovery

open Repartee.Text
open Repartee.Lib
open Repartee.Irc

variable (P : MarkRead.MarkerPlatform)

/-- A name that a message can carry as a parameter. -/
def WireName (name : Str) : Prop :=
  name ≠ [] ∧ name.head? ≠ some ':' ∧ ∀ c ∈ name, isWhitespace c = false ∧ isControl c = false

/-- What a server knows: its targets with the time of their latest message. -/
structure Server where
  targets : List (Str × Int)
  unique : (targets.map Prod.fst).Nodup
  named : ∀ x ∈ targets, WireName x.1

def Server.below (server : Server) (upperMs : Int) : List (Str × Int) :=
  server.targets.filter fun x => decide (0 < x.2 ∧ x.2 < upperMs)

/-- The newest targets below the bound, as many as the limit allows; ties fall in any way. -/
structure Newest (server : Server) (request : TargetsRequest) (page : List (Str × Int)) : Prop where
  listed : ∀ x ∈ page, x ∈ server.below request.upperMs
  nodup : page.Nodup
  sized : page.length = min request.limit (server.below request.upperMs).length
  newest : ∀ x ∈ page, ∀ y ∈ server.below request.upperMs, y ∉ page → y.2 ≤ x.2

def Spells (message : Message) (x : Str × Int) : Prop :=
  ∃ command sub text, message.command = .raw command [sub, x.1, text] ∧
    eqNocase command "CHATHISTORY".toList = true ∧ eqNocase sub "TARGETS".toList = true ∧
    P.parseRfc3339 text = some x.2

/-- A batch that answers a request; one with the end tag holds all there is. -/
structure Answers (server : Server) (request : TargetsRequest) (batch : BatchInfo) : Prop where
  complete : batch.droppedMessages = 0
  page : ∃ page, List.Forall₂ (Spells P) batch.messages page ∧ Newest server request page
  ends : ended batch = true → (server.below request.upperMs).length ≤ request.limit

def requests (app : App) (conn : Str) : List TargetsRequest :=
  app.sent.filterMap fun e => if e.1 = conn then some e.2 else none

/-- The page a batch is accepted as. -/
def acceptedPage (app : App) (conn : Str) (batch : BatchInfo) : Option (List (Str × Int)) :=
  (app.historyDiscovery.get? conn).bind fun discovery =>
    if discovery.pending.all fun started => decide (batch.startedAt < started) then none
    else decodeTargets P batch discovery.upperMs

inductive Op where
  /-- A conversation is queued on connect. -/
  | ensure (conn : Str) (utc : Int) (now : Nat)
  | start (conn : Str) (utc : Int) (now : Nat)
  | tick (conn : Str) (now : Nat)
  /-- Targets leave the queue, or return to it. -/
  | hydrate (conn : Str) (queue : List Str)
  /-- A batch ends. -/
  | batch (conn : Str) (batch : BatchInfo) (cleanEnd : Bool) (now : Nat)
  /-- The connection is lost or back, its handle is, or conversations are closed. -/
  | change (conn : Str) (connected sends : Bool) (closed : List Str)

def isTargets (batch : BatchInfo) (cleanEnd : Bool) : Prop :=
  batch.batchType = "DRAFT/CHATHISTORY-TARGETS".toList ∧ cleanEnd = true

instance (batch : BatchInfo) (cleanEnd : Bool) : Decidable (isTargets batch cleanEnd) :=
  inferInstanceAs (Decidable (_ ∧ _))

def step (app : App) : Op → App
  | .ensure conn utc now => (app.ensureHistoryDiscovery conn utc now).1
  | .start conn utc now => app.startHistoryDiscovery P conn utc now
  | .tick conn now => app.tickHistoryDiscovery P conn now
  | .hydrate conn queue =>
      match app.historyDiscovery.get? conn with
      | some discovery => app.setDiscovery conn { discovery with queue := queue }
      | none => app
  | .batch conn batch cleanEnd now => app.dispatchCompletedBatch P conn batch cleanEnd now
  | .change conn connected sends closed =>
      { app with connections := app.connections.adjust conn fun c =>
          { c with connected := connected, sends := sends, closedTargets := closed } }

/-- The client, with the bound its discovery on one connection began with and the number of pages
it accepted there. -/
structure Exchange where
  app : App
  interval : Int
  accepted : Nat

variable (connId : Str)

def acceptsHere (app : App) : Op → Bool
  | .batch conn batch cleanEnd _ =>
      decide (conn = connId ∧ isTargets batch cleanEnd) && (acceptedPage P app conn batch).isSome
  | _ => false

def exec (s : Exchange) (op : Op) : Exchange where
  app := step P s.app op
  interval :=
    match s.app.historyDiscovery.get? connId, (step P s.app op).historyDiscovery.get? connId with
    | none, some discovery => discovery.upperMs
    | _, _ => s.interval
  accepted := s.accepted + if acceptsHere P connId s.app op then 1 else 0

/-- Every page a server sends answers a request that was sent to it, whenever and in whatever order
it does so. -/
def Allowed (servers : Str → Server) (s : Exchange) : Op → Prop
  | .batch conn batch cleanEnd _ => isTargets batch cleanEnd →
      ∃ request ∈ requests s.app conn, Answers P (servers conn) request batch
  | _ => True

def opened (connections : Map Str Connection) (buffers : Map Str Bool) : Exchange :=
  ⟨⟨connections, buffers, Table.empty, [], []⟩, 0, 0⟩

/-! ### Pages -/

theorem mem_below (server : Server) (upperMs : Int) (x : Str × Int) :
    x ∈ server.below upperMs ↔ x ∈ server.targets ∧ 0 < x.2 ∧ x.2 < upperMs := by
  simp [Server.below]

/-- A page whose times are all below a lower bound answers the request for that bound as well. -/
theorem Newest.lower {server : Server} {request : TargetsRequest} {page : List (Str × Int)}
    (newest : Newest server request page) (some_ : 1 ≤ request.limit) (upperMs : Int)
    (le : upperMs ≤ request.upperMs) (under : ∀ x ∈ page, x.2 < upperMs) :
    server.below upperMs = server.below request.upperMs := by
  apply List.filter_congr
  intro x member
  simp only [decide_eq_decide]
  constructor
  · rintro ⟨positive, less⟩
    exact ⟨positive, by omega⟩
  · rintro ⟨positive, less⟩
    have here : x ∈ server.below request.upperMs := (mem_below server _ x).mpr ⟨member, positive, less⟩
    refine ⟨positive, ?_⟩
    by_cases shown : x ∈ page
    · exact under x shown
    · cases page with
      | nil =>
          have size := newest.sized
          have positive := List.length_pos_of_mem here
          simp only [List.length_nil] at size
          omega
      | cons y rest =>
          have older := newest.newest y List.mem_cons_self x here shown
          have := under y List.mem_cons_self
          omega

/-- A page that is not full holds everything below its bound. -/
theorem Newest.all {server : Server} {request : TargetsRequest} {page : List (Str × Int)}
    (newest : Newest server request page)
    (room : (server.below request.upperMs).length ≤ page.length) (x : Str × Int)
    (below : x ∈ server.below request.upperMs) : x ∈ page := by
  have distinct : (server.below request.upperMs).Nodup :=
    (server.unique.of_map Prod.fst).filter _
  have perm : page.Perm (server.below request.upperMs) :=
    (newest.nodup.subperm newest.listed).perm_of_length_le room
  exact perm.mem_iff.mpr below

/-- What turning an accepted page does: the bound falls unless this was the last page, and whatever
lies between the bounds is on the page, unless the discovery is marked incomplete. -/
theorem turnPage_spec {server : Server} {discovery : HistoryDiscovery} {page : List (Str × Int)}
    (newest : Newest server ⟨discovery.upperMs, discovery.limit⟩ page) (some_ : 1 ≤ discovery.limit)
    (ends : Bool) (holds : ends = true → (server.below discovery.upperMs).length ≤ discovery.limit)
    (running : discovery.finished = false) (now : Nat) :
    let turned := turnPage discovery page ends now
    (turned.finished = false → turned.upperMs < discovery.upperMs) ∧
      turned.upperMs ≤ discovery.upperMs ∧
      (turned.upperMs = discovery.upperMs ∨ 1 ≤ turned.upperMs ∧ turned.upperMs < discovery.upperMs) ∧
      (turned.finished = true → ∀ x ∈ server.below discovery.upperMs, x ∈ page) ∧
      (turned.incomplete = true ∨
        ∀ x ∈ server.below discovery.upperMs, turned.upperMs ≤ x.2 → x ∈ page) ∧
      (discovery.incomplete = true → turned.incomplete = true) := by
  intro turned
  cases oldestIs : oldestOf page with
  | none =>
      have empty : page = [] := by
        simpa [oldestOf] using oldestIs
      have nothing : server.below discovery.upperMs = [] := by
        have size := newest.sized
        rw [empty, List.length_nil] at size
        apply List.length_eq_zero_iff.mp
        simp only at size
        omega
      have turns : turned = { discovery with
          pending := none, attempts := 0, retryAt := now, finished := true } := by
        simp only [turned, turnPage, oldestIs]
      rw [turns, nothing]
      simp
  | some oldest =>
      have least := List.min?_eq_some_iff.mp oldestIs
      rcases List.mem_map.mp least.1 with ⟨first, shown, same⟩
      have bounds := (mem_below server _ first).mp (newest.listed first shown)
      have under : oldest < discovery.upperMs := by
        rw [← same]
        exact bounds.2.2
      have positive : 0 < oldest := by
        rw [← same]
        exact bounds.2.1
      have turns : turned = { discovery with
          pending := none
          attempts := 0
          retryAt := now
          finished := ends
          incomplete := discovery.incomplete || (!ends && decide (oldest + 1 = discovery.upperMs) &&
            decide (discovery.limit ≤ page.length))
          upperMs := if oldest + 1 < discovery.upperMs then oldest + 1 else oldest } := by
        simp only [turned, turnPage, oldestIs, running, Bool.false_or]
      have lowered : turned.upperMs < discovery.upperMs ∧ 1 ≤ turned.upperMs := by
        rw [turns]
        simp only
        split <;> omega
      have whole (short : ends = true ∨ page.length < discovery.limit) :
          ∀ x ∈ server.below discovery.upperMs, x ∈ page := by
        apply newest.all
        have size := newest.sized
        simp only at size ⊢
        rcases short with tagged | few
        · have := holds tagged
          omega
        · omega
      refine ⟨fun _ => lowered.1, lowered.1.le, .inr ⟨lowered.2, lowered.1⟩, ?_, ?_, ?_⟩
      · intro finished
        rw [turns] at finished
        exact whole (.inl finished)
      · by_cases flagged : turned.incomplete = true
        · exact .inl flagged
        · right
          intro x below later
          rw [turns] at flagged later
          simp only [Bool.or_eq_true, Bool.and_eq_true, Bool.not_eq_true', decide_eq_true_eq,
            not_or, not_and] at flagged later
          by_cases tie : oldest + 1 = discovery.upperMs
          · apply whole _ x below
            by_cases tagged : ends = true
            · exact .inl tagged
            · exact .inr (by
                have := flagged.2 ⟨by simpa using tagged, tie⟩
                omega)
          · rw [if_pos (by omega)] at later
            by_contra hidden
            have older := newest.newest first shown x below hidden
            omega
      · intro marked
        rw [turns]
        simp [marked]

/-! ### What the operations do to one connection -/

section Steps

variable {connId} {app : App}

@[simp] theorem get?_setDiscovery (conn : Str) (discovery : HistoryDiscovery) :
    (app.setDiscovery conn discovery).historyDiscovery.get? connId =
      if conn = connId then some discovery else app.historyDiscovery.get? connId :=
  Map.get?_insert _ _ _ _

@[simp] theorem requests_setDiscovery (conn : Str) (discovery : HistoryDiscovery) :
    requests (app.setDiscovery conn discovery) connId = requests app connId := rfl

/-- Notices change what is shown and nothing else. -/
theorem notice_spec (app : App) (conn text : Str) :
    (app.notice P conn text).historyDiscovery = app.historyDiscovery ∧
      (app.notice P conn text).connections = app.connections ∧
      (app.notice P conn text).sent = app.sent := by
  simp only [App.notice]
  split <;> simp

/-- One try at sending: nothing, the end after three tries, or another try. -/
inductive SendStep (discovery : HistoryDiscovery) : HistoryDiscovery → List TargetsRequest → Prop
  | idle : SendStep discovery discovery []
  | gaveUp (waiting : discovery.pending = none) (running : discovery.finished = false)
      (tried : 3 ≤ discovery.attempts) : SendStep discovery { discovery with finished := true } []
  | tried (pending : Option Nat) (retryAt : Nat) (more : List TargetsRequest)
      (waiting : discovery.pending = none) (running : discovery.finished = false)
      (tries : discovery.attempts < 3)
      (one : more = [] ∨ more = [⟨discovery.upperMs, discovery.limit⟩]) :
      SendStep discovery
        { discovery with attempts := discovery.attempts + 1, retryAt := retryAt, pending := pending }
        more

theorem send_spec {discovery : HistoryDiscovery} (now : Nat)
    (held : app.historyDiscovery.get? connId = some discovery) :
    ∃ discovery' more, SendStep discovery discovery' more ∧
      (app.sendHistoryTargets P connId now).historyDiscovery.get? connId = some discovery' ∧
      (app.sendHistoryTargets P connId now).connections = app.connections ∧
      requests (app.sendHistoryTargets P connId now) connId = requests app connId ++ more := by
  simp only [App.sendHistoryTargets, held]
  split
  · exact ⟨discovery, [], .idle, held, rfl, by simp⟩
  · rename_i goes
    simp only [Bool.or_eq_true, decide_eq_true_eq, not_or, Bool.not_eq_true,
      Option.isSome_eq_false_iff, Option.isNone_iff_eq_none] at goes
    split
    · rename_i tried
      rcases notice_spec P (app.setDiscovery connId { discovery with finished := true })
        connId gaveUpNotice with ⟨discoveries, connections, sent⟩
      refine ⟨_, [], .gaveUp goes.1.2 goes.1.1 tried, ?_, connections, ?_⟩
      · rw [discoveries]
        simp
      · rw [requests, sent, List.append_nil]
        rfl
    · rename_i tries
      split
      · refine ⟨_, [⟨discovery.upperMs, discovery.limit⟩],
          .tried (some now) (now + 5000) _ goes.1.2 goes.1.1 (by omega) (.inr rfl), ?_, rfl, ?_⟩
        · exact (get?_setDiscovery connId _).trans (if_pos rfl)
        · simp [requests, App.setDiscovery]
      · refine ⟨_, [], .tried none (now + 5000) _ goes.1.2 goes.1.1 (by omega) (.inl rfl), ?_, rfl, ?_⟩
        · exact (get?_setDiscovery connId _).trans (if_pos rfl)
        · simp

/-- What happens on other connections leaves this one alone. -/
structure Elsewhere (connId : Str) (app app' : App) : Prop where
  connection : app'.connections.get? connId = app.connections.get? connId
  discovery : app'.historyDiscovery.get? connId = app.historyDiscovery.get? connId
  asked : requests app' connId = requests app connId

theorem Elsewhere.refl (app : App) : Elsewhere connId app app := ⟨rfl, rfl, rfl⟩

theorem Elsewhere.trans {app app' app'' : App} (first : Elsewhere connId app app')
    (second : Elsewhere connId app' app'') : Elsewhere connId app app'' :=
  ⟨second.connection.trans first.connection, second.discovery.trans first.discovery,
    second.asked.trans first.asked⟩

variable {conn : Str}

theorem elsewhere_set (other : conn ≠ connId) (discovery : HistoryDiscovery) :
    Elsewhere connId app (app.setDiscovery conn discovery) :=
  ⟨rfl, by simp [other], rfl⟩

theorem elsewhere_notice (app : App) (conn text : Str) :
    Elsewhere connId app (app.notice P conn text) := by
  rcases notice_spec P app conn text with ⟨discoveries, connections, sent⟩
  exact ⟨by rw [connections], by rw [discoveries], by rw [requests, requests, sent]⟩

theorem elsewhere_send (other : conn ≠ connId) (app : App) (now : Nat) :
    Elsewhere connId app (app.sendHistoryTargets P conn now) := by
  simp only [App.sendHistoryTargets]
  split
  · exact .refl app
  · split
    · exact .refl app
    · split
      · exact (elsewhere_set other _).trans (elsewhere_notice P _ _ _)
      · split
        · have set (discovery : HistoryDiscovery) :
            Elsewhere connId app (app.setDiscovery conn discovery) := elsewhere_set other discovery
          refine ⟨rfl, (set _).discovery, ?_⟩
          simp [requests, App.setDiscovery, other]
        · exact elsewhere_set other _

theorem elsewhere_tick (other : conn ≠ connId) (app : App) (now : Nat) :
    Elsewhere connId app (app.tickHistoryDiscovery P conn now) := by
  simp only [App.tickHistoryDiscovery]
  split
  · exact ⟨rfl, by simp [Map.get?_erase, other], rfl⟩
  · split
    · exact .refl app
    · split
      · exact .refl app
      · exact (elsewhere_set other _).trans (elsewhere_send P other _ now)

theorem elsewhere_ensure (other : conn ≠ connId) (app : App) (utc : Int) (now : Nat) :
    Elsewhere connId app (app.ensureHistoryDiscovery conn utc now).1 := by
  simp only [App.ensureHistoryDiscovery]
  split
  · exact .refl app
  · split
    · exact .refl app
    · split
      · exact .refl app
      · exact elsewhere_set other _

theorem elsewhere_start (other : conn ≠ connId) (app : App) (utc : Int) (now : Nat) :
    Elsewhere connId app (app.startHistoryDiscovery P conn utc now) := by
  have ensured : Elsewhere connId app (app.ensureHistoryDiscovery conn utc now).1 :=
    elsewhere_ensure other app utc now
  simp only [App.startHistoryDiscovery]
  split
  · exact ensured
  · split
    · split
      · exact ensured
      · exact ensured.trans ((elsewhere_set other _).trans (elsewhere_send P other _ now))
    · exact ensured

theorem elsewhere_openTarget (other : conn ≠ connId) (app : App) (c : Connection) (target : Str)
    (discovery : HistoryDiscovery) :
    Elsewhere connId app (app.openTarget P conn c target discovery) := by
  simp only [App.openTarget]
  split
  · exact elsewhere_set other _
  · split
    · exact elsewhere_set other _
    · have set (discovery : HistoryDiscovery) :
          Elsewhere connId app (app.setDiscovery conn discovery) := elsewhere_set other discovery
      exact ⟨rfl, (set _).discovery, rfl⟩

theorem elsewhere_report (other : conn ≠ connId) (targets : List Str) (app : App) :
    Elsewhere connId app (app.reportTargets P conn targets).1 := by
  induction targets generalizing app with
  | nil => exact .refl app
  | cons target rest ih =>
      simp only [App.reportTargets]
      split
      · exact .refl app
      · split
        · exact ih app
        · split
          · exact elsewhere_set other _
          · exact (elsewhere_openTarget P other app _ target _).trans (ih _)

theorem elsewhere_receive (other : conn ≠ connId) (app : App) (batch : BatchInfo) (now : Nat) :
    Elsewhere connId app (app.receiveHistoryTargets P conn batch now) := by
  simp only [App.receiveHistoryTargets]
  split
  · exact .refl app
  · split
    · exact .refl app
    · split
      · exact .refl app
      · rename_i discovery held fresh _ page decoded
        have set : Elsewhere connId app
            (app.setDiscovery conn (turnPage discovery page (ended batch) now)) :=
          elsewhere_set other _
        have reported := elsewhere_report P other (page.map Prod.fst)
          (app.setDiscovery conn (turnPage discovery page (ended batch) now))
        split
        · rename_i app' gone
          rw [gone] at reported
          exact set.trans reported
        · rename_i app' gone
          rw [gone] at reported
          refine (set.trans reported).trans ?_
          split
          · exact (elsewhere_notice P _ _ _).trans (elsewhere_tick P other _ now)
          · exact elsewhere_tick P other _ now

end Steps

/-! ### The invariant -/

/-- What holds of a discovery and the requests it sent, against a server and the bound it began with. -/
structure Sound (server : Server) (limit : Nat) (interval : Int) (accepted : Nat)
    (discovery : HistoryDiscovery) (asked : List TargetsRequest) : Prop where
  limited : discovery.limit = limit
  bounded : discovery.upperMs ≤ interval
  positive : discovery.upperMs = interval ∨ 1 ≤ discovery.upperMs
  counted : (accepted : Int) + discovery.upperMs ≤ interval + if discovery.finished then 1 else 0
  tries : discovery.attempts ≤ 3
  sparing : asked.length ≤ 3 * accepted + discovery.attempts
  higher : ∀ r ∈ asked, discovery.upperMs ≤ r.upperMs ∧ r.limit = limit
  covered : discovery.incomplete = true ∨ ∀ x ∈ server.below interval,
    discovery.upperMs ≤ x.2 → asciiLower x.1 ∈ discovery.seen
  quiet : discovery.finished = true → discovery.pending = none
  done_ : discovery.finished = true → discovery.attempts = 3 ∨ discovery.incomplete = true ∨
    ∀ x ∈ server.below interval, asciiLower x.1 ∈ discovery.seen

variable {P} {server : Server} {limit accepted : Nat} {interval : Int}
  {discovery : HistoryDiscovery} {asked : List TargetsRequest}

theorem Sound.send {discovery' : HistoryDiscovery} {more : List TargetsRequest}
    (sound : Sound server limit interval accepted discovery asked)
    (sends : SendStep discovery discovery' more) :
    Sound server limit interval accepted discovery' (asked ++ more) := by
  cases sends with
  | idle => simpa using sound
  | gaveUp waiting running tried =>
      have counted := sound.counted
      have tries := sound.tries
      rw [running] at counted
      rw [List.append_nil]
      refine ⟨sound.limited, sound.bounded, sound.positive, ?_, tries, sound.sparing, sound.higher,
        sound.covered, fun _ => waiting, fun _ => .inl ?_⟩
      · simp only [Bool.false_eq_true, if_false, if_true] at counted ⊢
        omega
      · simp only
        omega
  | tried pending retryAt more waiting running tries one =>
      refine ⟨sound.limited, sound.bounded, sound.positive, sound.counted, ?_, ?_, ?_, sound.covered,
        ?_, ?_⟩
      · simp only
        omega
      · have sparing := sound.sparing
        simp only [List.length_append]
        rcases one with none_ | single
        · rw [none_, List.length_nil]
          omega
        · rw [single, List.length_singleton]
          omega
      · intro r member
        rcases List.mem_append.mp member with old | new
        · exact sound.higher r old
        · rcases one with none_ | single
          · simp [none_] at new
          · rw [single, List.mem_singleton] at new
            rw [new]
            exact ⟨le_rfl, sound.limited⟩
      · intro finished
        rw [running] at finished
        exact absurd finished (by simp)
      · intro finished
        rw [running] at finished
        exact absurd finished (by simp)

/-- The queue, the start and the waiting are not what the invariant is about. -/
theorem Sound.same {discovery' : HistoryDiscovery}
    (sound : Sound server limit interval accepted discovery asked)
    (limits : discovery'.limit = discovery.limit) (uppers : discovery'.upperMs = discovery.upperMs)
    (finishes : discovery'.finished = discovery.finished)
    (incompletes : discovery'.incomplete = discovery.incomplete)
    (attempts : discovery'.attempts = discovery.attempts) (sees : discovery'.seen = discovery.seen)
    (waits : discovery'.pending = none ∨ discovery'.pending = discovery.pending) :
    Sound server limit interval accepted discovery' asked := by
  constructor
  · rw [limits, sound.limited]
  · rw [uppers]
    exact sound.bounded
  · rw [uppers]
    exact sound.positive
  · rw [uppers, finishes]
    exact sound.counted
  · rw [attempts]
    exact sound.tries
  · rw [attempts]
    exact sound.sparing
  · rw [uppers]
    exact sound.higher
  · rw [incompletes, uppers, sees]
    exact sound.covered
  · intro finished
    rcases waits with none_ | same
    · exact none_
    · rw [same]
      exact sound.quiet (finishes ▸ finished)
  · rw [attempts, incompletes, sees, finishes]
    exact sound.done_

/-- A page that answers one of the requests, once turned and reported. -/
theorem Sound.turn (sound : Sound server limit interval accepted discovery asked) (some_ : 1 ≤ limit)
    (waiting : discovery.pending ≠ none) {request : TargetsRequest} (sent : request ∈ asked)
    {page : List (Str × Int)} (newest : Newest server request page) (ends : Bool)
    (holds : ends = true → (server.below request.upperMs).length ≤ request.limit)
    (under : ∀ x ∈ page, x.2 < discovery.upperMs) (now : Nat) (seen queue : List Str)
    (grows : ∀ name ∈ discovery.seen, name ∈ seen) (reported : ∀ x ∈ page, asciiLower x.1 ∈ seen) :
    Sound server limit interval (accepted + 1)
        { turnPage discovery page ends now with seen := seen, queue := queue } asked ∧
      ((turnPage discovery page ends now).finished = false →
        (turnPage discovery page ends now).upperMs < discovery.upperMs) := by
  have running : discovery.finished = false := by
    by_contra finished
    exact waiting (sound.quiet (by simpa using finished))
  rcases sound.higher request sent with ⟨le, limits⟩
  have same := newest.lower (by omega) discovery.upperMs le under
  have current : Newest server ⟨discovery.upperMs, discovery.limit⟩ page := by
    constructor
    · simp only [same]
      exact newest.listed
    · exact newest.nodup
    · simp only [same, sound.limited, ← limits]
      exact newest.sized
    · simp only [same]
      exact newest.newest
  rcases turnPage_spec current (by rw [sound.limited]; exact some_) ends (by
      rw [same, sound.limited, ← limits]
      exact holds) running now with ⟨falls, lowers, moves, last, covers, marks⟩
  have bounded := sound.bounded
  have positive := sound.positive
  have counted := sound.counted
  rw [running] at counted
  simp only [Bool.false_eq_true, if_false] at counted
  have kept : (turnPage discovery page ends now).limit = discovery.limit ∧
      (turnPage discovery page ends now).attempts = 0 ∧
      (turnPage discovery page ends now).pending = none := by
    simp only [turnPage]
    split <;> exact ⟨rfl, rfl, rfl⟩
  -- Above the old bound the older pages are to be asked, between the bounds this one.
  have above (x : Str × Int) (inside : x ∈ server.below interval) (older : ¬discovery.upperMs ≤ x.2) :
      x ∈ server.below discovery.upperMs := by
    rw [mem_below] at inside ⊢
    exact ⟨inside.1, inside.2.1, by omega⟩
  refine ⟨⟨?_, ?_, ?_, ?_, ?_, ?_, ?_, ?_, fun _ => kept.2.2, ?_⟩, falls⟩
  · exact kept.1.trans sound.limited
  · exact lowers.trans bounded
  · rcases moves with stays | ⟨one, -⟩
    · simp only [stays]
      exact positive
    · exact .inr one
  · simp only [Nat.cast_add, Nat.cast_one]
    split
    · omega
    · rename_i unfinished
      have := falls (by simpa using unfinished)
      omega
  · simp only [kept.2.1]
    omega
  · have sparing := sound.sparing
    have tries := sound.tries
    simp only [kept.2.1]
    omega
  · intro r member
    exact ⟨lowers.trans (sound.higher r member).1, (sound.higher r member).2⟩
  · rcases sound.covered with marked | all
    · exact .inl (marks marked)
    · rcases covers with marked | here
      · exact .inl marked
      · right
        intro x inside later
        by_cases older : discovery.upperMs ≤ x.2
        · exact grows _ (all x inside older)
        · exact reported x (here x (above x inside older) later)
  · intro finished
    right
    rcases sound.covered with marked | all
    · exact .inl (marks marked)
    · right
      intro x inside
      by_cases older : discovery.upperMs ≤ x.2
      · exact grows _ (all x inside older)
      · exact reported x (last finished x (above x inside older))

section Own

variable (P) {connId : Str} {app : App} {conn : Connection}

theorem openTarget_spec (app : App) (connId : Str) (conn : Connection) (target : Str)
    (discovery : HistoryDiscovery) :
    ∃ queue, (app.openTarget P connId conn target discovery).historyDiscovery.get? connId =
        some { discovery with queue := queue } ∧
      (app.openTarget P connId conn target discovery).connections = app.connections ∧
      requests (app.openTarget P connId conn target discovery) connId = requests app connId := by
  simp only [App.openTarget]
  split
  · exact ⟨discovery.queue, by simp, rfl, rfl⟩
  · refine ⟨discovery.queue ++ [target], by simp, ?_, ?_⟩ <;> split <;> rfl

theorem reportTargets_spec (targets : List Str) (app : App) (discovery : HistoryDiscovery)
    (present : app.connections.get? connId = some conn)
    (held : app.historyDiscovery.get? connId = some discovery) :
    ∃ app' seen queue, app.reportTargets P connId targets = (app', true) ∧
      app'.historyDiscovery.get? connId = some { discovery with seen := seen, queue := queue } ∧
      app'.connections = app.connections ∧ requests app' connId = requests app connId ∧
      (∀ name ∈ discovery.seen, name ∈ seen) ∧ ∀ target ∈ targets, asciiLower target ∈ seen := by
  induction targets generalizing app discovery with
  | nil =>
      exact ⟨app, discovery.seen, discovery.queue, rfl, held, rfl, rfl, fun _ member => member, by simp⟩
  | cons target rest ih =>
      simp only [App.reportTargets, held, present]
      split
      · rename_i known
        rcases ih app discovery present held with ⟨app', seen, queue, same, held', connections, asked,
          grows, reported⟩
        refine ⟨app', seen, queue, same, held', connections, asked, grows, ?_⟩
        intro t member
        rcases List.mem_cons.mp member with rfl | later
        · exact grows _ known
        · exact reported t later
      · rcases openTarget_spec P app connId conn target
          { discovery with seen := discovery.seen ++ [asciiLower target] } with
          ⟨queue, held', connections, asked⟩
        rcases ih _ _ (by rw [connections]; exact present) held' with ⟨app', seen, queue', same, held'',
          connections', asked', grows, reported⟩
        refine ⟨app', seen, queue', same, held'', connections'.trans connections, asked'.trans asked,
          fun name member => grows name (List.mem_append_left _ member), ?_⟩
        intro t member
        rcases List.mem_cons.mp member with rfl | later
        · exact grows _ (List.mem_append_right _ (List.mem_singleton_self _))
        · exact reported t later

/-- The invariant of the client on one connection. -/
structure Kept (server : Server) (connId : Str) (interval : Int) (accepted : Nat) (app : App) : Prop where
  absent : app.connections.get? connId = none → app.historyDiscovery.get? connId = none
  fresh : app.historyDiscovery.get? connId = none → requests app connId = [] ∧ accepted = 0
  sound : ∀ conn discovery, app.connections.get? connId = some conn →
    app.historyDiscovery.get? connId = some discovery →
    Sound server (clampLimit 1000 conn.chathistoryMax) interval accepted discovery
      (requests app connId)

variable {P} {server : Server} {interval : Int} {accepted : Nat}

theorem Kept.elsewhere {app' : App} (kept : Kept server connId interval accepted app)
    (elsewhere : Elsewhere connId app app') : Kept server connId interval accepted app' := by
  constructor
  · rw [elsewhere.connection, elsewhere.discovery]
    exact kept.absent
  · rw [elsewhere.discovery, elsewhere.asked]
    exact kept.fresh
  · rw [elsewhere.connection, elsewhere.discovery, elsewhere.asked]
    exact kept.sound

/-- A discovery in place that is sound is all there is to check. -/
theorem Kept.of_sound {discovery : HistoryDiscovery}
    (present : app.connections.get? connId = some conn)
    (held : app.historyDiscovery.get? connId = some discovery)
    (sound : Sound server (clampLimit 1000 conn.chathistoryMax) interval accepted discovery
      (requests app connId)) : Kept server connId interval accepted app := by
  constructor
  · intro absent
    rw [present] at absent
    exact absurd absent (by simp)
  · intro fresh
    rw [held] at fresh
    exact absurd fresh (by simp)
  · intro conn' discovery' present' held'
    rw [present, Option.some.injEq] at present'
    rw [held, Option.some.injEq] at held'
    rw [← present', ← held']
    exact sound

theorem Kept.set {discovery : HistoryDiscovery}
    (present : app.connections.get? connId = some conn)
    (sound : Sound server (clampLimit 1000 conn.chathistoryMax) interval accepted discovery
      (requests app connId)) :
    Kept server connId interval accepted (app.setDiscovery connId discovery) := by
  have held : (app.setDiscovery connId discovery).historyDiscovery.get? connId = some discovery := by
    simp
  exact Kept.of_sound present held sound

theorem clampLimit_pos (want : Nat) (serverMax : Option Nat) : 1 ≤ clampLimit want serverMax :=
  Nat.le_max_right _ _

variable (P) in
theorem Kept.send (kept : Kept server connId interval accepted app) (now : Nat) :
    Kept server connId interval accepted (app.sendHistoryTargets P connId now) := by
  cases held : app.historyDiscovery.get? connId with
  | none =>
      have same : app.sendHistoryTargets P connId now = app := by
        simp only [App.sendHistoryTargets, held]
      rw [same]
      exact kept
  | some discovery =>
      cases present : app.connections.get? connId with
      | none =>
          rw [kept.absent present] at held
          exact absurd held (by simp)
      | some conn =>
          rcases send_spec P now held with ⟨discovery', more, sends, held', connections, asked⟩
          apply Kept.of_sound (by rw [connections]; exact present) held'
          rw [asked]
          exact (kept.sound conn discovery present held).send sends

variable (P) in
theorem Kept.tick (kept : Kept server connId interval accepted app) (now : Nat) :
    Kept server connId interval accepted (app.tickHistoryDiscovery P connId now) := by
  simp only [App.tickHistoryDiscovery]
  split
  · rename_i absent
    have nothing := kept.absent absent
    constructor
    · intro _
      simp [Map.get?_erase]
    · intro _
      exact kept.fresh nothing
    · intro conn discovery present
      rw [absent] at present
      exact absurd present (by simp)
  · rename_i _ conn present
    split
    · exact kept
    · split
      · exact kept
      · rename_i _ discovery held
        apply Kept.send P
        apply Kept.set present
        apply (kept.sound conn discovery present held).same <;> try rfl
        simp only
        cases discovery.pending with
        | none => exact .inl rfl
        | some started =>
            simp only [Option.filter_some]
            split
            · exact .inr rfl
            · exact .inl rfl

end Own

/-! ### Runs -/

section Own

variable {connId : Str} {app : App} {server : Server} {interval : Int} {accepted : Nat}

theorem sound_new (limit : Nat) (upperMs : Int) (now : Nat) :
    Sound server limit upperMs 0
      { pending := none
        discoveryStarted := false
        upperMs := upperMs
        limit := limit
        queue := []
        seen := []
        finished := false
        incomplete := false
        attempts := 0
        retryAt := now } [] := by
  constructor <;> try simp
  intro name time inside
  exact ((mem_below server upperMs (name, time)).mp inside).2.2

/-- A discovery that begins sets the bound its invariant speaks of. -/
theorem Kept.ensure (kept : Kept server connId interval accepted app) (utc : Int) (now : Nat) :
    let app' := (app.ensureHistoryDiscovery connId utc now).1
    Kept server connId
      (match app.historyDiscovery.get? connId, app'.historyDiscovery.get? connId with
        | none, some discovery => discovery.upperMs
        | _, _ => interval) accepted app' := by
  intro app'
  have same (unchanged : app' = app) : Kept server connId
      (match app.historyDiscovery.get? connId, app'.historyDiscovery.get? connId with
        | none, some discovery => discovery.upperMs
        | _, _ => interval) accepted app' := by
    rw [unchanged]
    cases held : app.historyDiscovery.get? connId <;> exact kept
  cases present : app.connections.get? connId with
  | none => exact same (by simp only [app', App.ensureHistoryDiscovery, present])
  | some conn =>
      by_cases owned : (!conn.serverOwnsHistory || conn.bouncerControl || !conn.chathistory) = true
      · exact same (by simp only [app', App.ensureHistoryDiscovery, present, owned, if_true])
      · cases held : app.historyDiscovery.get? connId with
        | some discovery =>
            have unchanged : app' = app := by
              simp only [app', App.ensureHistoryDiscovery, present, owned, Bool.false_eq_true, if_false,
                held]
            have result := same unchanged
            rwa [held] at result
        | none =>
            rcases kept.fresh held with ⟨nothing, zero⟩
            simp only [app', App.ensureHistoryDiscovery, present, owned, Bool.false_eq_true, if_false,
              held, get?_setDiscovery, if_true]
            apply Kept.set present
            rw [nothing, zero]
            exact sound_new _ _ now

theorem decodeTarget_spells {message : Message} {x y : Str × Int} {upperMs : Int}
    (spells : Spells P message x) (decoded : decodeTarget P upperMs message = some y) :
    y = x ∧ y.2 < upperMs := by
  rcases spells with ⟨command, sub, text, shape, first, second, time⟩
  simp only [decodeTarget, shape, first, second, time] at decoded
  split at decoded
  · exact absurd decoded (by simp)
  · split at decoded
    · exact absurd decoded (by simp)
    · rename_i inside
      rw [Option.some.injEq] at decoded
      rw [← decoded]
      exact ⟨rfl, by
        simp only
        omega⟩

/-- What a faithful page is decoded to is the page. -/
theorem decode_spells {messages : List Message} {page decodedPage : List (Str × Int)} {upperMs : Int}
    (spells : List.Forall₂ (Spells P) messages page)
    (decoded : messages.mapM (decodeTarget P upperMs) = some decodedPage) :
    decodedPage = page ∧ ∀ x ∈ decodedPage, x.2 < upperMs := by
  induction spells generalizing decodedPage with
  | nil =>
      simp only [List.mapM_nil, Option.pure_def, Option.some.injEq] at decoded
      rw [← decoded]
      exact ⟨rfl, by simp⟩
  | cons head tail ih =>
      simp only [List.mapM_cons, Option.bind_eq_bind, Option.bind_eq_some_iff, Option.pure_def,
        Option.some.injEq] at decoded
      rcases decoded with ⟨y, first, rest, later, rfl⟩
      rcases decodeTarget_spells head first with ⟨rfl, under⟩
      rcases ih later with ⟨rfl, unders⟩
      exact ⟨rfl, by simpa using ⟨under, fun name time member => unders (name, time) member⟩⟩

/-- A page of times below the bound is decoded. -/
theorem decode_of_spells {messages : List Message} {page : List (Str × Int)} {upperMs : Int}
    (spells : List.Forall₂ (Spells P) messages page) (named : ∀ x ∈ page, WireName x.1)
    (inside : ∀ x ∈ page, 0 < x.2 ∧ x.2 < upperMs) :
    messages.mapM (decodeTarget P upperMs) = some page := by
  induction spells with
  | nil => rfl
  | @cons message x messages page head tail ih =>
      rcases head with ⟨command, sub, text, shape, first, second, time⟩
      rcases named x List.mem_cons_self with ⟨some_, colon, plain⟩
      have bounds := inside x List.mem_cons_self
      have clean : (x.1.any fun c => isWhitespace c || isControl c) = false := by
        rw [List.any_eq_false]
        intro c member
        simp [plain c member]
      have later := ih (fun y member => named y (List.mem_cons_of_mem x member))
        fun y member => inside y (List.mem_cons_of_mem x member)
      have decoded : decodeTarget P upperMs message = some x := by
        have open_ : ¬(x.2 ≤ 0 ∨ upperMs ≤ x.2) := by omega
        have full : x.1.isEmpty = false := by simpa using some_
        simp only [decodeTarget, shape, first, second, time, full, colon, clean, open_, Bool.not_true,
          Bool.or_false, Bool.false_eq_true, decide_false, if_false]
      simp [List.mapM_cons, decoded, later]

/-- A page that is not accepted changes nothing. -/
theorem receive_rejected (batch : BatchInfo) (now : Nat)
    (rejected : acceptedPage P app connId batch = none) :
    app.receiveHistoryTargets P connId batch now = app := by
  simp only [acceptedPage, App.receiveHistoryTargets] at *
  cases held : app.historyDiscovery.get? connId with
  | none => rfl
  | some discovery =>
      simp only [held, Option.bind_some] at rejected ⊢
      split
      · rfl
      · rename_i waiting
        rw [if_neg waiting] at rejected
        rw [rejected]

/-- What accepting a page leaves, before the ticker runs. -/
theorem receive_accepted {discovery : HistoryDiscovery} {conn : Connection} {page : List (Str × Int)}
    (batch : BatchInfo) (now : Nat) (present : app.connections.get? connId = some conn)
    (held : app.historyDiscovery.get? connId = some discovery)
    (accepts : acceptedPage P app connId batch = some page) :
    discovery.pending ≠ none ∧ decodeTargets P batch discovery.upperMs = some page ∧
      ∃ app' seen queue, app.receiveHistoryTargets P connId batch now =
          app'.tickHistoryDiscovery P connId now ∧
        app'.historyDiscovery.get? connId =
          some { turnPage discovery page (ended batch) now with seen := seen, queue := queue } ∧
        app'.connections = app.connections ∧ requests app' connId = requests app connId ∧
        (∀ name ∈ discovery.seen, name ∈ seen) ∧ ∀ x ∈ page, asciiLower x.1 ∈ seen := by
  simp only [acceptedPage, held, Option.bind_some] at accepts
  split at accepts
  · exact absurd accepts (by simp)
  · rename_i waiting
    have pending : discovery.pending ≠ none := by
      intro none_
      simp [none_] at waiting
    have kept : (turnPage discovery page (ended batch) now).seen = discovery.seen := by
      simp only [turnPage]
      split <;> rfl
    rcases reportTargets_spec P (page.map Prod.fst)
      (app.setDiscovery connId (turnPage discovery page (ended batch) now))
      (turnPage discovery page (ended batch) now) present (by simp) with
      ⟨app', seen, queue, reports, held', connections, asked, grows, reported⟩
    have result : app.receiveHistoryTargets P connId batch now =
        (if (turnPage discovery page (ended batch) now).incomplete && !discovery.incomplete then
          app'.notice P connId incompleteNotice else app').tickHistoryDiscovery P connId now := by
      simp only [App.receiveHistoryTargets, held]
      rw [if_neg waiting, accepts]
      simp only [reports]
    refine ⟨pending, accepts, _, seen, queue, result, ?_, ?_, ?_, ?_, ?_⟩
    · split
      · rw [(notice_spec P _ connId incompleteNotice).1]
        exact held'
      · exact held'
    · split
      · rw [(notice_spec P _ connId incompleteNotice).2.1]
        exact connections
      · exact connections
    · split
      · rw [requests, (notice_spec P _ connId incompleteNotice).2.2]
        exact asked
      · exact asked
    · rw [kept] at grows
      exact grows
    · intro x member
      exact reported x.1 (List.mem_map_of_mem member)

end Own

section Own

variable {connId : Str} {app : App} {server : Server} {interval : Int} {accepted : Nat}

/-- The bound a discovery began with, once it has begun. -/
def nextInterval (before after : App) (connId : Str) (interval : Int) : Int :=
  match before.historyDiscovery.get? connId, after.historyDiscovery.get? connId with
  | none, some discovery => discovery.upperMs
  | _, _ => interval

theorem nextInterval_congr (before : App) {after after' : App}
    (same : (after'.historyDiscovery.get? connId).map HistoryDiscovery.upperMs =
      (after.historyDiscovery.get? connId).map HistoryDiscovery.upperMs) (interval : Int) :
    nextInterval before after' connId interval = nextInterval before after connId interval := by
  simp only [nextInterval]
  cases before.historyDiscovery.get? connId with
  | some _ => rfl
  | none =>
      cases left : after.historyDiscovery.get? connId <;>
        cases right : after'.historyDiscovery.get? connId <;> simp_all

theorem send_upper (app : App) (now : Nat) :
    ((app.sendHistoryTargets P connId now).historyDiscovery.get? connId).map
        HistoryDiscovery.upperMs =
      (app.historyDiscovery.get? connId).map HistoryDiscovery.upperMs := by
  cases held : app.historyDiscovery.get? connId with
  | none => simp only [App.sendHistoryTargets, held]
  | some discovery =>
      rcases send_spec P now held with ⟨discovery', more, sends, held', -, -⟩
      rw [held']
      cases sends <;> rfl

theorem Kept.start (kept : Kept server connId interval accepted app) (utc : Int) (now : Nat) :
    let app' := app.startHistoryDiscovery P connId utc now
    Kept server connId (nextInterval app app' connId interval) accepted app' := by
  intro app'
  have ensured := kept.ensure utc now
  change Kept server connId
    (nextInterval app (app.ensureHistoryDiscovery connId utc now).1 connId interval) accepted
    (app.ensureHistoryDiscovery connId utc now).1 at ensured
  simp only [app', App.startHistoryDiscovery]
  split
  · exact ensured
  · split
    · rename_i _ discovery conn held present
      split
      · exact ensured
      · have uppers : ((((app.ensureHistoryDiscovery connId utc now).1.setDiscovery connId
              { discovery with
                discoveryStarted := true
                limit := clampLimit 1000 conn.chathistoryMax }).sendHistoryTargets P connId
                  now).historyDiscovery.get? connId).map HistoryDiscovery.upperMs =
            ((app.ensureHistoryDiscovery connId utc now).1.historyDiscovery.get? connId).map
              HistoryDiscovery.upperMs := by
          rw [send_upper, held, get?_setDiscovery, if_pos rfl]
          rfl
        rw [nextInterval_congr app uppers]
        apply Kept.send
        apply Kept.set present
        have sound := ensured.sound conn discovery present held
        exact sound.same sound.limited.symm rfl rfl rfl rfl rfl (.inr rfl)
    · exact ensured

/-- A batch that is a page answers a request that was sent; it is accepted as what the server
listed, or not at all. -/
theorem Kept.receive (kept : Kept server connId interval accepted app) (batch : BatchInfo) (now : Nat)
    (answers : ∃ request ∈ requests app connId, Answers P server request batch) :
    Kept server connId interval
      (accepted + if (acceptedPage P app connId batch).isSome then 1 else 0)
      (app.receiveHistoryTargets P connId batch now) := by
  cases accepts : acceptedPage P app connId batch with
  | none =>
      rw [receive_rejected batch now accepts]
      exact kept
  | some page =>
      cases held : app.historyDiscovery.get? connId with
      | none => simp [acceptedPage, held] at accepts
      | some discovery =>
          cases present : app.connections.get? connId with
          | none =>
              rw [kept.absent present] at held
              exact absurd held (by simp)
          | some conn =>
              rcases receive_accepted batch now present held accepts with ⟨waiting, decoded, app', seen,
                queue, result, held', connections, asked, grows, reported⟩
              rcases answers with ⟨request, sent, complete, ⟨listed, spells, newest⟩, ends⟩
              simp only [decodeTargets, complete, ne_eq, not_true_eq_false, if_false] at decoded
              rcases decode_spells spells decoded with ⟨rfl, under⟩
              rw [result]
              apply Kept.tick
              apply Kept.of_sound (by rw [connections]; exact present) held'
              rw [asked]
              exact ((kept.sound conn discovery present held).turn (clampLimit_pos _ _) waiting sent newest
                (ended batch) ends under now seen queue grows reported).1

end Own

section Runs

variable {connId : Str} {servers : Str → Server}

/-- Only the beginning of a discovery changes the bound. -/
theorem nextInterval_absent {before after : App} (interval : Int)
    (absent : before.historyDiscovery.get? connId = none →
      after.historyDiscovery.get? connId = none) :
    nextInterval before after connId interval = interval := by
  simp only [nextInterval]
  cases held : before.historyDiscovery.get? connId with
  | none => rw [absent held]
  | some _ => rfl

theorem tick_absent {app : App} (now : Nat) (absent : app.historyDiscovery.get? connId = none) :
    (app.tickHistoryDiscovery P connId now).historyDiscovery.get? connId = none := by
  simp only [App.tickHistoryDiscovery]
  split
  · simp [Map.get?_erase]
  · split
    · exact absent
    · split
      · exact absent
      · rename_i held
        rw [absent] at held
        exact absurd held (by simp)

theorem receive_absent {app : App} (batch : BatchInfo) (now : Nat)
    (absent : app.historyDiscovery.get? connId = none) :
    app.receiveHistoryTargets P connId batch now = app := by
  simp only [App.receiveHistoryTargets, absent]

theorem Kept.exec_elsewhere {s : Exchange} {op : Op} {server : Server}
    (kept : Kept server connId s.interval s.accepted s.app)
    (elsewhere : Elsewhere connId s.app (step P s.app op))
    (quiet : acceptsHere P connId s.app op = false) :
    Kept server connId (exec P connId s op).interval (exec P connId s op).accepted
      (exec P connId s op).app := by
  have bound : (exec P connId s op).interval = s.interval :=
    nextInterval_absent s.interval fun absent => by rw [elsewhere.discovery, absent]
  have count : (exec P connId s op).accepted = s.accepted := by
    simp [exec, quiet]
  rw [bound, count]
  exact kept.elsewhere elsewhere

/-- An operation on the connection itself that accepts nothing and keeps what is absent absent. -/
theorem Kept.exec_here {s : Exchange} {op : Op} {server : Server}
    (kept : Kept server connId s.interval s.accepted (step P s.app op))
    (absent : s.app.historyDiscovery.get? connId = none →
      (step P s.app op).historyDiscovery.get? connId = none)
    (quiet : acceptsHere P connId s.app op = false) :
    Kept server connId (exec P connId s op).interval (exec P connId s op).accepted
      (exec P connId s op).app := by
  have bound : (exec P connId s op).interval = s.interval := nextInterval_absent s.interval absent
  have count : (exec P connId s op).accepted = s.accepted := by
    simp [exec, quiet]
  rw [bound, count]
  exact kept

theorem Kept.hydrate {app : App} {server : Server} {interval : Int} {accepted : Nat}
    (kept : Kept server connId interval accepted app) (queue : List Str) :
    Kept server connId interval accepted (step P app (.hydrate connId queue)) := by
  simp only [step]
  split
  · rename_i _ discovery held
    cases present : app.connections.get? connId with
    | none =>
        rw [kept.absent present] at held
        exact absurd held (by simp)
    | some conn =>
        apply Kept.set present
        exact (kept.sound conn discovery present held).same rfl rfl rfl rfl rfl rfl (.inr rfl)
  · exact kept

theorem Kept.change {app : App} {server : Server} {interval : Int} {accepted : Nat}
    (kept : Kept server connId interval accepted app) (connected sends : Bool) (closed : List Str) :
    Kept server connId interval accepted (step P app (.change connId connected sends closed)) := by
  have adjusted : (step P app (.change connId connected sends closed)).connections.get? connId =
      (app.connections.get? connId).map fun c =>
        { c with connected := connected, sends := sends, closedTargets := closed } := by
    simp only [step, Map.get?_adjust, if_true]
  constructor
  · rw [adjusted, Option.map_eq_none_iff]
    exact kept.absent
  · exact kept.fresh
  · intro conn discovery present held
    rw [adjusted, Option.map_eq_some_iff] at present
    rcases present with ⟨old, present, rfl⟩
    exact kept.sound old discovery present held

theorem exec_kept (s : Exchange) (op : Op)
    (kept : Kept (servers connId) connId s.interval s.accepted s.app)
    (allowed : Allowed P servers s op) :
    Kept (servers connId) connId (exec P connId s op).interval (exec P connId s op).accepted
      (exec P connId s op).app := by
  cases op with
  | ensure conn utc now =>
      by_cases here : conn = connId
      · subst here
        exact kept.ensure utc now
      · exact kept.exec_elsewhere (elsewhere_ensure here s.app utc now) rfl
  | start conn utc now =>
      by_cases here : conn = connId
      · subst here
        exact kept.start utc now
      · exact kept.exec_elsewhere (elsewhere_start P here s.app utc now) rfl
  | tick conn now =>
      by_cases here : conn = connId
      · subst here
        exact Kept.exec_here (kept.tick P now) (tick_absent now) rfl
      · exact kept.exec_elsewhere (elsewhere_tick P here s.app now) rfl
  | hydrate conn queue =>
      by_cases here : conn = connId
      · subst here
        exact Kept.exec_here (kept.hydrate queue) (fun absent => by simp [step, absent]) rfl
      · apply kept.exec_elsewhere _ rfl
        simp only [step]
        split
        · exact elsewhere_set here _
        · exact .refl s.app
  | batch conn batch cleanEnd now =>
      by_cases page : isTargets batch cleanEnd
      · have dispatches : step P s.app (.batch conn batch cleanEnd now) =
            s.app.receiveHistoryTargets P conn batch now := if_pos page
        by_cases here : conn = connId
        · subst here
          have bound : (exec P conn s (.batch conn batch cleanEnd now)).interval = s.interval := by
            apply nextInterval_absent s.interval
            intro absent
            rw [dispatches, receive_absent batch now absent]
            exact absent
          have received := kept.receive batch now (allowed page)
          rw [bound]
          simpa [exec, acceptsHere, page, dispatches] using received
        · apply kept.exec_elsewhere
          · rw [dispatches]
            exact elsewhere_receive P here s.app batch now
          · simp [acceptsHere, here]
      · have ignored : step P s.app (.batch conn batch cleanEnd now) = s.app := if_neg page
        apply kept.exec_elsewhere
        · rw [ignored]
          exact .refl s.app
        · simp [acceptsHere, page]
  | change conn connected sends closed =>
      by_cases here : conn = connId
      · subst here
        exact Kept.exec_here (kept.change connected sends closed) (fun absent => absent) rfl
      · apply kept.exec_elsewhere _ rfl
        refine ⟨?_, rfl, rfl⟩
        simp only [step, Map.get?_adjust]
        rw [if_neg (fun same => here same.symm)]

def Invariant (server : Server) (connId : Str) (s : Exchange) : Prop :=
  Kept server connId s.interval s.accepted s.app

theorem run_kept (connections : Map Str Connection) (buffers : Map Str Bool) (ops : List Op)
    (allowed : Along (Allowed P servers) (exec P connId) (opened connections buffers) ops) :
    Invariant (servers connId) connId
      (runFrom (exec P connId) (opened connections buffers) ops) := by
  apply allowed.invariant
  · intro s op kept step_
    exact exec_kept s op kept step_
  · refine ⟨fun _ => rfl, fun _ => ⟨rfl, rfl⟩, fun conn discovery _ held => ?_⟩
    have nothing : (opened connections buffers).app.historyDiscovery.get? connId = none := rfl
    rw [nothing] at held
    exact absurd held (by simp)

/-- An unfinished discovery that waits no longer tries again, until it has tried three times. -/
theorem tick_tries {app : App} {conn : Connection} {discovery : HistoryDiscovery} (now : Nat)
    (present : app.connections.get? connId = some conn) (connected : conn.connected = true)
    (held : app.historyDiscovery.get? connId = some discovery)
    (running : discovery.finished = false)
    (waited : discovery.pending.all fun started => decide (35000 < now - started))
    (due : discovery.retryAt ≤ now) :
    ∃ discovery', (app.tickHistoryDiscovery P connId now).historyDiscovery.get? connId =
        some discovery' ∧
      (discovery'.finished = true ∨ discovery'.attempts = discovery.attempts + 1) := by
  have free : discovery.pending.filter (fun started => decide (now - started ≤ 35000)) = none := by
    cases pending : discovery.pending with
    | none => rfl
    | some started =>
        rw [pending] at waited
        simp only [Option.all_some, decide_eq_true_eq] at waited
        have late : ¬now - started ≤ 35000 := by omega
        simp only [Option.filter_some, late, decide_false, Bool.false_eq_true, if_false]
  simp only [App.tickHistoryDiscovery, present, connected, Bool.not_true, Bool.false_eq_true, if_false,
    held, free, App.sendHistoryTargets, get?_setDiscovery, if_true, running, Option.isSome_none,
    Bool.or_false, Nat.not_lt.mpr due, decide_false]
  split
  · rw [(notice_spec P _ connId gaveUpNotice).1]
    exact ⟨_, (get?_setDiscovery connId _).trans (if_pos rfl), .inl rfl⟩
  · split
    · exact ⟨_, (get?_setDiscovery connId _).trans (if_pos rfl), .inr rfl⟩
    · exact ⟨_, (get?_setDiscovery connId _).trans (if_pos rfl), .inr rfl⟩

/-- Accepting a page lowers the bound for all that is asked next. -/
theorem receive_lowers {app : App} {server : Server} {interval : Int} {accepted : Nat}
    (kept : Kept server connId interval accepted app) {discovery : HistoryDiscovery}
    {page : List (Str × Int)} (batch : BatchInfo) (now : Nat)
    (held : app.historyDiscovery.get? connId = some discovery)
    (accepts : acceptedPage P app connId batch = some page)
    (answers : ∃ request ∈ requests app connId, Answers P server request batch) :
    ∃ discovery' more,
      (app.receiveHistoryTargets P connId batch now).historyDiscovery.get? connId =
          some discovery' ∧
        requests (app.receiveHistoryTargets P connId batch now) connId =
          requests app connId ++ more ∧
        (discovery'.finished = false → discovery'.upperMs < discovery.upperMs) ∧
        ∀ r ∈ more, r.upperMs < discovery.upperMs := by
  cases present : app.connections.get? connId with
  | none =>
      rw [kept.absent present] at held
      exact absurd held (by simp)
  | some conn =>
      rcases receive_accepted batch now present held accepts with ⟨waiting, decoded, app', seen,
        queue, result, held', connections, asked, grows, reported⟩
      rcases answers with ⟨request, sent, complete, ⟨listed, spells, newest⟩, ends⟩
      simp only [decodeTargets, complete, ne_eq, not_true_eq_false, if_false] at decoded
      rcases decode_spells spells decoded with ⟨rfl, under⟩
      have falls := ((kept.sound conn discovery present held).turn (clampLimit_pos _ _) waiting sent
        newest (ended batch) ends under now seen queue grows reported).2
      rw [result]
      simp only [App.tickHistoryDiscovery, connections, present]
      split
      · exact ⟨_, [], held', by rw [asked, List.append_nil], falls, by simp⟩
      · simp only [held']
        rcases @send_spec P connId (app'.setDiscovery connId _) _ now
          ((get?_setDiscovery connId _).trans (if_pos rfl)) with ⟨discovery', more, sends, held'', -, asked'⟩
        refine ⟨discovery', more, held'', asked'.trans (by rw [requests_setDiscovery, asked]), ?_⟩
        cases sends with
        | idle => exact ⟨falls, by simp⟩
        | gaveUp _ _ _ => exact ⟨fun unfinished => absurd unfinished (by simp), by simp⟩
        | tried _ _ _ _ running _ one =>
            refine ⟨fun _ => falls running, fun r member => ?_⟩
            rcases one with none_ | single
            · simp [none_] at member
            · rw [single, List.mem_singleton] at member
              rw [member]
              exact falls running

variable (P) in
/-- Pages that are accepted lower the bound, the number of requests is bounded, every answer to the
current request is accepted and every wait that is over leads to another try or to the end; a
discovery that ended reported every target, is marked incomplete, or gave up after three tries. A
page that is not accepted changes nothing. -/
theorem targets_discovery_ends_complete (connections : Map Str Connection) (buffers : Map Str Bool)
    (connId : Str) (servers : Str → Server) (ops : List Op)
    (allowed : Along (Allowed P servers) (exec P connId) (opened connections buffers) ops) :
    let s := runFrom (exec P connId) (opened connections buffers) ops
    (∀ batch now discovery page, s.app.historyDiscovery.get? connId = some discovery →
      acceptedPage P s.app connId batch = some page →
      (∃ request ∈ requests s.app connId, Answers P (servers connId) request batch) →
      ∃ discovery' more,
        (s.app.receiveHistoryTargets P connId batch now).historyDiscovery.get? connId =
            some discovery' ∧
          requests (s.app.receiveHistoryTargets P connId batch now) connId =
            requests s.app connId ++ more ∧
          (discovery'.finished = false → discovery'.upperMs < discovery.upperMs) ∧
          ∀ r ∈ more, r.upperMs < discovery.upperMs) ∧
      (requests s.app connId).length ≤ 3 * (s.interval.toNat + 2) ∧
      (∀ batch discovery started, s.app.historyDiscovery.get? connId = some discovery →
        discovery.pending = some started → started ≤ batch.startedAt →
        Answers P (servers connId) ⟨discovery.upperMs, discovery.limit⟩ batch →
        (acceptedPage P s.app connId batch).isSome) ∧
      (∀ conn discovery now, s.app.connections.get? connId = some conn → conn.connected = true →
        s.app.historyDiscovery.get? connId = some discovery → discovery.finished = false →
        discovery.pending.all (fun started => decide (35000 < now - started)) →
        discovery.retryAt ≤ now →
        ∃ discovery', (s.app.tickHistoryDiscovery P connId now).historyDiscovery.get? connId =
            some discovery' ∧
          (discovery'.finished = true ∨ discovery'.attempts = discovery.attempts + 1)) ∧
      (∀ discovery, s.app.historyDiscovery.get? connId = some discovery →
        discovery.finished = true → discovery.attempts = 3 ∨ discovery.incomplete = true ∨
          ∀ x ∈ (servers connId).below s.interval, asciiLower x.1 ∈ discovery.seen) ∧
      (∀ conn batch cleanEnd now,
        ¬isTargets batch cleanEnd ∨ acceptedPage P s.app conn batch = none →
        s.app.dispatchCompletedBatch P conn batch cleanEnd now = s.app) := by
  intro s
  have kept : Kept (servers connId) connId s.interval s.accepted s.app :=
    run_kept connections buffers ops allowed
  have connected (discovery : HistoryDiscovery)
      (held : s.app.historyDiscovery.get? connId = some discovery) :
      ∃ conn, s.app.connections.get? connId = some conn ∧
        Sound (servers connId) (clampLimit 1000 conn.chathistoryMax) s.interval s.accepted discovery
          (requests s.app connId) := by
    cases present : s.app.connections.get? connId with
    | none =>
        rw [kept.absent present] at held
        exact absurd held (by simp)
    | some conn => exact ⟨conn, rfl, kept.sound conn discovery present held⟩
  refine ⟨?_, ?_, ?_, ?_, ?_, ?_⟩
  · intro batch now discovery page held accepts answers
    exact receive_lowers kept batch now held accepts answers
  · cases held : s.app.historyDiscovery.get? connId with
    | none => simp [(kept.fresh held).1]
    | some discovery =>
        rcases connected discovery held with ⟨conn, -, sound⟩
        have sparing := sound.sparing
        have tries := sound.tries
        have counted := sound.counted
        have positive := sound.positive
        split at counted <;> omega
  · intro batch discovery started held pending fresh answers
    rcases answers with ⟨complete, ⟨page, spells, newest⟩, -⟩
    have inside (x : Str × Int) (member : x ∈ page) :=
      (mem_below (servers connId) discovery.upperMs x).mp (newest.listed x member)
    have decoded := decode_of_spells spells
      (fun x member => (servers connId).named x (inside x member).1)
      (fun x member => (inside x member).2)
    simp [acceptedPage, held, pending, Nat.not_lt.mpr fresh, decodeTargets, complete, decoded]
  · intro conn discovery now present isConnected held running waited due
    exact tick_tries now present isConnected held running waited due
  · intro discovery held finished
    rcases connected discovery held with ⟨conn, -, sound⟩
    exact sound.done_ finished
  · intro conn batch cleanEnd now rejected
    rcases rejected with other | refused
    · exact if_neg other
    · simp only [App.dispatchCompletedBatch, receive_rejected batch now refused, ite_self]

/-- A bouncer that knows one conversation. -/
def oneTarget : Server where
  targets := [("bob".toList, 5)]
  unique := by decide
  named := by
    intro x member
    rw [List.mem_singleton.mp member]
    exact ⟨by decide, by decide, by simp [isWhitespace, isControl]⟩

def bouncer : Map Str Connection :=
  Map.insert Table.empty "b".toList ⟨"net".toList, true, false, true, none, [], true, true⟩

def onePage (startedAt : Nat) : BatchInfo where
  batchType := "DRAFT/CHATHISTORY-TARGETS".toList
  params := []
  messages := [⟨none, none, .raw "CHATHISTORY".toList ["TARGETS".toList, "bob".toList, "5".toList]⟩]
  messageOrder := []
  droppedMessages := 0
  startedAt := startedAt
  openerTags := none

theorem onePage_answers (startedAt : Nat) :
    Answers MarkRead.plainMarkers oneTarget ⟨5000, 1000⟩ (onePage startedAt) := by
  refine ⟨rfl, ⟨[("bob".toList, 5)], ?_, ?_⟩, ?_⟩
  · exact .cons ⟨_, _, "5".toList, rfl, by decide, by decide, by decide⟩ .nil
  · exact ⟨by decide, by decide, by decide, by decide⟩
  · intro _
    decide

/-- The page comes after a second. -/
def promptOps : List Op := [.start "b".toList 0 0, .batch "b".toList (onePage 1000) true 1000]

/-- The answers come when the client has waited three times for 35 seconds. -/
def lateOps : List Op :=
  [.start "b".toList 0 0, .tick "b".toList 35001, .tick "b".toList 70002, .tick "b".toList 105003,
    .batch "b".toList (onePage 105100) true 105100, .batch "b".toList (onePage 105100) true 105100,
    .batch "b".toList (onePage 105100) true 105100]

theorem promptOps_allowed :
    Along (Allowed MarkRead.plainMarkers fun _ => oneTarget)
      (exec MarkRead.plainMarkers "b".toList) (opened bouncer Table.empty) promptOps :=
  ⟨trivial, fun _ => ⟨⟨5000, 1000⟩, by decide, onePage_answers 1000⟩, trivial⟩

theorem targets_discovery_ends_complete_prompt :
    let s := runFrom (exec MarkRead.plainMarkers "b".toList) (opened bouncer Table.empty) promptOps
    (requests s.app "b".toList).length ≤ 3 * (s.interval.toNat + 2) :=
  (targets_discovery_ends_complete MarkRead.plainMarkers bouncer Table.empty "b".toList
    (fun _ => oneTarget) promptOps promptOps_allowed).2.1

theorem late_answers_are_given_up :
    Along (Allowed MarkRead.plainMarkers fun _ => oneTarget)
        (exec MarkRead.plainMarkers "b".toList) (opened bouncer Table.empty) lateOps ∧
      let s := runFrom (exec MarkRead.plainMarkers "b".toList) (opened bouncer Table.empty) lateOps
      (s.app.historyDiscovery.get? "b".toList).map
          (fun discovery => (discovery.finished, discovery.incomplete, discovery.seen)) =
        some (true, false, []) ∧ ("bob".toList, 5) ∈ oneTarget.below s.interval := by
  refine ⟨⟨trivial, trivial, trivial, trivial,
    fun _ => ⟨⟨5000, 1000⟩, by decide, onePage_answers 105100⟩,
    fun _ => ⟨⟨5000, 1000⟩, by decide, onePage_answers 105100⟩,
    fun _ => ⟨⟨5000, 1000⟩, by decide, onePage_answers 105100⟩, trivial⟩, by decide, by decide⟩

end Runs

end Repartee.Discovery
