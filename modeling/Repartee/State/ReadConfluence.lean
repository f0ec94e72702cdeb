import Repartee.State.ReadRuns

/-!
Deliveries, history pages and markers in any order: where the read markers end, and what the
counters of each buffer show.
-/

namespace Repartee.State

open Text Lib Translate Irc

/-- One event that reaches the read state. A row is given its id when it arrives; `quiet` rows raise
no activity. -/
inductive ReadOp where
  | deliver (bufferId : Str) (row : Message) (level : ActivityLevel) (notice : Option Str)
  | transient (bufferId : Str) (row : Message) (level : ActivityLevel) (notice : Option Str)
  | quiet (bufferId : Str) (row : Message) (notice : Option Str)
  | page (bufferId : Str) (rows : List Message) (before : Bool) (origin : Str)
  | marker (origin : Str) (millis : Int)

/-- The state with the ledger of the rows delivered so far. -/
structure Tracked where
  app : AppState
  ledger : Ledger

variable (P : Platform)

/-- The level a line ends up with when the policy is asked twice. -/
def activityLevelOf (s : AppState) (bufferId : Str) (message : Message) (level : ActivityLevel)
    (notice : Option Str) : ActivityLevel :=
  match s.metadataPrepareRow bufferId message with
  | none => .none
  | some (prepared, maxLevel) => deliveredLevel s bufferId prepared (min level maxLevel) notice

def Tracked.exec (t : Tracked) : ReadOp → Tracked
  | .deliver bufferId row level notice =>
      let (id, numbered) := t.app.nextMessageId
      ⟨numbered.addMessageWithActivityUnshrunk P bufferId (row.withId id) level notice,
        Function.update t.ledger id
          ⟨activityLevelOf numbered bufferId (row.withId id) level notice, bufferId⟩⟩
  | .transient bufferId row level notice =>
      let (id, numbered) := t.app.nextMessageId
      ⟨numbered.deliverTransientNow P bufferId (row.withId id) level notice,
        Function.update t.ledger id
          ⟨deliveredLevel numbered bufferId (row.withId id) level notice, bufferId⟩⟩
  | .quiet bufferId row notice =>
      let (id, numbered) := t.app.nextMessageId
      ⟨numbered.addMessageUnshrunk bufferId (row.withId id) notice,
        Function.update t.ledger id ⟨.none, bufferId⟩⟩
  | .page bufferId rows before origin =>
      let after := t.app.surfaceHistoryPageFromTarget P bufferId rows before origin
      ⟨after, pageLedger P t.app after t.ledger bufferId origin⟩
  | .marker origin millis => ⟨t.app.applyServerReadMarker origin millis, t.ledger⟩

/-- A row that raises no activity finds room in the scrollback. -/
def Roomy (t : Tracked) : ReadOp → Prop
  | .quiet bufferId _ _ =>
      ∀ buffer, t.app.buffers.get? bufferId = some buffer →
        effectiveScrollbackLimit buffer.pinBacklog t.app.scrollbackLimit = 0 ∨
          buffer.messages.length <
            effectiveScrollbackLimit buffer.pinBacklog t.app.scrollbackLimit
  | _ => True

section Steps

variable {P} {t : Tracked}

/-- The state in which the next row has got its id. -/
def numbered (s : AppState) : AppState := { s with messageCounter := s.messageCounter + 1 }

theorem numbered_tallied {s : AppState} {ledger : Ledger} {x : Str}
    (tallied : Tallied P s ledger x) : Tallied P (numbered s) ledger x :=
  tallied.transport rfl rfl rfl (fun _ => rfl) (Nat.le_succ _) fun _ _ => rfl

theorem numbered_fresh {s : AppState} {ledger : Ledger} (tallied : ∀ x, Tallied P s ledger x) :
    Fresh (numbered s) (s.messageCounter + 1) := by
  intro x uses listed
  obtain ⟨row, member, number⟩ := List.mem_map.mp listed
  cases found : s.buffers.get? x with
  | none =>
      have closed : (numbered s).rowsOf x = [] := by
        simp only [AppState.rowsOf, numbered, found]
      simp [closed] at member
  | some buffer =>
      have rows : (numbered s).rowsOf x = buffer.messages := rowsOf_eq found
      rw [rows] at member
      have handed := (tallied x buffer found uses).1.handedOut row member
      omega

theorem relabelled {s : AppState} {ledger : Ledger} {id : Nat} {entry : Counted}
    (tallied : ∀ x, Tallied P s ledger x) (fresh : Fresh s id) (x : Str) :
    Tallied P s (Function.update ledger id entry) x :=
  (tallied x).relabel fun uses => Ledger.update_older (fresh x uses)

theorem transient_tallied {s : AppState} {ledger : Ledger} (bufferId : Str) (message : Message)
    (level : ActivityLevel) (notice : Option Str) (tallied : ∀ x, Tallied P s ledger x)
    (fresh : Fresh s message.id) (number : message.id ≤ s.messageCounter) (x : Str) :
    Tallied P (s.deliverTransientNow P bufferId message level notice)
      (Function.update ledger message.id
        ⟨deliveredLevel s bufferId message level notice, bufferId⟩) x := by
  unfold AppState.deliverTransientNow
  split
  · exact relabelled tallied fresh x
  · exact deliver_tallied message level notice tallied fresh number x

theorem withActivity_tallied {s : AppState} {ledger : Ledger} (bufferId : Str) (message : Message)
    (level : ActivityLevel) (notice : Option Str) (tallied : ∀ x, Tallied P s ledger x)
    (fresh : Fresh s message.id) (number : message.id ≤ s.messageCounter) (x : Str) :
    Tallied P (s.addMessageWithActivityUnshrunk P bufferId message level notice)
      (Function.update ledger message.id
        ⟨activityLevelOf s bufferId message level notice, bufferId⟩) x := by
  cases passed : s.metadataPrepareRow bufferId message with
  | none =>
      simp only [AppState.addMessageWithActivityUnshrunk, passed]
      exact relabelled tallied fresh x
  | some outcome =>
      obtain ⟨prepared, maxLevel⟩ := outcome
      have id := prepared_id message prepared maxLevel passed
      have top : activityLevelOf s bufferId message level notice =
          deliveredLevel s bufferId prepared (min level maxLevel) notice := by
        simp only [activityLevelOf, passed]
      simp only [AppState.addMessageWithActivityUnshrunk, passed]
      split
      · exact relabelled tallied fresh x
      · rw [top, ← id]
        rw [← id] at fresh number
        exact deliver_tallied prepared _ notice tallied fresh number x

/-- A row without activity joins the rows of its buffer and counts for nothing. -/
theorem quiet_tallied {s : AppState} {ledger : Ledger} (bufferId : Str) (message : Message)
    (notice : Option Str) (tallied : ∀ x, Tallied P s ledger x) (fresh : Fresh s message.id)
    (number : message.id ≤ s.messageCounter)
    (room : ∀ buffer, s.buffers.get? bufferId = some buffer →
      effectiveScrollbackLimit buffer.pinBacklog s.scrollbackLimit = 0 ∨
        buffer.messages.length < effectiveScrollbackLimit buffer.pinBacklog s.scrollbackLimit)
    (x : Str) :
    Tallied P (s.addMessageUnshrunk bufferId message notice)
      (Function.update ledger message.id ⟨.none, bufferId⟩) x := by
  cases passed : s.metadataPrepareRow bufferId message with
  | none =>
      simp only [AppState.addMessageUnshrunk, passed]
      exact relabelled tallied fresh x
  | some outcome =>
      obtain ⟨prepared, maxLevel⟩ := outcome
      have id := deliveredRow_id message prepared maxLevel notice passed
      simp only [AppState.addMessageUnshrunk, passed]
      generalize (notice.map (replaceBody prepared)).getD prepared = msg at id
      have beyond : Beyond bufferId s
          (s.adjustBuffer bufferId (AppState.pushMessage s.scrollbackLimit msg)) :=
        Beyond.adjustBuffer _ (pushMessage_outline _ _)
      by_cases uses : s.bufferUsesServerHistory x = true
      · by_cases here : bufferId = x
        · subst here
          intro after found _
          rw [AppState.get?_adjustBuffer, if_pos rfl] at found
          obtain ⟨buffer, before, rfl⟩ := Option.map_eq_some_iff.mp found
          obtain ⟨noted, shown⟩ := tallied bufferId buffer before uses
          have pushed : AppState.pushMessage s.scrollbackLimit msg buffer =
              { buffer with messages := buffer.messages ++ [msg] } := by
            have fits := room buffer before
            simp only [AppState.pushMessage, enforceScrollback, List.length_append,
              List.length_singleton]
            rw [if_neg (by omega)]
          have unlisted : msg.id ∉ buffer.messages.map Message.id := by
            rw [id, ← rowsOf_eq before]
            exact fresh bufferId uses
          have known : ∀ row ∈ buffer.messages ++ [msg], row = msg ∨ row ∈ buffer.messages ∧
              Function.update ledger message.id ⟨.none, bufferId⟩ row.id = ledger row.id := by
            intro row member
            rcases List.mem_append.mp member with old | new
            · exact Or.inr ⟨old, Ledger.update_older (id ▸ unlisted) row old⟩
            · exact Or.inl (List.mem_singleton.mp new)
          have silent : Function.update ledger message.id (⟨.none, bufferId⟩ : Counted) msg.id =
              ⟨.none, bufferId⟩ := by rw [id]; exact Function.update_self ..
          rw [pushed]
          refine ⟨⟨?_, ?_, ?_, ?_⟩, ⟨?_, shown.count, shown.top⟩⟩
          · rw [List.map_append]
            exact noted.distinct.append (List.nodup_singleton _) (by simpa using unlisted)
          · intro row member
            rcases known row member with rfl | ⟨old, _⟩
            · exact id ▸ number
            · exact noted.handedOut row old
          · intro row member level
            rcases known row member with rfl | ⟨old, same⟩
            · rw [silent] at level
              exact absurd rfl level
            · rw [same] at level ⊢
              exact noted.origin row old level
          · intro row member
            rcases known row member with rfl | ⟨old, same⟩
            · have absent := unread_absent shown.held unlisted
              rw [AppState.activityOf_adjustBuffer, absent, silent]
              rfl
            · rw [same]
              exact noted.unread row old
          · intro entry present
            have inside := shown.held entry present
            rw [List.map_append]
            exact List.mem_append_left _ inside
        · exact beyond.tallied x here (tallied x) (Ledger.update_older (fresh x uses))
      · intro buffer _ server
        rw [AppState.uses_of_setting beyond.setting] at server
        exact absurd server uses

/-- One event keeps every buffer tallied. -/
theorem exec_tallied (op : ReadOp) (tallied : ∀ x, Tallied P t.app t.ledger x)
    (roomy : Roomy t op) (x : Str) : Tallied P (t.exec P op).app (t.exec P op).ledger x := by
  have ready : ∀ x, Tallied P (numbered t.app) t.ledger x := fun x => numbered_tallied (tallied x)
  have fresh : Fresh (numbered t.app) (t.app.messageCounter + 1) := numbered_fresh tallied
  cases op with
  | deliver bufferId row level notice =>
      exact withActivity_tallied bufferId (row.withId (t.app.messageCounter + 1)) level notice ready
        fresh (Nat.le_refl _) x
  | transient bufferId row level notice =>
      exact transient_tallied bufferId (row.withId (t.app.messageCounter + 1)) level notice ready
        fresh (Nat.le_refl _) x
  | quiet bufferId row notice =>
      exact quiet_tallied bufferId (row.withId (t.app.messageCounter + 1)) notice ready fresh
        (Nat.le_refl _) roomy x
  | page bufferId rows before origin => exact (surface_tallied rows before tallied).2 x
  | marker origin millis => exact (marker_step origin millis tallied).1 x

/-- What an event does to the marker of an origin. -/
def ReadOp.markerOf (origin : Str) : ReadOp → Option Int
  | .marker target millis => if target = origin then some millis else none
  | _ => none

theorem deliver_beyond {s : AppState} (bufferId : Str) (message : Message) (level : ActivityLevel)
    (notice : Option Str) :
    Beyond bufferId s (s.deliverMessageToBuffer P bufferId message level notice) := by
  cases passed : s.metadataPrepareRow bufferId message with
  | none =>
      simp only [AppState.deliverMessageToBuffer, passed]
      exact Beyond.refl bufferId s
  | some outcome => exact (deliver_spec message outcome.1 level outcome.2 notice passed).1

/-- An event other than a marker changes one buffer and no marker. -/
theorem exec_beyond (op : ReadOp) (tallied : ∀ x, Tallied P t.app t.ledger x) :
    (∃ origin millis, op = .marker origin millis) ∨
      (∀ origin, op.markerOf origin = none) ∧
        ∃ bufferId, Beyond bufferId t.app (t.exec P op).app := by
  have ready (bufferId : Str) : Beyond bufferId t.app (numbered t.app) :=
    ⟨rfl, Nat.le_succ _, fun _ => rfl, fun _ _ => rfl, fun _ _ => rfl⟩
  cases op with
  | deliver bufferId row level notice =>
      right
      refine ⟨fun _ => rfl, bufferId, (ready bufferId).trans ?_⟩
      change Beyond bufferId (numbered t.app)
        ((numbered t.app).addMessageWithActivityUnshrunk P bufferId _ level notice)
      unfold AppState.addMessageWithActivityUnshrunk
      split
      · exact Beyond.refl _ _
      · split
        · exact Beyond.refl _ _
        · exact deliver_beyond bufferId _ _ notice
  | transient bufferId row level notice =>
      right
      refine ⟨fun _ => rfl, bufferId, (ready bufferId).trans ?_⟩
      change Beyond bufferId (numbered t.app)
        ((numbered t.app).deliverTransientNow P bufferId _ level notice)
      unfold AppState.deliverTransientNow
      split
      · exact Beyond.refl _ _
      · exact deliver_beyond bufferId _ _ notice
  | quiet bufferId row notice =>
      right
      refine ⟨fun _ => rfl, bufferId, (ready bufferId).trans ?_⟩
      change Beyond bufferId (numbered t.app) ((numbered t.app).addMessageUnshrunk bufferId _ notice)
      unfold AppState.addMessageUnshrunk
      split
      · exact Beyond.refl _ _
      · exact Beyond.adjustBuffer _ (pushMessage_outline _ _)
  | page bufferId rows before origin =>
      exact Or.inr ⟨fun _ => rfl, bufferId, (surface_tallied rows before tallied).1⟩
  | marker origin millis => exact Or.inl ⟨origin, millis, rfl⟩

theorem exec_through (op : ReadOp) (tallied : ∀ x, Tallied P t.app t.ledger x) (origin : Str) :
    (t.exec P op).app.through origin =
      match op.markerOf origin with
      | some millis => some (raise (t.app.through origin) millis)
      | none => t.app.through origin := by
  rcases exec_beyond op tallied with ⟨target, millis, rfl⟩ | ⟨other, bufferId, beyond⟩
  · have moved := (marker_step target millis tallied).2 origin
    simp only [ReadOp.markerOf]
    by_cases here : target = origin
    · subst here
      rw [if_pos rfl] at moved ⊢
      exact moved
    · rw [if_neg here] at moved ⊢
      exact moved
  · rw [beyond.through, other origin]

end Steps

section Runs

variable {P} {s : AppState}

/-- Buffers in which nothing has arrived yet. -/
structure Untouched (s : AppState) : Prop where
  unmarked : s.readActivity.rows = []
  empty : ∀ bufferId buffer, s.buffers.get? bufferId = some buffer →
    buffer.messages = [] ∧ buffer.activity = .none ∧ buffer.unreadCount = 0

/-- No row has been delivered. -/
def Ledger.blank : Ledger := fun _ => ⟨.none, []⟩

/-- The markers a run applies to an origin. -/
def markersOf (origin : Str) (ops : List ReadOp) : List Int := ops.filterMap (ReadOp.markerOf origin)

theorem Untouched.activityOf (untouched : Untouched s) (bufferId : Str) :
    s.activityOf bufferId = .default := by
  simp [AppState.activityOf, Map.get?, Table.find?, untouched.unmarked]

theorem Untouched.tallied (untouched : Untouched s) (ledger : Ledger) (x : Str) :
    Tallied P s ledger x := by
  intro buffer found _
  obtain ⟨messages, activity, count⟩ := untouched.empty x buffer found
  have none : s.unreadRows x = [] := by
    rw [AppState.unreadRows, untouched.activityOf]
    rfl
  refine ⟨⟨?_, ?_, ?_, ?_⟩, ⟨?_, ?_, ?_⟩⟩
  · simp [messages]
  · simp [messages]
  · simp [messages]
  · simp [messages]
  · intro id present
    rw [untouched.activityOf] at present
    simp [ReadActivity.default, Map.get?, Table.find?, Table.empty] at present
  · rw [none, count]
    rfl
  · rw [none, activity]
    rfl

/-- Any order of events keeps every buffer tallied, and a marker ends at the newest one applied. -/
theorem run_tallied (ops : List ReadOp) (t : Tracked) (tallied : ∀ x, Tallied P t.app t.ledger x)
    (roomy : Along Roomy (Tracked.exec P) t ops) :
    (∀ x, Tallied P (runFrom (Tracked.exec P) t ops).app (runFrom (Tracked.exec P) t ops).ledger x) ∧
    ∀ origin, (runFrom (Tracked.exec P) t ops).app.through origin =
      ((t.app.through origin).toList ++ markersOf origin ops).max? := by
  induction ops generalizing t with
  | nil =>
      refine ⟨tallied, ?_⟩
      intro origin
      cases known : t.app.through origin <;> simp [markersOf, known]
  | cons op rest ih =>
      obtain ⟨shown, through⟩ := ih (t.exec P op) (exec_tallied op tallied roomy.1) roomy.2
      refine ⟨shown, ?_⟩
      intro origin
      rw [runFrom_cons, through origin, exec_through op tallied origin]
      simp only [markersOf, List.filterMap_cons]
      cases op.markerOf origin with
      | none => rfl
      | some millis =>
          cases t.app.through origin with
          | none => simp [raise]
          | some previous =>
              simp only [raise, Option.getD_some, Option.toList, List.cons_append, List.nil_append,
                List.max?_cons', List.foldl_cons]

theorem newest_perm {first second : List Int} (perm : first.Perm second) :
    first.max? = second.max? := by
  cases newest : second.max? with
  | none =>
      rw [List.max?_eq_none_iff] at newest ⊢
      subst newest
      exact perm.eq_nil
  | some millis =>
      rw [List.max?_eq_some_iff] at newest ⊢
      exact ⟨perm.mem_iff.mpr newest.1, fun other member => newest.2 other (perm.mem_iff.mp member)⟩

/-- What the counters depend on of a row: its server time, its level and its origin. -/
def account (P : Platform) (ledger : Ledger) (row : Message) : Option Int × Counted :=
  (serverTime P row, ledger row.id)

/-- The levels of the rows that count, from the accounts of the rows held. -/
theorem countedLevels_eq (app : AppState) (ledger : Ledger) (rows : List Message) :
    (countedRows P app ledger rows).map (fun row => (ledger row.id).level) =
      ((rows.map (account P ledger)).filter fun a => a.2.level != .none &&
        a.1.all fun time => (app.through a.2.origin).all fun through => decide (through < time)).map
          fun a => a.2.level := by
  rw [List.filter_map, List.map_map]
  rfl

end Runs

/-- Whatever the order of deliveries, history pages and markers, in buffers whose history the
server keeps: each origin is read through to the newest marker applied to it, and the counters are
those of the rows held that have a level and that no marker of their origin reaches. Two orders
that apply the same markers and hold the same rows show the same. -/
theorem read_state_is_confluent (s : AppState) (untouched : Untouched s) (ops : List ReadOp)
    (roomy : Along Roomy (Tracked.exec P) ⟨s, Ledger.blank⟩ ops) :
    let t := runFrom (Tracked.exec P) ⟨s, Ledger.blank⟩ ops
    (∀ origin, t.app.through origin = (markersOf origin ops).max?) ∧
    (∀ bufferId buffer, t.app.buffers.get? bufferId = some buffer →
      t.app.bufferUsesServerHistory bufferId = true →
      buffer.unreadCount = min (countedRows P t.app t.ledger buffer.messages).length u32Max ∧
      buffer.activity = ((countedRows P t.app t.ledger buffer.messages).map
        fun row => (t.ledger row.id).level).foldl max .none) ∧
    ∀ ops', Along Roomy (Tracked.exec P) ⟨s, Ledger.blank⟩ ops' →
      (∀ origin, (markersOf origin ops').Perm (markersOf origin ops)) →
      let t' := runFrom (Tracked.exec P) ⟨s, Ledger.blank⟩ ops'
      (∀ origin, t'.app.through origin = t.app.through origin) ∧
      ∀ bufferId buffer buffer', t.app.buffers.get? bufferId = some buffer →
        t'.app.buffers.get? bufferId = some buffer' →
        t.app.bufferUsesServerHistory bufferId = true →
        t'.app.bufferUsesServerHistory bufferId = true →
        (buffer'.messages.map (account P t'.ledger)).Perm (buffer.messages.map (account P t.ledger)) →
        buffer'.unreadCount = buffer.unreadCount ∧ buffer'.activity = buffer.activity := by
  have start : ∀ x, Tallied P s Ledger.blank x := fun x => untouched.tallied Ledger.blank x
  have unread : ∀ origin, s.through origin = none := by
    intro origin
    rw [AppState.through_eq, untouched.activityOf]
    rfl
  have after (ops : List ReadOp) (roomy : Along Roomy (Tracked.exec P) ⟨s, Ledger.blank⟩ ops) :=
    run_tallied ops ⟨s, Ledger.blank⟩ start roomy
  have through (ops : List ReadOp) (roomy : Along Roomy (Tracked.exec P) ⟨s, Ledger.blank⟩ ops)
      (origin : Str) :
      (runFrom (Tracked.exec P) ⟨s, Ledger.blank⟩ ops).app.through origin =
        (markersOf origin ops).max? := by
    rw [(after ops roomy).2 origin, unread]
    rfl
  have counters (ops : List ReadOp) (roomy : Along Roomy (Tracked.exec P) ⟨s, Ledger.blank⟩ ops)
      (bufferId : Str) (buffer : Buffer)
      (found : (runFrom (Tracked.exec P) ⟨s, Ledger.blank⟩ ops).app.buffers.get? bufferId =
        some buffer)
      (uses : (runFrom (Tracked.exec P) ⟨s, Ledger.blank⟩ ops).app.bufferUsesServerHistory
        bufferId = true) :=
    have both := (after ops roomy).1 bufferId buffer found uses
    both.2.counters both.1
  intro t
  refine ⟨through ops roomy, counters ops roomy, ?_⟩
  intro ops' roomy' sameMarkers t'
  have same : ∀ origin, t'.app.through origin = t.app.through origin := by
    intro origin
    calc t'.app.through origin = (markersOf origin ops').max? := through ops' roomy' origin
      _ = (markersOf origin ops).max? := newest_perm (sameMarkers origin)
      _ = t.app.through origin := (through ops roomy origin).symm
  refine ⟨same, ?_⟩
  intro bufferId buffer buffer' found found' uses uses' sameRows
  obtain ⟨count, top⟩ := counters ops roomy bufferId buffer found uses
  obtain ⟨count', top'⟩ := counters ops' roomy' bufferId buffer' found' uses'
  have levels : ((countedRows P t'.app t'.ledger buffer'.messages).map
        fun row => (t'.ledger row.id).level).Perm
      ((countedRows P t.app t.ledger buffer.messages).map fun row => (t.ledger row.id).level) := by
    rw [countedLevels_eq, countedLevels_eq]
    simp only [same]
    exact (sameRows.filter _).map _
  constructor
  · have length := levels.length_eq
    rw [List.length_map, List.length_map] at length
    rw [count', count, length]
  · rw [top', top]
    exact levels.foldl_eq (.none : ActivityLevel)

/-- A clock whose times are plain numbers. -/
def plainClock : Platform where
  parseRfc3339 text :=
    match parseU64 text with
    | .ok millis => some millis
    | .error _ => none
  unicode := Unicode.ascii

/-- One channel of a bouncer's network, empty, under a scrollback limit. -/
def bouncerChannel (scrollback : Nat) : AppState where
  buffers := Map.insert Table.empty "b/#r".toList
    ⟨"b".toList, .channel, "#r".toList, [], .none, 0, Table.empty, false, false⟩
  connections := Map.insert Table.empty "b".toList
    ⟨"net".toList, none, "me".toList, false, some "42".toList, [], none, true⟩
  readActivity := Table.empty
  readIdentities := Table.empty
  activityCounter := 0
  activityOrder := Table.empty
  activeBufferId := none
  messageCounter := 0
  scrollbackLimit := scrollback
  translateQueues := Table.empty
  bouncerMetadata := Table.empty
  metadataCasemappings := Table.empty

theorem bouncerChannel_untouched (scrollback : Nat) : Untouched (bouncerChannel scrollback) := by
  refine ⟨rfl, ?_⟩
  intro bufferId buffer found
  have member := (Map.get?_eq_some _ _ _).mp found
  simp only [bouncerChannel, Map.insert, Table.mem_replace] at member
  rcases member with ⟨absurd, _⟩ | same
  · exact False.elim (List.not_mem_nil absurd)
  · cases same
    exact ⟨rfl, rfl, rfl⟩

def peerLine (time text : String) : Message where
  text := text.toList
  wireOrigin := none
  rest :=
    { id := 0
      timestamp := 0
      messageType := .message
      nick := some "peer".toList
      highlight := false
      eventKey := none
      tags := some (Map.insert Table.empty "time".toList time.toList)
      logKey := none
      redactionMsgid := none }

def shownAt (t : Tracked) : Option (Nat × ActivityLevel) :=
  (t.app.buffers.get? "b/#r".toList).map fun buffer => (buffer.unreadCount, buffer.activity)

theorem read_state_is_confluent_sample :
    let ops := [ReadOp.deliver "b/#r".toList (peerLine "7" "hi") .mention none,
      .quiet "b/#r".toList (peerLine "8" "joins") none,
      .page "b/#r".toList [peerLine "3" "old", peerLine "6" "new"] false "b/#r".toList,
      .marker "b/#r".toList 5, .marker "b/#r".toList 4]
    let t := runFrom (Tracked.exec plainClock) ⟨bouncerChannel 0, Ledger.blank⟩ ops
    shownAt t = some (2, .mention) ∧ t.app.through "b/#r".toList = some 5 := by
  intro ops t
  have roomy : Along Roomy (Tracked.exec plainClock) ⟨bouncerChannel 0, Ledger.blank⟩ ops := by
    refine ⟨trivial, ?_, trivial, trivial, trivial, trivial⟩
    intro buffer _
    left
    have unlimited : (Tracked.exec plainClock ⟨bouncerChannel 0, Ledger.blank⟩
        (.deliver "b/#r".toList (peerLine "7" "hi") .mention none)).app.scrollbackLimit = 0 := by
      decide
    rw [unlimited]
    simp [effectiveScrollbackLimit]
  have all := read_state_is_confluent plainClock (bouncerChannel 0) (bouncerChannel_untouched 0) ops
    roomy
  exact ⟨by decide, (all.1 "b/#r".toList).trans (by decide)⟩

/-- A scrollback of one row holds the line that came last, so the order of two lines decides which
of them is counted. -/
theorem last_line_is_counted :
    let loud := ReadOp.deliver "b/#r".toList (peerLine "7" "me!") .mention none
    let plain := ReadOp.deliver "b/#r".toList (peerLine "8" "hi") .activity none
    shownAt (runFrom (Tracked.exec plainClock) ⟨bouncerChannel 1, Ledger.blank⟩ [loud, plain]) =
        some (1, .activity) ∧
      shownAt (runFrom (Tracked.exec plainClock) ⟨bouncerChannel 1, Ledger.blank⟩ [plain, loud]) =
        some (1, .mention) := by
  decide

end Repartee.State
