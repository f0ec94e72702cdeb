import Repartee.State.Delivery
import Repartee.Lib.Run

/-!
The counters of a buffer against its rows: after every order of deliveries, history pages and
markers they count exactly the rows that are held, have a level and are newer than the marker of
their origin.
-/

namespace Repartee.State

open Text Lib Translate Irc

/-- The level a row was delivered with, and the buffer the server keeps it under. -/
structure Counted where
  level : ActivityLevel
  origin : Str

abbrev Ledger : Type := Nat → Counted

variable (P : Platform)

/-- Whether a row counts as unread: it has a level, and no marker of its origin reaches it. -/
def counts (s : AppState) (entry : Counted) (row : Message) : Bool :=
  entry.level != .none &&
    (serverTime P row).all fun time => (s.through entry.origin).all fun through =>
      decide (through < time)

/-- The read state of a buffer knows of each row held what the ledger says. -/
structure Noted (s : AppState) (ledger : Ledger) (bufferId : Str) (rows : List Message) : Prop where
  distinct : (rows.map Message.id).Nodup
  handedOut : ∀ row ∈ rows, row.id ≤ s.messageCounter
  origin : ∀ row ∈ rows, (ledger row.id).level ≠ .none →
    s.originOf bufferId row.id = (ledger row.id).origin
  unread : ∀ row ∈ rows,
    ((s.activityOf bufferId).unread.get? row.id).map (fun u => (u.time, u.level)) =
      if counts P s (ledger row.id) row then some (serverTime P row, (ledger row.id).level) else none

/-- Every unread entry is of a row held. -/
def Held (s : AppState) (bufferId : Str) (rows : List Message) : Prop :=
  ∀ id, ((s.activityOf bufferId).unread.get? id).isSome → id ∈ rows.map Message.id

structure Shown (s : AppState) (bufferId : Str) (buffer : Buffer) : Prop where
  held : Held s bufferId buffer.messages
  count : buffer.unreadCount = min (s.unreadRows bufferId).length u32Max
  top : buffer.activity = topLevel (s.unreadRows bufferId)

section Meaning

variable {P} {s : AppState} {ledger : Ledger} {bufferId : Str}

/-- The rows of a buffer that count. -/
def countedRows (P : Platform) (s : AppState) (ledger : Ledger) (rows : List Message) :
    List Message :=
  rows.filter fun row => counts P s (ledger row.id) row

theorem unread_ids_perm {rows : List Message} (noted : Noted P s ledger bufferId rows)
    (held : Held s bufferId rows) :
    ((s.activityOf bufferId).unread.rows.map Prod.fst).Perm
      ((countedRows P s ledger rows).map Message.id) := by
  have distinct : ((countedRows P s ledger rows).map Message.id).Nodup :=
    noted.distinct.sublist (List.filter_sublist.map _)
  apply (List.perm_ext_iff_of_nodup (s.activityOf bufferId).unread.unique distinct).mpr
  intro id
  constructor
  · intro member
    obtain ⟨⟨id', entry⟩, inRows, rfl⟩ := List.mem_map.mp member
    have found : (s.activityOf bufferId).unread.get? id' = some entry :=
      (Map.get?_eq_some _ _ _).mpr inRows
    obtain ⟨row, shown, same⟩ := List.mem_map.mp (held id' (by simp [found]))
    have known := noted.unread row shown
    rw [same, found] at known
    apply List.mem_map.mpr
    refine ⟨row, List.mem_filter.mpr ⟨shown, ?_⟩, same⟩
    by_contra uncounted
    rw [← same] at known
    simp [uncounted] at known
  · intro member
    obtain ⟨row, inRows, rfl⟩ := List.mem_map.mp member
    have shown := (List.mem_filter.mp inRows).1
    have counted := (List.mem_filter.mp inRows).2
    have known := noted.unread row shown
    rw [if_pos counted] at known
    obtain ⟨entry, found, _⟩ := Option.map_eq_some_iff.mp known
    exact List.mem_map.mpr ⟨(row.id, entry), (Map.get?_eq_some _ _ _).mp found, rfl⟩

theorem unread_levels_perm {rows : List Message} (noted : Noted P s ledger bufferId rows)
    (held : Held s bufferId rows) :
    ((s.unreadRows bufferId).map UnreadRow.level).Perm
      ((countedRows P s ledger rows).map fun row => (ledger row.id).level) := by
  have byId : (s.unreadRows bufferId).map UnreadRow.level =
      ((s.activityOf bufferId).unread.rows.map Prod.fst).map fun id => (ledger id).level := by
    simp only [AppState.unreadRows, List.map_map]
    apply List.map_congr_left
    intro entry member
    have found : (s.activityOf bufferId).unread.get? entry.1 = some entry.2 :=
      (Map.get?_eq_some _ _ _).mpr member
    obtain ⟨row, shown, same⟩ := List.mem_map.mp (held entry.1 (by simp [found]))
    have known := noted.unread row shown
    rw [same, found] at known
    by_cases counted : counts P s (ledger entry.1) row
    · simp only [counted, if_true, Option.map_some, Option.some.injEq, Prod.mk.injEq] at known
      exact known.2
    · simp [counted] at known
  calc (s.unreadRows bufferId).map UnreadRow.level
      = ((s.activityOf bufferId).unread.rows.map Prod.fst).map fun id => (ledger id).level := byId
    List.Perm _ (((countedRows P s ledger rows).map Message.id).map fun id => (ledger id).level) :=
        (unread_ids_perm noted held).map _
    _ = (countedRows P s ledger rows).map fun row => (ledger row.id).level := List.map_map

/-- The counters shown are those of the rows that count. -/
theorem Shown.counters {buffer : Buffer} (shown : Shown s bufferId buffer)
    (noted : Noted P s ledger bufferId buffer.messages) :
    buffer.unreadCount = min (countedRows P s ledger buffer.messages).length u32Max ∧
    buffer.activity =
      ((countedRows P s ledger buffer.messages).map fun row => (ledger row.id).level).foldl max
        .none := by
  have levels := unread_levels_perm noted shown.held
  constructor
  · have length := levels.length_eq
    rw [List.length_map, List.length_map] at length
    rw [shown.count, length]
  · rw [shown.top]
    exact levels.foldl_eq (.none : ActivityLevel)

end Meaning

section Refresh

variable {P} {s s' : AppState} {ledger ledger' : Ledger} {bufferId : Str}

theorem counts_congr (through : ∀ origin, s'.through origin = s.through origin) (entry : Counted)
    (row : Message) : counts P s' entry row = counts P s entry row := by
  simp only [counts, through]

/-- What is noted of some of the rows stays noted where nothing about them changes. -/
theorem Noted.transport {rows rows' : List Message} (noted : Noted P s ledger bufferId rows)
    (kept : rows'.Sublist rows) (counter : s.messageCounter ≤ s'.messageCounter)
    (through : ∀ origin, s'.through origin = s.through origin)
    (ledgers : ∀ row ∈ rows', ledger' row.id = ledger row.id)
    (origins : ∀ row ∈ rows', s'.originOf bufferId row.id = s.originOf bufferId row.id)
    (entries : ∀ row ∈ rows', (s'.activityOf bufferId).unread.get? row.id =
      (s.activityOf bufferId).unread.get? row.id) :
    Noted P s' ledger' bufferId rows' where
  distinct := noted.distinct.sublist (kept.map _)
  handedOut row member := (noted.handedOut row (kept.subset member)).trans counter
  origin row member := by
    rw [origins row member, ledgers row member]
    exact noted.origin row (kept.subset member)
  unread row member := by
    rw [entries row member, ledgers row member, counts_congr through]
    exact noted.unread row (kept.subset member)

/-- What is noted of a buffer as it stands. -/
def NotedAt (P : Platform) (s : AppState) (ledger : Ledger) (bufferId : Str) : Prop :=
  ∀ buffer, s.buffers.get? bufferId = some buffer → s.bufferUsesServerHistory bufferId = true →
    Noted P s ledger bufferId buffer.messages

/-- The rows of a buffer are noted and its counters shown. -/
def Tallied (P : Platform) (s : AppState) (ledger : Ledger) (bufferId : Str) : Prop :=
  ∀ buffer, s.buffers.get? bufferId = some buffer → s.bufferUsesServerHistory bufferId = true →
    Noted P s ledger bufferId buffer.messages ∧ Shown s bufferId buffer

theorem Tallied.noted (tallied : Tallied P s ledger bufferId) : NotedAt P s ledger bufferId :=
  fun buffer found uses => (tallied buffer found uses).1

theorem refresh_through (x origin : Str) :
    (s.refreshReadActivity x).through origin = s.through origin := by
  rw [AppState.through_eq, AppState.through_eq, AppState.refreshReadActivity_activityOf,
    AppState.activityOf_pruneReadActivity]
  split
  · next same =>
      subst same
      cases s.buffers.get? origin <;> rfl
  · rfl

theorem refresh_uses (x y : Str) :
    (s.refreshReadActivity x).bufferUsesServerHistory y = s.bufferUsesServerHistory y :=
  AppState.uses_of_setting (AppState.refreshReadActivity_setting x) y

/-- A refresh changes counters, never rows. -/
theorem refresh_rows {x y : Str} {buffer : Buffer}
    (found : (s.refreshReadActivity x).buffers.get? y = some buffer) :
    ∃ old, s.buffers.get? y = some old ∧ buffer.messages = old.messages ∧ (x ≠ y → buffer = old) := by
  rw [AppState.refreshReadActivity_buffers] at found
  split at found
  · next same =>
      subst same
      obtain ⟨old, before, rfl⟩ := Option.map_eq_some_iff.mp found
      exact ⟨old, before, rfl, fun other => absurd rfl other⟩
  · exact ⟨buffer, found, rfl, fun _ => rfl⟩

theorem refresh_noted (x y : Str) (noted : NotedAt P s ledger y) :
    NotedAt P (s.refreshReadActivity x) ledger y := by
  intro buffer found uses
  obtain ⟨old, before, messages, _⟩ := refresh_rows found
  rw [refresh_uses] at uses
  rw [messages]
  have activity := AppState.refreshReadActivity_activityOf (s := s) x y
  rw [AppState.activityOf_pruneReadActivity] at activity
  apply (noted old before uses).transport (List.Sublist.refl _) (by simp) (refresh_through x)
    (fun _ _ => rfl)
  · intro row member
    rw [AppState.originOf_eq, AppState.originOf_eq, activity]
    split
    · next same =>
        subst same
        simp only [before, Option.map_some, Option.getD_some, ReadActivity.prune]
        rw [AppState.get?_retain_held _ _ _ (List.mem_map_of_mem member)]
    · rfl
  · intro row member
    rw [activity]
    split
    · next same =>
        subst same
        simp only [before, Option.map_some, Option.getD_some, ReadActivity.prune]
        rw [AppState.get?_retain_held _ _ _ (List.mem_map_of_mem member)]
    · rfl

theorem refresh_shown {x : Str} {buffer : Buffer}
    (found : (s.refreshReadActivity x).buffers.get? x = some buffer) :
    Shown (s.refreshReadActivity x) x buffer := by
  have stored := found
  rw [AppState.refreshReadActivity_buffers, if_pos rfl] at stored
  obtain ⟨old, before, rfl⟩ := Option.map_eq_some_iff.mp stored
  refine ⟨?_, rfl, rfl⟩
  intro id entry
  rw [AppState.refreshReadActivity_activityOf, AppState.activityOf_pruneReadActivity, if_pos rfl,
    before] at entry
  simp only [Option.map_some, Option.getD_some, ReadActivity.prune, Map.get?_retain] at entry
  obtain ⟨row, kept⟩ := Option.isSome_iff_exists.mp entry
  have inside := (Option.filter_eq_some_iff.mp kept).2
  exact List.contains_iff_mem.mp inside

theorem refresh_tallied (x y : Str) (noted : NotedAt P s ledger y)
    (shown : x = y ∨ Tallied P s ledger y) : Tallied P (s.refreshReadActivity x) ledger y := by
  intro buffer found uses
  refine ⟨refresh_noted x y noted buffer found uses, ?_⟩
  by_cases here : x = y
  · subst here
    exact refresh_shown found
  · obtain ⟨old, before, _, same⟩ := refresh_rows found
    rw [refresh_uses] at uses
    obtain ⟨_, shown⟩ := (shown.resolve_left here) old before uses
    rw [same here]
    have activity : (s.refreshReadActivity x).activityOf y = s.activityOf y := by
      rw [AppState.refreshReadActivity_activityOf, AppState.activityOf_pruneReadActivity,
        if_neg (Ne.symm here)]
    have rows : (s.refreshReadActivity x).unreadRows y = s.unreadRows y := by
      simp only [AppState.unreadRows, activity]
    refine ⟨?_, by rw [rows]; exact shown.count, by rw [rows]; exact shown.top⟩
    intro id entry
    rw [activity] at entry
    exact shown.held id entry

end Refresh

section Adding

variable {P} {s s' : AppState} {ledger ledger' : Ledger} {bufferId : Str}

/-- A row on its way into a buffer: its origin recorded, then its activity. -/
def recordRow (P : Platform) (s : AppState) (bufferId : Str) (msg : Message) (origin : Str)
    (level : ActivityLevel) : AppState :=
  (s.recordReadOrigin bufferId msg origin).recordReadActivity P bufferId msg level

theorem recordReadOrigin_through (bufferId : Str) (msg : Message) (origin x : Str) :
    (s.recordReadOrigin bufferId msg origin).through x = s.through x := by
  rw [AppState.through_eq, AppState.through_eq]
  by_cases uses : s.bufferUsesServerHistory bufferId = true
  · rw [AppState.recordReadOrigin_eq _ _ _ uses, AppState.activityOf_adjustActivity]
    split
    · next same => rw [← same]
    · rfl
  · simp [AppState.recordReadOrigin, uses]

theorem recordRow_through (bufferId : Str) (msg : Message) (origin : Str) (level : ActivityLevel)
    (x : Str) : (recordRow P s bufferId msg origin level).through x = s.through x := by
  obtain ⟨_, _, _, order, activity⟩ := AppState.recordReadActivity_spec (P := P)
    (s.recordReadOrigin bufferId msg origin) bufferId msg level
  calc (recordRow P s bufferId msg origin level).through x
      = (s.recordReadOrigin bufferId msg origin).through x := by
        rw [AppState.through_eq, AppState.through_eq, recordRow, activity]
        split
        · next both => rw [← both.1]
        · rfl
    _ = s.through x := recordReadOrigin_through bufferId msg origin x

theorem recordReadOrigin_other (bufferId : Str) (msg : Message) (origin x : Str)
    (other : bufferId ≠ x) :
    (s.recordReadOrigin bufferId msg origin).activityOf x = s.activityOf x := by
  unfold AppState.recordReadOrigin
  split
  · rw [AppState.activityOf_adjustActivity, if_neg other]
  · rfl

theorem recordRow_other (bufferId : Str) (msg : Message) (origin : Str) (level : ActivityLevel)
    (x : Str) (other : bufferId ≠ x) :
    (recordRow P s bufferId msg origin level).activityOf x = s.activityOf x := by
  obtain ⟨_, _, _, order, activity⟩ := AppState.recordReadActivity_spec (P := P)
    (s.recordReadOrigin bufferId msg origin) bufferId msg level
  rw [recordRow, activity, if_neg fun both => other both.1]
  exact recordReadOrigin_other bufferId msg origin x other

theorem recordRow_frame (bufferId : Str) (msg : Message) (origin : Str) (level : ActivityLevel) :
    (recordRow P s bufferId msg origin level).buffers = s.buffers ∧
    (recordRow P s bufferId msg origin level).setting = s.setting ∧
    (recordRow P s bufferId msg origin level).messageCounter = s.messageCounter := by
  obtain ⟨buffers, setting, counter, _⟩ := AppState.recordReadActivity_spec (P := P)
    (s.recordReadOrigin bufferId msg origin) bufferId msg level
  rw [AppState.recordReadOrigin_buffers] at buffers
  rw [AppState.recordReadOrigin_setting] at setting
  rw [AppState.recordReadOrigin_messageCounter] at counter
  exact ⟨buffers, setting, counter⟩

/-- A state that knows of one more row than another: its origin, and the entry its level and its
origin's marker call for. -/
structure Recorded (P : Platform) (s : AppState) (bufferId : Str) (msg : Message) (origin : Str)
    (level : ActivityLevel) (s' : AppState) : Prop where
  through : ∀ x, s'.through x = s.through x
  originOf : ∀ id, s'.originOf bufferId id =
    if msg.id = id then origin else s.originOf bufferId id
  unread : ∀ id, ((s'.activityOf bufferId).unread.get? id).map (fun u => (u.time, u.level)) =
    if msg.id = id then
      if counts P s ⟨level, origin⟩ msg then some (serverTime P msg, level) else none
    else ((s.activityOf bufferId).unread.get? id).map fun u => (u.time, u.level)

theorem Recorded.congr {msg : Message} {origin : Str} {level : ActivityLevel} {s₁ s₂ : AppState}
    (recorded : Recorded P s bufferId msg origin level s₁)
    (same : ∀ x, s₂.activityOf x = s₁.activityOf x) :
    Recorded P s bufferId msg origin level s₂ where
  through x := by
    rw [AppState.through_eq, same, ← AppState.through_eq]
    exact recorded.through x
  originOf id := by
    rw [AppState.originOf_eq, same, ← AppState.originOf_eq]
    exact recorded.originOf id
  unread id := by
    rw [same]
    exact recorded.unread id

/-- Recording the origin, then the activity, in a state that may have raised other counters. -/
theorem recorded_of_origin {t : AppState} (msg : Message) (origin : Str) (level : ActivityLevel)
    (same : ∀ x, t.activityOf x = (s.recordReadOrigin bufferId msg origin).activityOf x)
    (uses : s.bufferUsesServerHistory bufferId = true)
    (absent : (s.activityOf bufferId).unread.get? msg.id = none) :
    Recorded P s bufferId msg origin level (t.recordReadActivity P bufferId msg level) := by
  obtain ⟨_, _, _, order, activity⟩ := AppState.recordReadActivity_spec (P := P) t bufferId msg level
  have here : t.activityOf bufferId =
      { s.activityOf bufferId with
        origins := (s.activityOf bufferId).origins.insert msg.id origin } := by
    rw [same, AppState.recordReadOrigin_eq _ _ _ uses, AppState.activityOf_adjustActivity, if_pos rfl]
  have through : ∀ x, t.through x = s.through x := by
    intro x
    rw [AppState.through_eq, same, ← AppState.through_eq, recordReadOrigin_through]
  have itsOrigin : t.originOf bufferId msg.id = origin := by
    rw [AppState.originOf_eq, here, Map.get?_insert, if_pos rfl]
    rfl
  have counted : (level ≠ .none ∧ t.messageAlreadyRead P bufferId msg = false) ↔
      counts P s ⟨level, origin⟩ msg = true := by
    simp only [AppState.messageAlreadyRead, counts, itsOrigin, through]
    cases serverTime P msg with
    | none => simp
    | some time => cases s.through origin <;> simp
  constructor
  · intro x
    rw [← through x, AppState.through_eq, AppState.through_eq, activity]
    split
    · next both => rw [← both.1]
    · rfl
  · intro id
    have origins : ((t.recordReadActivity P bufferId msg level).activityOf bufferId).origins =
        (s.activityOf bufferId).origins.insert msg.id origin := by
      rw [activity]
      split <;> rw [here]
    rw [AppState.originOf_eq, AppState.originOf_eq, origins, Map.get?_insert]
    split <;> rfl
  · intro id
    rw [activity]
    by_cases takes : counts P s ⟨level, origin⟩ msg = true
    · rw [if_pos ⟨rfl, counted.mpr takes⟩, here, Map.get?_insert]
      by_cases own : msg.id = id
      · simp [own, takes]
      · simp [own]
    · rw [if_neg fun both => takes (counted.mp both.2), here]
      by_cases own : msg.id = id
      · subst own
        simp [takes, absent]
      · simp [own]

/-- A new row joins the rows noted. -/
theorem noted_add {rows rows' : List Message} {msg : Message} {origin : Str}
    {level : ActivityLevel} (noted : Noted P s ledger bufferId rows) (held : Held s bufferId rows)
    (fresh : msg.id ∉ rows.map Message.id)
    (number : msg.id ≤ s'.messageCounter) (counter : s.messageCounter ≤ s'.messageCounter)
    (perm : rows'.Perm (msg :: rows)) (entry : ledger' msg.id = ⟨level, origin⟩)
    (older : ∀ row ∈ rows, ledger' row.id = ledger row.id)
    (recorded : Recorded P s bufferId msg origin level s') :
    Noted P s' ledger' bufferId rows' ∧ Held s' bufferId rows' := by
  have known : ∀ row ∈ rows', row = msg ∨ row ∈ rows ∧ msg.id ≠ row.id := by
    intro row member
    rcases List.mem_cons.mp (perm.subset member) with rfl | old
    · exact Or.inl rfl
    · exact Or.inr ⟨old, fun same => fresh (same ▸ List.mem_map_of_mem old)⟩
  refine ⟨⟨?_, ?_, ?_, ?_⟩, ?_⟩
  · have names := perm.map Message.id
    exact names.nodup_iff.mpr (List.nodup_cons.mpr ⟨fresh, noted.distinct⟩)
  · intro row member
    rcases known row member with rfl | ⟨old, _⟩
    · exact number
    · exact (noted.handedOut row old).trans counter
  · intro row member level
    rw [recorded.originOf]
    rcases known row member with rfl | ⟨old, other⟩
    · rw [if_pos rfl, entry]
    · rw [older row old] at level
      rw [if_neg other, older row old]
      exact noted.origin row old level
  · intro row member
    rw [recorded.unread]
    rcases known row member with rfl | ⟨old, other⟩
    · rw [if_pos rfl, entry, counts_congr recorded.through]
    · rw [if_neg other, older row old, counts_congr recorded.through]
      exact noted.unread row old
  · intro id present
    have names := (perm.map Message.id).mem_iff (a := id)
    rw [names]
    by_cases here : msg.id = id
    · simp [here]
    · have found := recorded.unread id
      rw [if_neg here] at found
      have before : ((s.activityOf bufferId).unread.get? id).isSome = true := by
        have mapped := congrArg Option.isSome found
        rw [Option.isSome_map, Option.isSome_map] at mapped
        rw [← mapped]
        exact present
      exact List.mem_cons_of_mem _ (held id before)

end Adding

section Markers

variable {P} {s : AppState} {ledger : Ledger}

/-- Refreshing a list of buffers shows each of them and leaves the others shown. -/
theorem refreshAll_tallied (ids : List Str) (s : AppState) (noted : ∀ x, NotedAt P s ledger x)
    (x : Str) (shown : x ∈ ids ∨ Tallied P s ledger x) :
    Tallied P (ids.foldl AppState.refreshReadActivity s) ledger x := by
  induction ids generalizing s with
  | nil => exact shown.resolve_left (by simp)
  | cons id rest ih =>
      apply ih (s.refreshReadActivity id) fun y => refresh_noted id y (noted y)
      by_cases later : x ∈ rest
      · exact Or.inl later
      · right
        apply refresh_tallied id x (noted x)
        rcases shown with listed | tallied
        · rcases List.mem_cons.mp listed with here | there
          · exact Or.inl here.symm
          · exact absurd there later
        · exact Or.inr tallied

theorem refreshAll_through (ids : List Str) (s : AppState) (x : Str) :
    (ids.foldl AppState.refreshReadActivity s).through x = s.through x := by
  induction ids generalizing s with
  | nil => rfl
  | cons id rest ih => exact (ih (s.refreshReadActivity id)).trans (refresh_through id x)

theorem refreshAll_setting (ids : List Str) (s : AppState) :
    (ids.foldl AppState.refreshReadActivity s).setting = s.setting := by
  induction ids generalizing s with
  | nil => rfl
  | cons id rest ih =>
      exact (ih (s.refreshReadActivity id)).trans (AppState.refreshReadActivity_setting id)

theorem refreshAll_messageCounter (ids : List Str) (s : AppState) :
    (ids.foldl AppState.refreshReadActivity s).messageCounter = s.messageCounter := by
  induction ids generalizing s with
  | nil => rfl
  | cons id rest ih =>
      exact (ih (s.refreshReadActivity id)).trans (AppState.refreshReadActivity_messageCounter id)

theorem refreshAll_messages (ids : List Str) (s : AppState) (x : Str) :
    (ids.foldl AppState.refreshReadActivity s).rowsOf x = s.rowsOf x := by
  induction ids generalizing s with
  | nil => rfl
  | cons id rest ih =>
      refine (ih (s.refreshReadActivity id)).trans ?_
      simp only [AppState.rowsOf, AppState.refreshReadActivity_buffers]
      by_cases here : x = id
      · subst here
        cases s.buffers.get? x <;> simp
      · simp [here]

/-- The state between a marker's bookkeeping and the refreshes that follow it. -/
def clearedBy (s : AppState) (origin : Str) (millis : Int) : AppState :=
  let marked := s.adjustActivity origin fun state => { state with through := some millis }
  { marked with readActivity := marked.readActivity.mapValues (clearRead origin millis) }

theorem clearedBy_activityOf (origin : Str) (millis : Int) (x : Str) :
    (clearedBy s origin millis).activityOf x =
      clearRead origin millis x
        (if origin = x then { s.activityOf origin with through := some millis }
          else s.activityOf x) := by
  have step := AppState.activityOf_adjustActivity (s := s) origin x
    fun state => { state with through := some millis }
  calc (clearedBy s origin millis).activityOf x
      = clearRead origin millis x ((s.adjustActivity origin fun state =>
          { state with through := some millis }).activityOf x) := by
        simp only [clearedBy, AppState.activityOf, Map.get?_mapValues]
        cases (s.adjustActivity origin fun state =>
          { state with through := some millis }).readActivity.get? x <;> rfl
    _ = _ := congrArg (clearRead origin millis x) step

theorem clearedBy_through (origin : Str) (millis : Int) (x : Str) :
    (clearedBy s origin millis).through x = if origin = x then some millis else s.through x := by
  rw [AppState.through_eq, clearedBy_activityOf, AppState.through_eq]
  split <;> rfl

theorem clearedBy_originOf (origin : Str) (millis : Int) (x : Str) (id : Nat) :
    (clearedBy s origin millis).originOf x id = s.originOf x id := by
  rw [AppState.originOf_eq, clearedBy_activityOf, AppState.originOf_eq]
  split
  · next same => rw [← same]; rfl
  · rfl

theorem clearedBy_unread (origin : Str) (millis : Int) (x : Str) (id : Nat) :
    ((clearedBy s origin millis).activityOf x).unread.get? id =
      ((s.activityOf x).unread.get? id).filter fun row =>
        s.originOf x id != origin || row.time.all fun time => decide (millis < time) := by
  rw [clearedBy_activityOf, AppState.originOf_eq]
  split
  · next same => subst same; simp only [clearRead, Map.get?_retain]; rfl
  · simp only [clearRead, Map.get?_retain]; rfl

/-- After a newer marker a row counts if it did and the marker does not reach it. -/
theorem counts_cleared (origin : Str) (millis : Int)
    (ahead : ∀ previous, s.through origin = some previous → previous < millis) (entry : Counted)
    (row : Message) :
    counts P (clearedBy s origin millis) entry row =
      (counts P s entry row && (entry.origin != origin ||
        (serverTime P row).all fun time => decide (millis < time))) := by
  simp only [counts, clearedBy_through]
  by_cases here : origin = entry.origin
  · rw [if_pos here, Bool.eq_iff_iff]
    simp only [here, Bool.and_eq_true, Option.all_eq_true, Option.some.injEq, decide_eq_true_eq,
      bne_self_eq_false, Bool.false_or]
    constructor
    · intro both
      refine ⟨⟨both.1, ?_⟩, fun time stamped => both.2 time stamped millis rfl⟩
      intro time stamped previous known
      have later := both.2 time stamped millis rfl
      have first := ahead previous (here ▸ known)
      omega
    · intro both
      refine ⟨both.1.1, ?_⟩
      intro time stamped bound same
      have later := both.2 time stamped
      omega
  · rw [if_neg here]
    simp [Ne.symm here]

/-- A marker clears exactly the rows it reaches. -/
theorem clearedBy_noted (origin : Str) (millis : Int)
    (ahead : ∀ previous, s.through origin = some previous → previous < millis) (x : Str)
    (noted : NotedAt P s ledger x) : NotedAt P (clearedBy s origin millis) ledger x := by
  intro buffer found uses
  have before : Noted P s ledger x buffer.messages := noted buffer found uses
  refine ⟨before.distinct, before.handedOut, ?_, ?_⟩
  · intro row member
    rw [clearedBy_originOf]
    exact before.origin row member
  · intro row member
    have entry := before.unread row member
    rw [clearedBy_unread, counts_cleared origin millis ahead]
    cases counted : counts P s (ledger row.id) row with
    | false =>
        rw [counted] at entry
        have none : (s.activityOf x).unread.get? row.id = none := by simpa using entry
        simp [none]
    | true =>
        rw [counted, if_pos rfl] at entry
        obtain ⟨u, stored, pair⟩ := Option.map_eq_some_iff.mp entry
        obtain ⟨time, level⟩ := Prod.mk.inj pair
        have loud : (ledger row.id).level ≠ .none := by
          simp only [counts, Bool.and_eq_true, bne_iff_ne] at counted
          exact counted.1
        rw [stored, before.origin row member loud, Bool.true_and, Option.filter, time]
        split <;> simp [time, level]

theorem unread_eq_of_rows {t u : Map Nat UnreadRow} (rows : t.rows = u.rows) : t = u := by
  cases t
  cases u
  simp_all

theorem applyServerReadMarker_eq (origin : Str) (millis : Int)
    (ahead : ∀ previous, s.through origin = some previous → previous < millis) :
    ∃ changed : List Str,
      s.applyServerReadMarker origin millis =
        (changed ++ [origin]).foldl AppState.refreshReadActivity (clearedBy s origin millis) ∧
      ∀ x, x ∉ changed → x ≠ origin →
        ((clearedBy s origin millis).activityOf x).unread = (s.activityOf x).unread := by
  have open_ : ((s.through origin).any fun previous => decide (millis ≤ previous)) = false := by
    cases known : s.through origin with
    | none => rfl
    | some previous =>
        have := ahead previous known
        simp only [Option.any_some, decide_eq_false_iff_not]
        omega
  refine ⟨((s.adjustActivity origin fun state =>
      { state with through := some millis }).readActivity.rows.filter fun e =>
    (clearRead origin millis e.1 e.2).unread.rows.length != e.2.unread.rows.length &&
      e.1 != origin).map Prod.fst, ?_, ?_⟩
  · rw [List.foldl_append]
    simp only [AppState.applyServerReadMarker, open_]
    rfl
  · intro x unchanged other
    rw [clearedBy_activityOf, if_neg (Ne.symm other)]
    cases stored : s.readActivity.get? x with
    | none =>
        simp only [AppState.activityOf, stored]
        rfl
    | some state =>
        have activity : s.activityOf x = state := by
          simp only [AppState.activityOf, stored, Option.getD_some]
        rw [activity]
        have listed : (x, state) ∈ (s.adjustActivity origin fun state =>
            { state with through := some millis }).readActivity.rows := by
          apply (Map.get?_eq_some _ _ _).mp
          rw [AppState.adjustActivity, Map.get?_insert, if_neg (Ne.symm other)]
          exact stored
        have same : (clearRead origin millis x state).unread.rows.length =
            state.unread.rows.length := by
          by_contra different
          apply unchanged
          refine List.mem_map.mpr ⟨(x, state), List.mem_filter.mpr ⟨listed, ?_⟩, rfl⟩
          simp [different, other]
        have rows : (clearRead origin millis x state).unread.rows = state.unread.rows :=
          List.filter_sublist.eq_of_length same
        exact unread_eq_of_rows rows

/-- A buffer that an operation leaves alone stays tallied. -/
theorem Tallied.transport {s' : AppState} {ledger' : Ledger} {x : Str}
    (tallied : Tallied P s ledger x) (buffers : s'.buffers.get? x = s.buffers.get? x)
    (uses : s'.bufferUsesServerHistory x = s.bufferUsesServerHistory x)
    (activity : s'.activityOf x = s.activityOf x)
    (through : ∀ origin, s'.through origin = s.through origin)
    (counter : s.messageCounter ≤ s'.messageCounter)
    (older : ∀ row ∈ s.rowsOf x, ledger' row.id = ledger row.id) : Tallied P s' ledger' x := by
  intro buffer found server
  rw [buffers] at found
  have held : s.rowsOf x = buffer.messages := by simp only [AppState.rowsOf, found]
  rw [held] at older
  rw [uses] at server
  obtain ⟨noted, shown⟩ := tallied buffer found server
  have rows : s'.unreadRows x = s.unreadRows x := by simp only [AppState.unreadRows, activity]
  constructor
  · apply noted.transport (List.Sublist.refl _) counter through
    · exact older
    · intro row _
      rw [AppState.originOf_eq, AppState.originOf_eq, activity]
    · intro row _
      rw [activity]
  · refine ⟨?_, by rw [rows]; exact shown.count, by rw [rows]; exact shown.top⟩
    intro id entry
    rw [activity] at entry
    exact shown.held id entry

/-- What a marker does to the read-through time of its target. -/
def raise (previous : Option Int) (millis : Int) : Int := max (previous.getD millis) millis

theorem marker_step (origin : Str) (millis : Int) (tallied : ∀ x, Tallied P s ledger x) :
    (∀ x, Tallied P (s.applyServerReadMarker origin millis) ledger x) ∧
    ∀ x, (s.applyServerReadMarker origin millis).through x =
      if origin = x then some (raise (s.through origin) millis) else s.through x := by
  by_cases ahead : ∀ previous, s.through origin = some previous → previous < millis
  · obtain ⟨changed, same, quiet⟩ := applyServerReadMarker_eq origin millis ahead
    rw [same]
    constructor
    · intro x
      apply refreshAll_tallied _ _ fun y => clearedBy_noted origin millis ahead y (tallied y).noted
      by_cases listed : x ∈ changed ++ [origin]
      · exact Or.inl listed
      · right
        simp only [List.mem_append, List.mem_singleton, not_or] at listed
        intro buffer found uses
        refine ⟨clearedBy_noted origin millis ahead x (tallied x).noted buffer found uses, ?_⟩
        obtain ⟨_, shown⟩ := tallied x buffer found uses
        have unread := quiet x listed.1 listed.2
        have rows : (clearedBy s origin millis).unreadRows x = s.unreadRows x := by
          simp only [AppState.unreadRows, unread]
        refine ⟨?_, by rw [rows]; exact shown.count, by rw [rows]; exact shown.top⟩
        intro id entry
        rw [unread] at entry
        exact shown.held id entry
    · intro x
      rw [refreshAll_through, clearedBy_through]
      have top : raise (s.through origin) millis = millis := by
        unfold raise
        cases known : s.through origin with
        | none => simp
        | some previous =>
            have := ahead previous known
            simp only [Option.getD_some]
            omega
      rw [top]
  · obtain ⟨previous, known, reached⟩ : ∃ previous, s.through origin = some previous ∧
        millis ≤ previous := by
      push Not at ahead
      exact ahead
    have same : s.applyServerReadMarker origin millis = s.adjustActivity origin id := by
      simp only [AppState.applyServerReadMarker, known, Option.any_some, reached, decide_true,
        if_true]
    have activity : ∀ x, (s.adjustActivity origin id).activityOf x = s.activityOf x := by
      intro x
      rw [AppState.activityOf_adjustActivity]
      split
      · next here => rw [← here]; rfl
      · rfl
    have through : ∀ x, (s.adjustActivity origin id).through x = s.through x := by
      intro x
      rw [AppState.through_eq, activity, AppState.through_eq]
    rw [same]
    constructor
    · intro x
      exact (tallied x).transport rfl rfl (activity x) through (Nat.le_refl _) fun _ _ => rfl
    · intro x
      rw [through]
      split
      · next here =>
          subst here
          rw [known, raise, Option.getD_some, max_eq_left reached]
      · rfl

theorem marker_setting (origin : Str) (millis : Int) :
    (s.applyServerReadMarker origin millis).setting = s.setting := by
  unfold AppState.applyServerReadMarker
  split
  · rfl
  · rw [AppState.refreshReadActivity_setting]
    exact refreshAll_setting _ _

theorem marker_messageCounter (origin : Str) (millis : Int) :
    (s.applyServerReadMarker origin millis).messageCounter = s.messageCounter := by
  unfold AppState.applyServerReadMarker
  split
  · rfl
  · rw [AppState.refreshReadActivity_messageCounter]
    exact refreshAll_messageCounter _ _

end Markers

section Delivering

variable {P} {s : AppState} {ledger : Ledger} {bufferId : Str}

/-- The level a live row ends up with. -/
def deliveredLevel (s : AppState) (bufferId : Str) (message : Message) (level : ActivityLevel)
    (notice : Option Str) : ActivityLevel :=
  match s.metadataPrepareRow bufferId message with
  | none => .none
  | some (_, maxLevel) => if notice.isSome then .none else min level maxLevel

/-- A state that differs from another in one buffer and its read state only. -/
structure Beyond (bufferId : Str) (s s' : AppState) : Prop where
  setting : s'.setting = s.setting
  counter : s.messageCounter ≤ s'.messageCounter
  through : ∀ x, s'.through x = s.through x
  activity : ∀ x, bufferId ≠ x → s'.activityOf x = s.activityOf x
  buffers : ∀ x, bufferId ≠ x → s'.buffers.get? x = s.buffers.get? x

theorem Beyond.refl (bufferId : Str) (s : AppState) : Beyond bufferId s s :=
  ⟨rfl, Nat.le_refl _, fun _ => rfl, fun _ _ => rfl, fun _ _ => rfl⟩

theorem Beyond.trans {s₁ s₂ s₃ : AppState} (first : Beyond bufferId s₁ s₂)
    (second : Beyond bufferId s₂ s₃) : Beyond bufferId s₁ s₃ where
  setting := second.setting.trans first.setting
  counter := first.counter.trans second.counter
  through x := (second.through x).trans (first.through x)
  activity x other := (second.activity x other).trans (first.activity x other)
  buffers x other := (second.buffers x other).trans (first.buffers x other)

theorem Beyond.recordOrigin (msg : Message) (origin : Str) :
    Beyond bufferId s (s.recordReadOrigin bufferId msg origin) where
  setting := by simp
  counter := by simp
  through := recordReadOrigin_through bufferId msg origin
  activity := recordReadOrigin_other bufferId msg origin
  buffers := by simp

theorem Beyond.recordRow (msg : Message) (origin : Str) (level : ActivityLevel) :
    Beyond bufferId s (recordRow P s bufferId msg origin level) where
  setting := (recordRow_frame bufferId msg origin level).2.1
  counter := (recordRow_frame bufferId msg origin level).2.2.ge
  through := recordRow_through bufferId msg origin level
  activity := recordRow_other bufferId msg origin level
  buffers x _ := by rw [(recordRow_frame bufferId msg origin level).1]

theorem Beyond.recordActivity (level : ActivityLevel) :
    Beyond bufferId s (s.recordActivity bufferId level) where
  setting := by simp
  counter := by simp
  through x := by simp [AppState.through_eq]
  activity := by simp
  buffers := by simp

theorem Beyond.adjustBuffer (f : Buffer → Buffer)
    (keeps : ∀ buffer, (f buffer).outline = buffer.outline) :
    Beyond bufferId s (s.adjustBuffer bufferId f) where
  setting := AppState.adjustBuffer_setting s bufferId f keeps
  counter := Nat.le_refl _
  through _ := rfl
  activity _ _ := rfl
  buffers x other := by rw [AppState.get?_adjustBuffer, if_neg (Ne.symm other)]

theorem Beyond.refresh : Beyond bufferId s (s.refreshReadActivity bufferId) where
  setting := by simp
  counter := by simp
  through := refresh_through bufferId
  activity x other := by
    rw [AppState.refreshReadActivity_activityOf, AppState.activityOf_pruneReadActivity,
      if_neg (Ne.symm other)]
  buffers x other := by rw [AppState.refreshReadActivity_buffers, if_neg (Ne.symm other)]

theorem Beyond.tallied {s' : AppState} {ledger' : Ledger} (beyond : Beyond bufferId s s')
    (x : Str) (other : bufferId ≠ x) (tallied : Tallied P s ledger x)
    (older : ∀ row ∈ s.rowsOf x, ledger' row.id = ledger row.id) : Tallied P s' ledger' x :=
  tallied.transport (beyond.buffers x other) (AppState.uses_of_setting beyond.setting x)
    (beyond.activity x other) beyond.through beyond.counter older

theorem pushMessage_outline (limit : Nat) (message : Message) (buffer : Buffer) :
    (AppState.pushMessage limit message buffer).outline = buffer.outline :=
  enforceScrollback_outline _ _

theorem prepared_id (message prepared : Message) (maxLevel : ActivityLevel)
    (passed : s.metadataPrepareRow bufferId message = some (prepared, maxLevel)) :
    prepared.id = message.id := by
  simp only [AppState.metadataPrepareRow] at passed
  split at passed
  · cases passed
  · split at passed <;> cases passed <;> rfl

/-- A row keeps its id under the policy and under a deletion notice. -/
theorem deliveredRow_id (message prepared : Message) (maxLevel : ActivityLevel)
    (notice : Option Str)
    (passed : s.metadataPrepareRow bufferId message = some (prepared, maxLevel)) :
    ((notice.map (replaceBody prepared)).getD prepared).id = message.id := by
  rw [← prepared_id message prepared maxLevel passed]
  cases notice <;> rfl

/-- What a live delivery does to the rest and, where the server keeps the history, to the buffer:
the row is recorded and pushed, and the counters are refreshed. -/
theorem deliver_spec (message prepared : Message) (level maxLevel : ActivityLevel)
    (notice : Option Str) (passed : s.metadataPrepareRow bufferId message = some (prepared, maxLevel)) :
    Beyond bufferId s (s.deliverMessageToBuffer P bufferId message level notice) ∧
    (s.bufferUsesServerHistory bufferId = true →
      ∃ pushed : AppState,
        s.deliverMessageToBuffer P bufferId message level notice =
          pushed.refreshReadActivity bufferId ∧
        Beyond bufferId s pushed ∧
        ((s.activityOf bufferId).unread.get? message.id = none →
          Recorded P s bufferId ((notice.map (replaceBody prepared)).getD prepared) bufferId
            (deliveredLevel s bufferId message level notice) pushed) ∧
        pushed.buffers.get? bufferId = (s.buffers.get? bufferId).map
          (AppState.pushMessage s.scrollbackLimit
            ((notice.map (replaceBody prepared)).getD prepared))) := by
  have reduced : deliveredLevel s bufferId message level notice =
      if notice.isSome then .none else min level maxLevel := by
    simp only [deliveredLevel, passed]
  rw [reduced]
  simp only [AppState.deliverMessageToBuffer, passed]
  rw [← deliveredRow_id message prepared maxLevel notice passed]
  generalize (notice.map (replaceBody prepared)).getD prepared = msg
  generalize (if notice.isSome = true then ActivityLevel.none else min level maxLevel) = top
  have origin : Beyond bufferId s (s.recordReadOrigin bufferId msg bufferId) :=
    Beyond.recordOrigin msg bufferId
  have row : Beyond bufferId s (recordRow P s bufferId msg bufferId top) :=
    Beyond.recordRow msg bufferId top
  constructor
  · have counted (track : Bool) : Beyond bufferId s
        (if track then (s.recordReadOrigin bufferId msg bufferId).recordReadActivity P bufferId msg
          top else s.recordReadOrigin bufferId msg bufferId) := by
      cases track
      · exact origin
      · exact row
    have raised (escalate : Bool) (s₁ : AppState) (beyond : Beyond bufferId s s₁) :
        Beyond bufferId s (if escalate then s₁.recordActivity bufferId top else s₁) := by
      cases escalate
      · exact beyond
      · exact beyond.trans (Beyond.recordActivity top)
    have pushed (f : Buffer → Buffer) (keeps : ∀ buffer, (f buffer).outline = buffer.outline)
        (s₁ : AppState) (beyond : Beyond bufferId s s₁) : Beyond bufferId s (s₁.adjustBuffer bufferId f) :=
      beyond.trans (Beyond.adjustBuffer f keeps)
    split
    · apply Beyond.trans _ Beyond.refresh
      apply pushed
      · intro buffer
        split <;> exact pushMessage_outline _ _ _
      · exact raised _ _ (counted _)
    · apply pushed
      · intro buffer
        split <;> exact pushMessage_outline _ _ _
      · exact raised _ _ (counted _)
  · intro uses
    simp only [uses, Bool.true_or, if_true, Bool.not_true, Bool.false_and, Bool.true_and,
      Bool.and_true, Bool.false_eq_true, if_false]
    refine ⟨_, rfl, ?_, ?_, ?_⟩
    · apply Beyond.trans _ (Beyond.adjustBuffer _ (pushMessage_outline _ _))
      split
      · exact row.trans (Beyond.recordActivity top)
      · exact row
    · intro absent
      have recorded := recorded_of_origin (P := P) msg bufferId top (fun _ => rfl) uses absent
      apply recorded.congr
      intro x
      rw [AppState.activityOf_adjustBuffer]
      split
      · rw [AppState.recordActivity_activityOf]
      · rfl
    · rw [AppState.get?_adjustBuffer, if_pos rfl]
      have kept := (recordRow_frame (P := P) (s := s) bufferId msg bufferId top).1
      split
      · rw [AppState.recordActivity_buffers]
        exact congrArg (fun buffers => (Map.get? buffers bufferId).map _) kept
      · exact congrArg (fun buffers => (Map.get? buffers bufferId).map _) kept

/-- No row of a buffer whose history the server keeps has this id. -/
def Fresh (s : AppState) (id : Nat) : Prop :=
  ∀ x, s.bufferUsesServerHistory x = true → id ∉ (s.rowsOf x).map Message.id

theorem Ledger.update_older {id : Nat} {entry : Counted} {rows : List Message}
    (fresh : id ∉ rows.map Message.id) :
    ∀ row ∈ rows, Function.update ledger id entry row.id = ledger row.id := by
  intro row member
  apply Function.update_of_ne
  intro same
  exact fresh (same ▸ List.mem_map_of_mem member)

theorem Tallied.held {x : Str} {buffer : Buffer} (tallied : Tallied P s ledger x)
    (found : s.buffers.get? x = some buffer) (uses : s.bufferUsesServerHistory x = true) :
    Noted P s ledger x buffer.messages ∧ Held s x buffer.messages :=
  ⟨(tallied buffer found uses).1, (tallied buffer found uses).2.held⟩

theorem rowsOf_eq {x : Str} {buffer : Buffer} (found : s.buffers.get? x = some buffer) :
    s.rowsOf x = buffer.messages := by
  simp only [AppState.rowsOf, found]

theorem unread_absent {rows : List Message} {id : Nat} (held : Held s bufferId rows)
    (fresh : id ∉ rows.map Message.id) : (s.activityOf bufferId).unread.get? id = none := by
  by_contra present
  exact fresh (held id (Option.isSome_iff_ne_none.mpr present))

/-- A live delivery keeps every buffer tallied. -/
theorem deliver_tallied (message : Message) (level : ActivityLevel) (notice : Option Str)
    (tallied : ∀ x, Tallied P s ledger x) (fresh : Fresh s message.id)
    (number : message.id ≤ s.messageCounter) (x : Str) :
    Tallied P (s.deliverMessageToBuffer P bufferId message level notice)
      (Function.update ledger message.id
        ⟨deliveredLevel s bufferId message level notice, bufferId⟩) x := by
  have elsewhere (s' : AppState) (beyond : Beyond bufferId s s') (other : bufferId ≠ x) :
      Tallied P s' (Function.update ledger message.id
        ⟨deliveredLevel s bufferId message level notice, bufferId⟩) x := by
    by_cases uses : s.bufferUsesServerHistory x = true
    · exact beyond.tallied x other (tallied x) (Ledger.update_older (fresh x uses))
    · intro buffer _ server
      rw [AppState.uses_of_setting beyond.setting] at server
      exact absurd server uses
  cases passed : s.metadataPrepareRow bufferId message with
  | none =>
      have same : s.deliverMessageToBuffer P bufferId message level notice = s := by
        simp only [AppState.deliverMessageToBuffer, passed]
      rw [same]
      intro buffer found uses
      have beyond : Beyond bufferId s s := Beyond.refl bufferId s
      exact (tallied x).transport rfl rfl rfl (fun _ => rfl) (Nat.le_refl _)
        (Ledger.update_older (fresh x uses)) buffer found uses
  | some outcome =>
      obtain ⟨prepared, maxLevel⟩ := outcome
      obtain ⟨beyond, server⟩ := deliver_spec (P := P) message prepared level maxLevel notice passed
      by_cases here : bufferId = x
      · subst here
        by_cases uses : s.bufferUsesServerHistory bufferId = true
        · obtain ⟨pushed, same, around, recorded, stored⟩ := server uses
          rw [same]
          have noted : NotedAt P pushed (Function.update ledger message.id
              ⟨deliveredLevel s bufferId message level notice, bufferId⟩) bufferId := by
            intro buffer found _
            rw [stored] at found
            obtain ⟨old, before, rfl⟩ := Option.map_eq_some_iff.mp found
            obtain ⟨oldNoted, held⟩ := (tallied bufferId).held before uses
            have unlisted := fresh bufferId uses
            rw [rowsOf_eq before] at unlisted
            have id := deliveredRow_id message prepared maxLevel notice passed
            have added : Noted P pushed (Function.update ledger message.id
                ⟨deliveredLevel s bufferId message level notice, bufferId⟩) bufferId
                (old.messages ++ [(notice.map (replaceBody prepared)).getD prepared]) ∧ _ :=
              noted_add oldNoted held (id ▸ unlisted) (id ▸ number.trans around.counter)
                around.counter (List.perm_append_singleton _ _)
                (by rw [id]; exact Function.update_self ..) (Ledger.update_older unlisted)
                (recorded (unread_absent held unlisted))
            obtain ⟨excess, kept⟩ := enforceScrollback_messages
              { old with messages := old.messages ++
                [(notice.map (replaceBody prepared)).getD prepared] } s.scrollbackLimit
            have rows : (AppState.pushMessage s.scrollbackLimit
                ((notice.map (replaceBody prepared)).getD prepared) old).messages =
              (old.messages ++ [(notice.map (replaceBody prepared)).getD prepared]).drop excess := kept
            rw [rows]
            exact added.1.transport (List.drop_sublist _ _) (Nat.le_refl _) (fun _ => rfl)
              (fun _ _ => rfl) (fun _ _ => rfl) fun _ _ => rfl
          exact refresh_tallied bufferId bufferId noted (Or.inl rfl)
        · intro buffer _ again
          rw [AppState.uses_of_setting beyond.setting] at again
          exact absurd again uses
      · exact elsewhere _ beyond here

end Delivering

section Paging

variable {P} {s s₀ : AppState} {ledger ledger₀ : Ledger} {bufferId origin : Str}

/-- The level a history row counts with; the user's own rows have none. -/
def pageLevel (P : Platform) (s : AppState) (bufferId : Str) (row : Message) : ActivityLevel :=
  if s.isOwnHistoryMessage bufferId row (s.ownNickOf bufferId) then .none
  else s.historyLevel P bufferId row (s.ownNickOf bufferId)

theorem pageLevel_of_setting {a b : AppState} (same : a.setting = b.setting) (row : Message) :
    pageLevel P a bufferId row = pageLevel P b bufferId row := by
  have nick : a.ownNickOf bufferId = b.ownNickOf bufferId := by
    simp only [AppState.ownNickOf, AppState.connectionNamed_of_setting same]
  simp only [pageLevel, nick, AppState.isOwnHistoryMessage_of_setting same,
    AppState.historyLevel_of_setting same]

theorem recordHistory_frame (msg : Message) (ownNick : Option Str) :
    (s.recordHistoryReadActivity P bufferId msg ownNick).buffers = s.buffers ∧
    (s.recordHistoryReadActivity P bufferId msg ownNick).messageCounter = s.messageCounter := by
  have counted (t : AppState) (level : ActivityLevel) :
      (t.recordReadActivity P bufferId msg level).buffers = t.buffers ∧
      (t.recordReadActivity P bufferId msg level).messageCounter = t.messageCounter :=
    have spec := AppState.recordReadActivity_spec (P := P) t bufferId msg level
    ⟨spec.1, spec.2.2.1⟩
  unfold AppState.recordHistoryReadActivity
  split
  · exact ⟨rfl, rfl⟩
  · simp only
    split
    · exact counted _ _
    · have both := counted (s.recordActivity bufferId
        (s.historyLevel P bufferId msg ownNick)) (s.historyLevel P bufferId msg ownNick)
      rwa [AppState.recordActivity_buffers, AppState.recordActivity_messageCounter] at both

theorem recordHistory_beyond (msg : Message) (ownNick : Option Str) :
    Beyond bufferId s (s.recordHistoryReadActivity P bufferId msg ownNick) := by
  have counted (t : AppState) (level : ActivityLevel) (beyond : Beyond bufferId s t) :
      Beyond bufferId s (t.recordReadActivity P bufferId msg level) := by
    obtain ⟨buffers, setting, counter, order, activity⟩ :=
      AppState.recordReadActivity_spec (P := P) t bufferId msg level
    apply beyond.trans
    refine ⟨setting, counter.ge, ?_, ?_, fun _ _ => by rw [buffers]⟩
    · intro x
      rw [AppState.through_eq, AppState.through_eq, activity]
      split
      · next both => rw [← both.1]
      · rfl
    · intro x other
      rw [activity, if_neg fun both => other both.1]
  unfold AppState.recordHistoryReadActivity
  split
  · exact Beyond.refl bufferId s
  · apply counted
    split
    · exact Beyond.refl bufferId s
    · exact Beyond.recordActivity _

theorem recordHistory_recorded {t : AppState} (msg : Message) (ownNick : Option Str)
    (setting : t.setting = s.setting)
    (same : ∀ x, t.activityOf x = (s.recordReadOrigin bufferId msg origin).activityOf x)
    (nick : ownNick = s.ownNickOf bufferId) (uses : s.bufferUsesServerHistory bufferId = true)
    (absent : (s.activityOf bufferId).unread.get? msg.id = none) :
    Recorded P s bufferId msg origin (pageLevel P s bufferId msg)
      (t.recordHistoryReadActivity P bufferId msg ownNick) := by
  have server : t.bufferUsesServerHistory bufferId = true :=
    (AppState.uses_of_setting setting bufferId).trans uses
  have own := AppState.isOwnHistoryMessage_of_setting setting bufferId msg ownNick
  have level := AppState.historyLevel_of_setting (P := P) setting bufferId msg ownNick
  subst nick
  cases mine : s.isOwnHistoryMessage bufferId msg (s.ownNickOf bufferId) with
  | true =>
      have quiet : t.recordHistoryReadActivity P bufferId msg (s.ownNickOf bufferId) =
          t.recordReadActivity P bufferId msg .none := by
        simp [AppState.recordHistoryReadActivity, AppState.recordReadActivity, own, mine]
      have none : pageLevel P s bufferId msg = .none := by simp only [pageLevel, mine, if_true]
      rw [quiet, none]
      exact recorded_of_origin msg origin .none same uses absent
  | false =>
      have counted : pageLevel P s bufferId msg =
          s.historyLevel P bufferId msg (s.ownNickOf bufferId) := by
        simp only [pageLevel, mine, Bool.false_eq_true, if_false]
      rw [counted]
      simp only [AppState.recordHistoryReadActivity, server, own, mine, level, Bool.not_true,
        Bool.or_self, Bool.false_eq_true, if_false]
      split
      · exact recorded_of_origin msg origin _ same uses absent
      · apply recorded_of_origin msg origin _ _ uses absent
        intro x
        rw [AppState.recordActivity_activityOf]
        exact same x

/-- What one splice does: the row is numbered, recorded under the page's origin and inserted. -/
theorem spliceRow_spec (before : Bool) (msg : Message) :
    Beyond bufferId s (s.spliceRow P bufferId before origin msg) ∧
    (s.spliceRow P bufferId before origin msg).messageCounter = s.messageCounter + 1 ∧
    (s.spliceRow P bufferId before origin msg).buffers.get? bufferId =
      (s.buffers.get? bufferId).map (fun buffer =>
        { buffer with messages :=
            insertByTime before (msg.withId (s.messageCounter + 1)) buffer.messages }) ∧
    (s.bufferUsesServerHistory bufferId = true →
      (s.activityOf bufferId).unread.get? (s.messageCounter + 1) = none →
      Recorded P s bufferId (msg.withId (s.messageCounter + 1)) origin
        (pageLevel P s bufferId (msg.withId (s.messageCounter + 1)))
        (s.spliceRow P bufferId before origin msg)) := by
  have numbered : Beyond bufferId s { s with messageCounter := s.messageCounter + 1 } :=
    ⟨rfl, Nat.le_succ _, fun _ => rfl, fun _ _ => rfl, fun _ _ => rfl⟩
  have recorded := numbered.trans ((Beyond.recordOrigin (msg.withId (s.messageCounter + 1))
    origin).trans (recordHistory_beyond (P := P) (msg.withId (s.messageCounter + 1))
      (s.ownNickOf bufferId)))
  refine ⟨recorded.trans (Beyond.adjustBuffer _ fun _ => rfl), ?_, ?_, ?_⟩
  · change ((AppState.recordReadOrigin _ _ _ _).recordHistoryReadActivity P _ _ _).messageCounter = _
    rw [(recordHistory_frame _ _).2, AppState.recordReadOrigin_messageCounter]
  · simp only [AppState.spliceRow, AppState.nextMessageId]
    rw [AppState.get?_adjustBuffer, if_pos rfl, (recordHistory_frame _ _).1,
      AppState.recordReadOrigin_buffers]
  · intro uses absent
    have after : Recorded P { s with messageCounter := s.messageCounter + 1 } bufferId
        (msg.withId (s.messageCounter + 1)) origin _ _ :=
      recordHistory_recorded (msg.withId (s.messageCounter + 1)) (s.ownNickOf bufferId)
        (AppState.recordReadOrigin_setting bufferId (msg.withId (s.messageCounter + 1)) origin)
        (fun _ => rfl) rfl uses absent
    exact ⟨after.through, after.originOf, after.unread⟩

/-- Where the loop over a page stands: rows it has spliced are in the ledger under the page's
origin, everything older is as it was. -/
structure Spliced (P : Platform) (s₀ : AppState) (ledger₀ : Ledger) (bufferId origin : Str)
    (s : AppState) (ledger : Ledger) : Prop where
  beyond : Beyond bufferId s₀ s
  others : ∀ x, bufferId ≠ x → Tallied P s ledger x
  noted : ∀ buffer, s.buffers.get? bufferId = some buffer →
    s.bufferUsesServerHistory bufferId = true →
    Noted P s ledger bufferId buffer.messages ∧ Held s bufferId buffer.messages
  older : ∀ id, id ≤ s₀.messageCounter → ledger id = ledger₀ id
  newer : s.bufferUsesServerHistory bufferId = true → ∀ row ∈ s.rowsOf bufferId,
    s₀.messageCounter < row.id → ledger row.id = ⟨pageLevel P s₀ bufferId row, origin⟩

theorem Spliced.step (before : Bool) (msg : Message)
    (spliced : Spliced P s₀ ledger₀ bufferId origin s ledger) (buffer : Buffer)
    (found : s.buffers.get? bufferId = some buffer) :
    ∃ ledger', Spliced P s₀ ledger₀ bufferId origin (s.spliceRow P bufferId before origin msg)
      ledger' := by
  obtain ⟨beyond, counter, stored, recorded⟩ : Beyond bufferId s
      (s.spliceRow P bufferId before origin msg) ∧ _ := spliceRow_spec before msg
  have bound := spliced.beyond.counter
  have same : pageLevel P s bufferId (msg.withId (s.messageCounter + 1)) =
      pageLevel P s₀ bufferId (msg.withId (s.messageCounter + 1)) :=
    pageLevel_of_setting spliced.beyond.setting _
  refine ⟨Function.update ledger (s.messageCounter + 1)
    ⟨pageLevel P s₀ bufferId (msg.withId (s.messageCounter + 1)), origin⟩,
    spliced.beyond.trans beyond, ?_, ?_, ?_, ?_⟩
  · intro x other
    by_cases uses : s.bufferUsesServerHistory x = true
    · apply beyond.tallied x other (spliced.others x other)
      apply Ledger.update_older
      intro listed
      obtain ⟨row, member, number⟩ := List.mem_map.mp listed
      cases here : s.buffers.get? x with
      | none => simp [AppState.rowsOf, here] at member
      | some old =>
          rw [rowsOf_eq here] at member
          have handed := (spliced.others x other old here uses).1.handedOut row member
          omega
    · intro old _ server
      rw [AppState.uses_of_setting beyond.setting] at server
      exact absurd server uses
  · intro after here uses
    rw [AppState.uses_of_setting beyond.setting] at uses
    rw [stored, found] at here
    cases here
    obtain ⟨noted, held⟩ := spliced.noted buffer found uses
    have fresh : s.messageCounter + 1 ∉ buffer.messages.map Message.id := by
      intro listed
      obtain ⟨row, member, number⟩ := List.mem_map.mp listed
      have handed := noted.handedOut row member
      omega
    have known := recorded uses (unread_absent held fresh)
    rw [same] at known
    have unlisted : (msg.withId (s.messageCounter + 1)).id ∉ buffer.messages.map Message.id := fresh
    exact noted_add noted held unlisted (counter ▸ Nat.le_refl _) beyond.counter
      (insertByTime_perm before _ buffer.messages) (Function.update_self ..)
      (Ledger.update_older unlisted) known
  · intro id old
    rw [Function.update_of_ne (by omega)]
    exact spliced.older id old
  · intro uses row member new
    rw [AppState.uses_of_setting beyond.setting] at uses
    rw [AppState.rowsOf, stored, found] at member
    have either := (insertByTime_perm before (msg.withId (s.messageCounter + 1))
      buffer.messages).subset member
    rcases List.mem_cons.mp either with rfl | old
    · exact Function.update_self ..
    · have handed := (spliced.noted buffer found uses).1.handedOut row old
      rw [Function.update_of_ne (by omega)]
      exact spliced.newer uses row (by rw [rowsOf_eq found]; exact old) new

theorem Spliced.loop (before : Bool) (rows : List Message) (s' : AppState) (times : List Int)
    (spliced : Spliced P s₀ ledger₀ bufferId origin s ledger)
    (done : AppState.spliceRows P bufferId before origin s rows = some (s', times)) :
    ∃ ledger', Spliced P s₀ ledger₀ bufferId origin s' ledger' := by
  induction rows generalizing s ledger times with
  | nil =>
      cases done
      exact ⟨ledger, spliced⟩
  | cons msg rest ih =>
      unfold AppState.spliceRows at done
      cases found : s.buffers.get? bufferId with
      | none => simp [found] at done
      | some buffer =>
          simp only [found] at done
          split at done
          · exact ih _ spliced done
          · obtain ⟨⟨after, later⟩, rest', same⟩ := Option.map_eq_some_iff.mp done
            cases same
            obtain ⟨next, stepped⟩ := spliced.step before msg buffer found
            exact ih _ stepped rest'

theorem Spliced.start (tallied : ∀ x, Tallied P s ledger x) :
    Spliced P s ledger bufferId origin s ledger where
  beyond := Beyond.refl bufferId s
  others x _ := tallied x
  noted _ found uses := (tallied bufferId).held found uses
  older _ _ := rfl
  newer uses row member new := by
    cases found : s.buffers.get? bufferId with
    | none => simp [AppState.rowsOf, found] at member
    | some buffer =>
        rw [rowsOf_eq found] at member
        have handed := (tallied bufferId buffer found uses).1.handedOut row member
        omega

/-- The ledger after a page: its rows are the ones with new ids. -/
def pageLedger (P : Platform) (s after : AppState) (ledger : Ledger) (bufferId origin : Str) :
    Ledger := fun id =>
  if id ≤ s.messageCounter then ledger id
  else
    match (after.rowsOf bufferId).find? fun row => row.id == id with
    | some row => ⟨pageLevel P s bufferId row, origin⟩
    | none => ⟨.none, bufferId⟩

theorem pageLedger_older {after : AppState} {id : Nat} (old : id ≤ s.messageCounter) :
    pageLedger P s after ledger bufferId origin id = ledger id := by
  simp only [pageLedger, old, if_true]

theorem pageLedger_newer {after : AppState} {row : Message}
    (distinct : ((after.rowsOf bufferId).map Message.id).Nodup) (member : row ∈ after.rowsOf bufferId)
    (new : s.messageCounter < row.id) :
    pageLedger P s after ledger bufferId origin row.id = ⟨pageLevel P s bufferId row, origin⟩ := by
  have found : ((after.rowsOf bufferId).find? fun other => other.id == row.id) = some row := by
    cases search : (after.rowsOf bufferId).find? fun other => other.id == row.id with
    | none =>
        have missing := List.find?_eq_none.mp search row member
        simp at missing
    | some other =>
        have same : other.id = row.id := by simpa using List.find?_some search
        rw [List.inj_on_of_nodup_map distinct (List.mem_of_find?_eq_some search) member same]
  simp only [pageLedger, if_neg (Nat.not_le.mpr new), found]

theorem Tallied.relabel {x : Str} {ledger' : Ledger} (tallied : Tallied P s ledger x)
    (agree : s.bufferUsesServerHistory x = true →
      ∀ row ∈ s.rowsOf x, ledger' row.id = ledger row.id) : Tallied P s ledger' x := by
  intro buffer found uses
  exact tallied.transport rfl rfl rfl (fun _ => rfl) (Nat.le_refl _) (agree uses) buffer found uses

/-- The last step changes counters, never rows. -/
theorem finish_rows (x : Str) : (s.finishHistoryReadActivity bufferId).rowsOf x = s.rowsOf x := by
  unfold AppState.finishHistoryReadActivity
  split
  · exact refreshAll_messages [bufferId] s x
  · rfl

theorem finish_beyond : Beyond bufferId s (s.finishHistoryReadActivity bufferId) := by
  unfold AppState.finishHistoryReadActivity
  split
  · exact Beyond.refresh
  · exact Beyond.refl bufferId s

/-- The state a page leaves, between the loop and the refresh. -/
theorem surface_eq (rows : List Message) (before : Bool) :
    s.surfaceHistoryPageFromTarget P bufferId rows before origin = s ∨
    ∃ spliced times,
      AppState.spliceRows P bufferId before origin s
        (s.prepareMetadataHistoryRows rows before origin) = some (spliced, times) ∧
      s.surfaceHistoryPageFromTarget P bufferId rows before origin =
        (spliced.adjustBuffer bufferId fun buffer =>
          enforceScrollback
            { buffer with messages := sweepPlaceholders buffer.messages times }
            s.scrollbackLimit).finishHistoryReadActivity bufferId := by
  cases done : AppState.spliceRows P bufferId before origin s
      (s.prepareMetadataHistoryRows rows before origin) with
  | none =>
      left
      simp only [AppState.surfaceHistoryPageFromTarget, done]
  | some result =>
      right
      refine ⟨result.1, result.2, rfl, ?_⟩
      simp only [AppState.surfaceHistoryPageFromTarget, done]

/-- A page of history keeps every buffer tallied and moves no marker. -/
theorem surface_tallied (rows : List Message) (before : Bool)
    (tallied : ∀ x, Tallied P s ledger x) :
    Beyond bufferId s (s.surfaceHistoryPageFromTarget P bufferId rows before origin) ∧
    ∀ x, Tallied P (s.surfaceHistoryPageFromTarget P bufferId rows before origin)
      (pageLedger P s (s.surfaceHistoryPageFromTarget P bufferId rows before origin) ledger
        bufferId origin) x := by
  have oldest {x : Str} {row : Message} (uses : s.bufferUsesServerHistory x = true)
      (member : row ∈ s.rowsOf x) : row.id ≤ s.messageCounter := by
    cases found : s.buffers.get? x with
    | none => simp [AppState.rowsOf, found] at member
    | some buffer =>
        rw [rowsOf_eq found] at member
        exact (tallied x buffer found uses).1.handedOut row member
  rcases surface_eq (P := P) (s := s) rows before with closed | ⟨spliced, times, done, same⟩
  · rw [closed]
    exact ⟨Beyond.refl bufferId s, fun x => (tallied x).relabel fun uses row member =>
      pageLedger_older (oldest uses member)⟩
  · obtain ⟨after, loop⟩ := (Spliced.start tallied).loop before _ spliced times done
    rw [same]
    generalize shape : (fun buffer : Buffer => enforceScrollback
      { buffer with messages := sweepPlaceholders buffer.messages times } s.scrollbackLimit) = trim
    have keeps : ∀ buffer, (trim buffer).outline = buffer.outline := by
      intro buffer
      rw [← shape]
      exact enforceScrollback_outline _ _
    have kept : ∀ buffer, (trim buffer).messages.Sublist buffer.messages := by
      intro buffer
      rw [← shape]
      obtain ⟨excess, drop⟩ := enforceScrollback_messages
        { buffer with messages := sweepPlaceholders buffer.messages times } s.scrollbackLimit
      exact drop ▸ (List.drop_sublist _ _).trans (sweepPlaceholders_sublist _ _)
    have trimmed : Beyond bufferId spliced (spliced.adjustBuffer bufferId trim) :=
      Beyond.adjustBuffer trim keeps
    have around := (loop.beyond.trans trimmed).trans finish_beyond
    refine ⟨around, ?_⟩
    have shown (x : Str) : Tallied P
        ((spliced.adjustBuffer bufferId trim).finishHistoryReadActivity bufferId) after x := by
      by_cases here : bufferId = x
      · subst here
        intro buffer found uses
        have server : (spliced.adjustBuffer bufferId trim).bufferUsesServerHistory bufferId = true := by
          rw [← AppState.uses_of_setting finish_beyond.setting]
          exact uses
        have noted : NotedAt P (spliced.adjustBuffer bufferId trim) after bufferId := by
          intro cut there _
          rw [AppState.get?_adjustBuffer, if_pos rfl] at there
          obtain ⟨whole, held, rfl⟩ := Option.map_eq_some_iff.mp there
          have uncut : spliced.bufferUsesServerHistory bufferId = true := by
            rw [← AppState.uses_of_setting trimmed.setting]
            exact server
          exact (loop.noted whole held uncut).1.transport (kept whole) (Nat.le_refl _)
            (fun _ => rfl) (fun _ _ => rfl) (fun _ _ => rfl) fun _ _ => rfl
        have refreshed := refresh_tallied bufferId bufferId noted (Or.inl rfl)
        simp only [AppState.finishHistoryReadActivity, server, if_true] at found uses ⊢
        exact refreshed buffer found uses
      · exact (trimmed.trans finish_beyond).tallied x here (loop.others x here) fun _ _ => rfl
    intro x
    apply (shown x).relabel
    intro uses row member
    by_cases old : row.id ≤ s.messageCounter
    · rw [pageLedger_older old, loop.older row.id old]
    · by_cases here : bufferId = x
      · subst here
        have distinct : ((((spliced.adjustBuffer bufferId trim).finishHistoryReadActivity
            bufferId).rowsOf bufferId).map Message.id).Nodup := by
          cases found : ((spliced.adjustBuffer bufferId trim).finishHistoryReadActivity
              bufferId).buffers.get? bufferId with
          | none => simp [AppState.rowsOf, found]
          | some buffer =>
              rw [rowsOf_eq found]
              exact (shown bufferId buffer found uses).1.distinct
        rw [pageLedger_newer distinct member (by omega)]
        rw [AppState.uses_of_setting (trimmed.trans finish_beyond).setting] at uses
        rw [finish_rows, AppState.rowsOf, AppState.get?_adjustBuffer, if_pos rfl] at member
        cases found : spliced.buffers.get? bufferId with
        | none => simp [found] at member
        | some whole =>
            rw [found] at member
            have inside : row ∈ spliced.rowsOf bufferId := by
              rw [rowsOf_eq found]
              exact (kept whole).subset member
            exact (loop.newer uses row inside (by omega)).symm
      · rw [AppState.uses_of_setting around.setting] at uses
        rw [AppState.rowsOf, around.buffers x here] at member
        exact absurd (oldest uses member) old

end Paging

end Repartee.State
