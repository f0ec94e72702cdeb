import Repartee.Lib.Flow
import Repartee.Irc.ChatHistory

/-!
What holds of the history requests along every run: one request a target, watermarks that only
fall, exhaustion only through a short page that closed well, and a bound on chained pages.
-/

namespace Repartee.Irc

open Text Lib

section Invariant

/-- No target has two requests in flight, whatever its case. -/
structure OneInFlight (h : HistoryState) : Prop where
  folded : ∀ e ∈ h.inFlight, asciiLower e.1.1 = e.1.1
  single : ∀ a ∈ h.inFlight, ∀ b ∈ h.inFlight, a.1.1 = b.1.1 → a = b

/-- The oldest line pulled for a target is still on record, or an older one is. -/
def NoLater (t : Str) (h h' : HistoryState) : Prop :=
  ∀ line ∈ h.oldestFetched.get? t, ∃ line' ∈ h'.oldestFetched.get? t, line'.1 ≤ line.1

theorem NoLater.refl (t : Str) (h : HistoryState) : NoLater t h h :=
  fun line found => ⟨line, found, le_refl _⟩

theorem NoLater.trans {t : Str} {h h' h'' : HistoryState} (first : NoLater t h h')
    (second : NoLater t h' h'') : NoLater t h h'' := by
  intro line found
  obtain ⟨line', found', older⟩ := first line found
  obtain ⟨line'', found'', older'⟩ := second line' found'
  exact ⟨line'', found'', le_trans older' older⟩

theorem noLater_of_same {t : Str} {h h' : HistoryState} (same : h'.oldestFetched = h.oldestFetched) :
    NoLater t h h' := by
  intro line found
  exact ⟨line, by rw [same]; exact found, le_refl _⟩

/-- Requests were only answered or released. -/
def Fewer (h h' : HistoryState) : Prop := ∀ e ∈ h'.inFlight, e ∈ h.inFlight

theorem OneInFlight.fewer {h h' : HistoryState} (one : OneInFlight h) (fewer : Fewer h h') :
    OneInFlight h' where
  folded e member := one.folded e (fewer e member)
  single a inA b inB same := one.single a (fewer a inA) b (fewer b inB) same

theorem OneInFlight.request {h : HistoryState} (one : OneInFlight h) (now : Nat) (target : Str)
    (dir : Direction) (limit : Nat) (capEnabled : Bool) :
    OneInFlight (h.request now target dir limit capEnabled) := by
  unfold HistoryState.request
  split
  · rename_i should
    have free : ∀ e ∈ h.inFlight, e.1.1 ≠ asciiLower target := by
      simp only [HistoryState.shouldRequest, HistoryState.anyInFlight, Bool.and_eq_true,
        Bool.not_eq_true', List.any_eq_false, decide_eq_true_eq] at should
      exact should.1.2
    simp only [HistoryState.markInFlight, Map.insert]
    constructor
    · intro e member
      rcases (Table.mem_replace _ _ _).mp member with ⟨before, _⟩ | rfl
      · exact one.folded e before
      · exact asciiLower_asciiLower target
    · intro a inA b inB same
      rcases (Table.mem_replace _ _ _).mp inA with ⟨inA, _⟩ | rfl
      · rcases (Table.mem_replace _ _ _).mp inB with ⟨inB, _⟩ | rfl
        · exact one.single a inA b inB same
        · exact absurd same (free a inA)
      · rcases (Table.mem_replace _ _ _).mp inB with ⟨inB, _⟩ | rfl
        · exact absurd same.symm (free b inB)
        · rfl
  · exact one

end Invariant

section Settling

variable (target : Str) (rows : Nat) (cleanEnd : Bool)

/-- A page shorter than the request it answers, closed well, of the history before. -/
def endsBefore (request : Direction × Nat) : Bool :=
  cleanEnd && decide (request.1 = .before) && decide (rows < request.2)

/-- What answering some requests of a target does. -/
structure Settled (requests : List (Direction × Nat)) (h h' : HistoryState) : Prop where
  fewer : Fewer h h'
  exhausted : ∀ t, t ∈ h'.beforeExhausted ↔
    t ∈ h.beforeExhausted ∨ t = asciiLower target ∧ requests.any (endsBefore rows cleanEnd) = true
  fetched : h'.oldestFetched = h.oldestFetched
  ingested : h'.oldestIngested = h.oldestIngested
  pages : h'.gapfillPages = h.gapfillPages

theorem settled_settle (request : Direction × Nat) (h : HistoryState) :
    Settled target rows cleanEnd [request] h (h.settle target rows cleanEnd request) := by
  have fewer (h' : HistoryState) (same : h'.inFlight = h.inFlight.erase (target, request.1)) :
      Fewer h h' := by
    intro e member
    rw [same, Table.mem_erase] at member
    exact member.1
  unfold HistoryState.settle
  simp only
  split
  · rename_i short
    have ends : endsBefore rows cleanEnd request = true := short
    refine ⟨fewer _ rfl, ?_, rfl, rfl, rfl⟩
    intro t
    simp [HistoryState.markBeforeExhausted, ends, or_comm]
  · rename_i long
    have goes : endsBefore rows cleanEnd request = false := Bool.eq_false_iff.mpr long
    refine ⟨fewer _ rfl, ?_, rfl, rfl, rfl⟩
    intro t
    simp [goes]

theorem settled_fold (requests : List (Direction × Nat)) (h : HistoryState) :
    Settled target rows cleanEnd requests h
      (requests.foldl (fun h request => h.settle target rows cleanEnd request) h) := by
  induction requests generalizing h with
  | nil => exact ⟨fun e member => member, fun t => by simp, rfl, rfl, rfl⟩
  | cons request rest ih =>
      have first := settled_settle target rows cleanEnd request h
      have later := ih (h.settle target rows cleanEnd request)
      refine ⟨fun e member => first.fewer e (later.fewer e member), ?_,
        later.fetched.trans first.fetched, later.ingested.trans first.ingested,
        later.pages.trans first.pages⟩
      intro t
      rw [List.foldl_cons, later.exhausted, first.exhausted]
      simp only [List.any_cons, List.any_nil, Bool.or_false, Bool.or_eq_true]
      tauto

end Settling

section Completing

variable (h : HistoryState) (target : Str) (rows : Nat) (oldest : Option (Int × Option Str))
  (cleanEnd : Bool)

/-- A page that closed well, shorter than the request for the history before it answers. -/
def ShortBeforePage (t : Str) : Prop :=
  asciiLower target = t ∧ cleanEnd = true ∧
    ∃ limit sent, h.inFlight.get? (t, .before) = some (limit, sent) ∧ rows < limit

/-- What a completion does. -/
structure Completed (h' : HistoryState) : Prop where
  fewer : Fewer h h'
  kept : ∀ t ∈ h.beforeExhausted, t ∈ h'.beforeExhausted
  exhausted : ∀ t ∈ h'.beforeExhausted,
    t ∈ h.beforeExhausted ∨ ShortBeforePage h target rows cleanEnd t
  fetched : ∀ t, NoLater t h h'
  unclean : cleanEnd = false →
    h'.beforeExhausted = h.beforeExhausted ∧ h'.oldestFetched = h.oldestFetched
  ingested : h'.oldestIngested = h.oldestIngested
  pages : h'.gapfillPages = h.gapfillPages

theorem noLater_lowerFetched (t key : Str) (line : Int × Option Str) :
    NoLater t h (h.lowerFetched key line) := by
  intro before found
  simp only [HistoryState.lowerFetched, Map.get?_insert]
  by_cases here : key = t
  · subst here
    rw [Option.mem_def] at found
    simp only [found, if_true]
    split
    · rename_i older
      exact ⟨line, rfl, le_of_lt older⟩
    · exact ⟨before, rfl, le_refl _⟩
  · rw [if_neg here]
    exact ⟨before, found, le_refl _⟩

theorem completed_completeTarget :
    Completed h target rows cleanEnd (h.completeTarget target rows oldest cleanEnd) := by
  let key := asciiLower target
  let requests := (h.inFlight.rows.filter fun e => decide (e.1.1 = key)).map fun e => (e.1.2, e.2.1)
  let advances := cleanEnd && requests.any fun c => decide (c.1 = .before)
  let lowered := oldest.elim h fun oldest => if advances then h.lowerFetched key oldest else h
  let answered := if requests = [] then lowered
    else { lowered with completion := lowered.completion.insert key cleanEnd }
  have settled : Settled key rows cleanEnd requests answered
      (h.completeTarget target rows oldest cleanEnd) := by
    have spelled : h.completeTarget target rows oldest cleanEnd =
        requests.foldl (fun h request => h.settle key rows cleanEnd request) answered := by
      cases oldest <;> rfl
    rw [spelled]
    exact settled_fold key rows cleanEnd requests answered
  have same : answered.inFlight = h.inFlight ∧ answered.beforeExhausted = h.beforeExhausted ∧
      answered.oldestIngested = h.oldestIngested ∧ answered.gapfillPages = h.gapfillPages ∧
      (cleanEnd = false → answered.oldestFetched = h.oldestFetched) ∧
      ∀ t, NoLater t h answered := by
    have frame : lowered.inFlight = h.inFlight ∧ lowered.beforeExhausted = h.beforeExhausted ∧
        lowered.oldestIngested = h.oldestIngested ∧ lowered.gapfillPages = h.gapfillPages ∧
        (cleanEnd = false → lowered.oldestFetched = h.oldestFetched) ∧
        ∀ t, NoLater t h lowered := by
      simp only [lowered]
      cases oldest with
      | none => exact ⟨rfl, rfl, rfl, rfl, fun _ => rfl, fun t => NoLater.refl t h⟩
      | some line =>
          simp only [Option.elim_some]
          split
          · rename_i moves
            refine ⟨rfl, rfl, rfl, rfl, ?_, fun t => noLater_lowerFetched h t key line⟩
            intro unclean
            simp [advances, unclean] at moves
          · exact ⟨rfl, rfl, rfl, rfl, fun _ => rfl, fun t => NoLater.refl t h⟩
    simp only [answered]
    split
    · exact frame
    · exact frame
  have lower : asciiLower key = key := asciiLower_asciiLower target
  refine ⟨?_, ?_, ?_, ?_, ?_, settled.ingested.trans same.2.2.1, settled.pages.trans same.2.2.2.1⟩
  · intro e member
    rw [← same.1]
    exact settled.fewer e member
  · intro t member
    exact (settled.exhausted t).mpr (Or.inl (by rwa [same.2.1]))
  · intro t member
    rcases (settled.exhausted t).mp member with before | ⟨here, short⟩
    · exact Or.inl (by rwa [← same.2.1])
    · rw [lower] at here
      obtain ⟨request, among, ends⟩ := List.any_eq_true.mp short
      simp only [requests, List.mem_map, List.mem_filter, decide_eq_true_eq] at among
      obtain ⟨⟨⟨t', dir⟩, limit, sent⟩, ⟨row, mine⟩, rfl⟩ := among
      simp only [endsBefore, Bool.and_eq_true, decide_eq_true_eq] at ends
      obtain ⟨⟨closed, back⟩, few⟩ := ends
      refine Or.inr ⟨here.symm, closed, limit, sent, ?_, few⟩
      rw [Map.get?_eq_some, here]
      subst mine back
      exact row
  · intro t
    exact (same.2.2.2.2.2 t).trans (noLater_of_same settled.fetched)
  · intro unclean
    refine ⟨?_, settled.fetched.trans (same.2.2.2.2.1 unclean)⟩
    ext t
    rw [settled.exhausted, same.2.1]
    simp [endsBefore, unclean]

end Completing

section Pages

variable (unicode : Unicode)

/-- The pages counted for a target, up to the cap. -/
def pagesOf (key : Str) (h : HistoryState) : Nat :=
  min ((h.gapfillPages.get? key).getD 0) maxGapfillPages

/-- One more page is counted, unless the cap is reached. -/
theorem pagesOf_note (key target : Str) (h : HistoryState) :
    pagesOf key h + (if (h.noteGapfillPage unicode target).1 = true ∧
      unicode.toLowercase target = key then 1 else 0) ≤
        pagesOf key (h.noteGapfillPage unicode target).2 := by
  simp only [pagesOf, HistoryState.noteGapfillPage, Map.get?_insert, decide_eq_true_eq]
  by_cases here : unicode.toLowercase target = key
  · simp only [here, and_true, if_true, Option.getD_some]
    split <;> omega
  · simp [here]

end Pages

section Resetting

variable (h : HistoryState) (names : List Str)

/-- What starting the paging of some buffers anew does. -/
structure Restarted (h' : HistoryState) : Prop where
  inFlight : h'.inFlight = h.inFlight
  exhausted : ∀ t ∈ h'.beforeExhausted, t ∈ h.beforeExhausted
  fetched : ∀ t, (∀ name ∈ names, asciiLower name ≠ t) → NoLater t h h'
  pages : h'.gapfillPages = h.gapfillPages

theorem restarted_resetPagination (name : Str) : Restarted h [name] (h.resetPagination name) where
  inFlight := rfl
  exhausted t member := Finset.mem_of_mem_erase member
  fetched t other := by
    intro line found
    have kept : asciiLower name ≠ t := other name List.mem_cons_self
    refine ⟨line, ?_, le_refl _⟩
    rw [Option.mem_def, HistoryState.resetPagination, Map.get?_erase, if_neg kept]
    exact found
  pages := rfl

theorem restarted_fold : Restarted h names (names.foldl HistoryState.resetPagination h) := by
  induction names generalizing h with
  | nil => exact ⟨rfl, fun _ member => member, fun t _ => NoLater.refl t h, rfl⟩
  | cons name rest ih =>
      have first := restarted_resetPagination h name
      have later := ih (h.resetPagination name)
      refine ⟨later.inFlight.trans first.inFlight, ?_, ?_, later.pages.trans first.pages⟩
      · exact fun t member => first.exhausted t (later.exhausted t member)
      · intro t other
        have mine := first.fetched t fun n inside => other n (by simp_all)
        exact mine.trans (later.fetched t fun n inside => other n (List.mem_cons_of_mem name inside))

end Resetting

section Batches

variable (unicode : Unicode) (h : HistoryState) (serverOwned : Bool) (page : HistoryBatch)

/-- The buffers whose paging the batch starts anew. -/
def restartedBy : List Str :=
  if collectDisplay h serverOwned page && serverOwned &&
    decide (h.inFlightDirection page.target = some .before) then page.surfaced else []

/-- What a completed history batch does. -/
structure Processed (next : Option GapfillContinuation) (h' : HistoryState) : Prop where
  fewer : Fewer h h'
  exhausted : ∀ t ∈ h'.beforeExhausted,
    t ∈ h.beforeExhausted ∨ ShortBeforePage h page.target page.rows page.cleanEnd t
  fetched : ∀ t, (∀ name ∈ restartedBy h serverOwned page, asciiLower name ≠ t) → NoLater t h h'
  unclean : page.cleanEnd = false → next = none ∧ h'.beforeExhausted = h.beforeExhausted ∧
    h'.oldestFetched = h.oldestFetched ∧
    (page.outcome.oldestIngestedMs = none → h'.oldestIngested = h.oldestIngested)
  pages : ∀ key, pagesOf key h +
    (if next.any fun c => decide (unicode.toLowercase c.target = key) then 1 else 0) ≤ pagesOf key h'

theorem nextPage_target (afterLimit : Option Nat) (next : GapfillContinuation)
    (found : nextPage h page afterLimit = some next) :
    next.target = page.target ∧ page.cleanEnd = true := by
  unfold nextPage at found
  split at found
  · split at found
    · rename_i calls
      simp only [Bool.and_eq_true] at calls
      cases found
      exact ⟨rfl, calls.1.1⟩
    · cases found
  · cases found

/-- What counting a page does. -/
structure Chained (next : Option GapfillContinuation) (h' : HistoryState) : Prop where
  inFlight : h'.inFlight = h.inFlight
  exhausted : h'.beforeExhausted = h.beforeExhausted
  fetched : h'.oldestFetched = h.oldestFetched
  ingested : h'.oldestIngested = h.oldestIngested
  unclean : page.cleanEnd = false → next = none
  pages : ∀ key, pagesOf key h +
    (if next.any fun c => decide (unicode.toLowercase c.target = key) then 1 else 0) ≤ pagesOf key h'

theorem chained_chainPage (afterLimit : Option Nat) : Chained unicode h page
    (chainPage unicode h page afterLimit).1 (chainPage unicode h page afterLimit).2 := by
  unfold chainPage
  split
  · exact ⟨rfl, rfl, rfl, rfl, fun _ => rfl, fun key => by simp⟩
  · rename_i next found
    obtain ⟨same, clean⟩ := nextPage_target h page afterLimit next found
    have closed : page.cleanEnd ≠ false := by simp [clean]
    refine ⟨rfl, rfl, rfl, rfl, fun unclean => absurd unclean closed, ?_⟩
    intro key
    have counted := pagesOf_note unicode key page.target h
    simp only
    by_cases more : (h.noteGapfillPage unicode page.target).1 = true
    · simpa [more, same] using counted
    · simpa [more] using counted

theorem processed_processHistoryBatch :
    Processed unicode h serverOwned page (processHistoryBatch unicode h serverOwned page).1
      (processHistoryBatch unicode h serverOwned page).2 := by
  let afterLimit :=
    if decide (h.inFlightDirection page.target = some .after) && !h.displaySuppressed page.target then
      h.requestedLimit page.target .after
    else none
  let done := h.completeTarget page.target page.rows page.outcome.oldest page.cleanEnd
  let stored := page.outcome.oldestIngestedMs.elim done fun ms =>
    if decide (h.inFlightDirection page.target = some Direction.before)
      then done.noteOldestIngested page.target ms else done
  let paged := chainPage unicode stored page afterLimit
  have shape : processHistoryBatch unicode h serverOwned page =
      (paged.1, (restartedBy h serverOwned page).foldl HistoryState.resetPagination paged.2) := by
    simp only [paged, stored, processHistoryBatch]
    cases page.outcome.oldestIngestedMs <;> rfl
  have completed : Completed h page.target page.rows page.cleanEnd done :=
    completed_completeTarget h page.target page.rows page.outcome.oldest page.cleanEnd
  have storing : stored.inFlight = done.inFlight ∧ stored.beforeExhausted = done.beforeExhausted ∧
      stored.oldestFetched = done.oldestFetched ∧ stored.gapfillPages = done.gapfillPages ∧
      (page.outcome.oldestIngestedMs = none → stored.oldestIngested = done.oldestIngested) := by
    simp only [stored]
    cases page.outcome.oldestIngestedMs with
    | none => exact ⟨rfl, rfl, rfl, rfl, fun _ => rfl⟩
    | some ms =>
        simp only [Option.elim_some]
        split
        · exact ⟨rfl, rfl, rfl, rfl, fun none => by cases none⟩
        · exact ⟨rfl, rfl, rfl, rfl, fun none => by cases none⟩
  have paging := chained_chainPage unicode stored page afterLimit
  have restarted := restarted_fold paged.2 (restartedBy h serverOwned page)
  rw [shape]
  refine ⟨?_, ?_, ?_, ?_, ?_⟩
  · intro e member
    rw [restarted.inFlight, paging.inFlight, storing.1] at member
    exact completed.fewer e member
  · intro t member
    have before := restarted.exhausted t member
    rw [paging.exhausted, storing.2.1] at before
    exact completed.exhausted t before
  · intro t other
    have kept : NoLater t done paged.2 := noLater_of_same (paging.fetched.trans storing.2.2.1)
    exact ((completed.fetched t).trans kept).trans (restarted.fetched t other)
  · intro unclean
    have none : restartedBy h serverOwned page = [] := by
      simp only [restartedBy, collectDisplay, unclean]
      cases serverOwned <;> cases decide (h.inFlightDirection page.target = some .before) <;> simp
    obtain ⟨ended, pulled⟩ := completed.unclean unclean
    simp only [none, List.foldl_nil]
    refine ⟨paging.unclean unclean, ?_, ?_, ?_⟩
    · rw [paging.exhausted, storing.2.1, ended]
    · rw [paging.fetched, storing.2.2.1, pulled]
    · intro nothing
      rw [paging.ingested, storing.2.2.2.2 nothing, completed.ingested]
  · intro key
    have counted := paging.pages key
    simp only [pagesOf, restarted.pages, storing.2.2.2.1, completed.pages] at counted ⊢
    exact counted

end Batches

section Events

variable (unicode : Unicode) (h : HistoryState) (event : HistoryEvent)

/-- The event starts the paging of a target anew. -/
def HistoryEvent.restarts (t : Str) : Prop :=
  match event with
  | .reset target => asciiLower target = t
  | .batch serverOwned page _ _ _ => ∃ name ∈ restartedBy h serverOwned page, asciiLower name = t
  | _ => False

/-- The event is the end, closed well, of a page shorter than the request for the history before. -/
def HistoryEvent.endsHistory (t : Str) : Prop :=
  match event with
  | .batch _ page _ _ _ => ShortBeforePage h page.target page.rows page.cleanEnd t
  | .complete target rows _ cleanEnd => ShortBeforePage h target rows cleanEnd t
  | _ => False

/-- A completion that did not close well, or the release of stale requests. -/
def HistoryEvent.unclean : Bool :=
  match event with
  | .batch _ page _ _ _ => !page.cleanEnd
  | .complete _ _ _ cleanEnd => !cleanEnd
  | .clearStale _ _ => true
  | _ => false

/-- The event stores no line of a history batch. -/
def HistoryEvent.storesNothing : Bool :=
  match event with
  | .batch _ page _ _ _ => page.outcome.oldestIngestedMs.isNone
  | _ => true

def HistoryEvent.connects : Bool :=
  match event with
  | .connect _ => true
  | _ => false

/-- One when the event is a batch that calls for the next page of the target. -/
def chained (key : Str) (h : HistoryState) (event : HistoryEvent) : Nat :=
  match event with
  | .batch serverOwned page _ _ _ =>
      if (processHistoryBatch unicode h serverOwned page).1.any
        fun c => decide (unicode.toLowercase c.target = key) then 1 else 0
  | _ => 0

/-- What an event does to requests, exhaustion, watermarks and page counts. -/
structure Stepped (h' : HistoryState) : Prop where
  one : OneInFlight h → OneInFlight h'
  exhausted : ∀ t ∈ h'.beforeExhausted, t ∈ h.beforeExhausted ∨ event.endsHistory h t
  fetched : ∀ t, ¬event.restarts h t → NoLater t h h'
  unclean : event.unclean = true → h'.beforeExhausted = h.beforeExhausted ∧
    h'.oldestFetched = h.oldestFetched ∧
    (event.storesNothing = true → h'.oldestIngested = h.oldestIngested)
  pages : event.connects = false → ∀ key,
    pagesOf key h + chained unicode key h event ≤ pagesOf key h'

/-- An event that leaves exhaustion, watermarks and page counts alone. -/
theorem stepped_of_same (h' : HistoryState) (one : OneInFlight h → OneInFlight h')
    (exhausted : h'.beforeExhausted = h.beforeExhausted)
    (fetched : h'.oldestFetched = h.oldestFetched)
    (ingested : h'.oldestIngested = h.oldestIngested) (pages : h'.gapfillPages = h.gapfillPages)
    (quiet : ∀ key, chained unicode key h event = 0) : Stepped unicode h event h' where
  one := one
  exhausted t member := Or.inl (by rwa [← exhausted])
  fetched t _ := noLater_of_same fetched
  unclean _ := ⟨exhausted, fetched, fun _ => ingested⟩
  pages _ key := by rw [quiet, pagesOf, pagesOf, pages, add_zero]

/-- Releasing stale requests only releases requests. -/
theorem released_clearStale (keys : List (Str × Direction)) :
    let h' := keys.foldl HistoryState.releaseStale h
    Fewer h h' ∧ h'.beforeExhausted = h.beforeExhausted ∧ h'.oldestFetched = h.oldestFetched ∧
      h'.oldestIngested = h.oldestIngested ∧ h'.gapfillPages = h.gapfillPages := by
  induction keys generalizing h with
  | nil => exact ⟨fun e member => member, rfl, rfl, rfl, rfl⟩
  | cons key rest ih =>
      obtain ⟨fewer, same⟩ := ih (h.releaseStale key)
      refine ⟨?_, same⟩
      intro e member
      have kept := fewer e member
      simp only [HistoryState.releaseStale, Table.mem_erase] at kept
      exact kept.1

theorem request_frame (now : Nat) (target : Str) (dir : Direction) (limit : Nat)
    (capEnabled : Bool) :
    let h' := h.request now target dir limit capEnabled
    h'.beforeExhausted = h.beforeExhausted ∧ h'.oldestFetched = h.oldestFetched ∧
      h'.oldestIngested = h.oldestIngested ∧ h'.gapfillPages = h.gapfillPages := by
  unfold HistoryState.request
  split
  · exact ⟨rfl, rfl, rfl, rfl⟩
  · exact ⟨rfl, rfl, rfl, rfl⟩

theorem stepped_batch (serverOwned : Bool) (page : HistoryBatch) (now limit : Nat)
    (capEnabled : Bool) :
    let event := HistoryEvent.batch serverOwned page now limit capEnabled
    Stepped unicode h event (event.exec unicode h) := by
  intro event
  have processed := processed_processHistoryBatch unicode h serverOwned page
  have last : event.exec unicode h = (processHistoryBatch unicode h serverOwned page).2 ∨
      ∃ next, (processHistoryBatch unicode h serverOwned page).1 = some next ∧
        event.exec unicode h = (processHistoryBatch unicode h serverOwned page).2.request now
          next.target .after limit capEnabled := by
    simp only [event, HistoryEvent.exec]
    cases (processHistoryBatch unicode h serverOwned page).1 with
    | none => exact Or.inl rfl
    | some next => exact Or.inr ⟨next, rfl, rfl⟩
  have frame : (event.exec unicode h).beforeExhausted =
        (processHistoryBatch unicode h serverOwned page).2.beforeExhausted ∧
      (event.exec unicode h).oldestFetched =
        (processHistoryBatch unicode h serverOwned page).2.oldestFetched ∧
      (event.exec unicode h).oldestIngested =
        (processHistoryBatch unicode h serverOwned page).2.oldestIngested ∧
      (event.exec unicode h).gapfillPages =
        (processHistoryBatch unicode h serverOwned page).2.gapfillPages := by
    rcases last with same | ⟨next, _, same⟩
    · rw [same]
      exact ⟨rfl, rfl, rfl, rfl⟩
    · rw [same]
      exact request_frame _ now next.target .after limit capEnabled
  obtain ⟨exhausted, fetched, ingested, pages⟩ := frame
  refine ⟨?_, ?_, ?_, ?_, ?_⟩
  · intro one
    have fewer := one.fewer processed.fewer
    rcases last with same | ⟨next, _, same⟩
    · rw [same]
      exact fewer
    · rw [same]
      exact fewer.request now next.target .after limit capEnabled
  · intro t member
    rw [exhausted] at member
    exact processed.exhausted t member
  · intro t goes
    have other : ∀ name ∈ restartedBy h serverOwned page, asciiLower name ≠ t :=
      fun name among same => goes ⟨name, among, same⟩
    exact (processed.fetched t other).trans (noLater_of_same fetched)
  · intro unclean
    have open_ : page.cleanEnd = false := by simpa [event, HistoryEvent.unclean] using unclean
    obtain ⟨_, ended, pulled, stored⟩ := processed.unclean open_
    refine ⟨exhausted.trans ended, fetched.trans pulled, ?_⟩
    intro nothing
    rw [ingested]
    exact stored (by simpa [event, HistoryEvent.storesNothing] using nothing)
  · intro _ key
    have counted := processed.pages key
    have same : pagesOf key (event.exec unicode h) =
        pagesOf key (processHistoryBatch unicode h serverOwned page).2 := by
      rw [pagesOf, pagesOf, pages]
    rw [same]
    exact counted

theorem stepped_exec : Stepped unicode h event (event.exec unicode h) := by
  cases event with
  | request now target dir limit capEnabled =>
      obtain ⟨exhausted, fetched, ingested, pages⟩ :=
        request_frame h now target dir limit capEnabled
      exact stepped_of_same unicode h _ _ (fun one => one.request now target dir limit capEnabled)
        exhausted fetched ingested pages fun _ => rfl
  | batch serverOwned page now limit capEnabled =>
      exact stepped_batch unicode h serverOwned page now limit capEnabled
  | complete target rows oldest cleanEnd =>
      have completed := completed_completeTarget h target rows oldest cleanEnd
      refine ⟨fun one => one.fewer completed.fewer, completed.exhausted,
        fun t _ => completed.fetched t, ?_, ?_⟩
      · intro unclean
        have open_ : cleanEnd = false := by simpa [HistoryEvent.unclean] using unclean
        obtain ⟨ended, pulled⟩ := completed.unclean open_
        exact ⟨ended, pulled, fun _ => completed.ingested⟩
      · intro _ key
        simp only [pagesOf, HistoryEvent.exec, completed.pages, chained, add_zero, le_refl]
  | clearStale now timeout =>
      obtain ⟨fewer, exhausted, fetched, ingested, pages⟩ := released_clearStale h
        ((h.inFlight.rows.filter fun e => decide (timeout ≤ now - e.2.2)).map Prod.fst)
      exact stepped_of_same unicode h _ _ (fun one => one.fewer fewer) exhausted fetched ingested
        pages fun _ => rfl
  | connect nowMs =>
      exact ⟨fun one => one.fewer fun _ member => member, fun t member => Or.inl member, fun t _ => noLater_of_same rfl,
        fun unclean => (by cases unclean), fun connects => by cases connects⟩
  | suppress target =>
      have frame : (h.suppressPendingDisplay target).inFlight = h.inFlight ∧
          (h.suppressPendingDisplay target).beforeExhausted = h.beforeExhausted ∧
          (h.suppressPendingDisplay target).oldestFetched = h.oldestFetched ∧
          (h.suppressPendingDisplay target).oldestIngested = h.oldestIngested ∧
          (h.suppressPendingDisplay target).gapfillPages = h.gapfillPages := by
        unfold HistoryState.suppressPendingDisplay
        split
        · exact ⟨rfl, rfl, rfl, rfl, rfl⟩
        · exact ⟨rfl, rfl, rfl, rfl, rfl⟩
      obtain ⟨inFlight, exhausted, fetched, ingested, pages⟩ := frame
      exact stepped_of_same unicode h _ _ (fun one => one.fewer fun e member => by
        rwa [HistoryEvent.exec, inFlight] at member) exhausted fetched ingested pages fun _ => rfl
  | claim target =>
      exact stepped_of_same unicode h _ _ (fun one => one.fewer fun _ member => member) rfl rfl rfl
        rfl fun _ => rfl
  | unclaim target =>
      exact stepped_of_same unicode h _ _ (fun one => one.fewer fun _ member => member) rfl rfl rfl
        rfl fun _ => rfl
  | close target =>
      exact stepped_of_same unicode h _ _ (fun one => one.fewer fun _ member => member) rfl rfl rfl
        rfl fun _ => rfl
  | reset target =>
      have restarted := restarted_resetPagination h target
      refine ⟨fun one => one.fewer fun _ member => member,
        fun t member => Or.inl (restarted.exhausted t member), ?_, ?_, ?_⟩
      · intro t goes
        apply restarted.fetched t
        intro name among same
        rw [List.mem_singleton.mp among] at same
        exact goes same
      · intro unclean
        cases unclean
      · intro _ key
        exact le_refl _

end Events

section Runs

variable (unicode : Unicode)

theorem reachable_oneInFlight (events : List HistoryEvent) :
    OneInFlight (runFrom (HistoryEvent.exec unicode) .new events) := by
  apply runFrom_invariant OneInFlight
  · exact fun h event one => (stepped_exec unicode h event).one one
  · exact ⟨fun e member => absurd member (Table.not_mem_empty e),
      fun a member => absurd member (Table.not_mem_empty a)⟩

theorem noLater_run (h : HistoryState) (events : List HistoryEvent) (t : Str)
    (along : Along (fun h event => ¬event.restarts h t) (HistoryEvent.exec unicode) h events) :
    NoLater t h (runFrom (HistoryEvent.exec unicode) h events) := by
  have step (s : HistoryState) (event : HistoryEvent) (held : NoLater t h s)
      (goes : ¬event.restarts s t) : NoLater t h (event.exec unicode s) :=
    held.trans ((stepped_exec unicode s event).fetched t goes)
  exact along.invariant step (NoLater.refl t h)

/-- The batches that call for the next page of a target between two connections. -/
theorem chained_le (h : HistoryState) (events : List HistoryEvent) (key : Str)
    (connected : Along (fun _ event => event.connects = false) (HistoryEvent.exec unicode) h events) :
    runSum (HistoryEvent.exec unicode) (chained unicode key) h events ≤ maxGapfillPages := by
  have bound := runSum_bound (pagesOf key) (chained unicode key) (fun _ _ => 0)
    (fun s event stays => by simpa using (stepped_exec unicode s event).pages stays key) h events
      connected
  have capped : pagesOf key (runFrom (HistoryEvent.exec unicode) h events) ≤ maxGapfillPages :=
    Nat.min_le_right _ _
  rw [runSum_zero] at bound
  omega

/-- After every sequence of events whose requests are gated: no target has two requests in flight;
the oldest line pulled for a target never moves later but by starting its paging anew; only a short
page of the history before, closed well, ends it; a completion that did not close well and the
release of stale requests leave exhaustion and the oldest line pulled alone, and the oldest line
stored unless one was stored; and until the next connection a target is paged on at most as often
as the cap says. -/
theorem history_paging_sound (events : List HistoryEvent) :
    let h := runFrom (HistoryEvent.exec unicode) .new events
    OneInFlight h ∧
      (∀ more t, Along (fun h event => ¬event.restarts h t) (HistoryEvent.exec unicode) h more →
        NoLater t h (runFrom (HistoryEvent.exec unicode) h more)) ∧
      (∀ (event : HistoryEvent) t, t ∈ (event.exec unicode h).beforeExhausted →
        t ∉ h.beforeExhausted → event.endsHistory h t) ∧
      (∀ event : HistoryEvent, event.unclean = true →
        (event.exec unicode h).beforeExhausted = h.beforeExhausted ∧
        (event.exec unicode h).oldestFetched = h.oldestFetched ∧
        (event.storesNothing = true →
          (event.exec unicode h).oldestIngested = h.oldestIngested)) ∧
      ∀ more key, Along (fun _ event => event.connects = false) (HistoryEvent.exec unicode) h more →
        runSum (HistoryEvent.exec unicode) (chained unicode key) h more ≤ maxGapfillPages := by
  intro h
  refine ⟨reachable_oneInFlight unicode events, noLater_run unicode h, ?_, ?_, chained_le unicode h⟩
  · intro event t member fresh
    exact ((stepped_exec unicode h event).exhausted t member).resolve_left fresh
  · exact fun event => (stepped_exec unicode h event).unclean

end Runs

section Chains

/-- One when the event sends a request. -/
def sends (unicode : Unicode) (h : HistoryState) (event : HistoryEvent) : Nat :=
  match event with
  | .request _ target dir _ capEnabled => if h.shouldRequest target dir capEnabled then 1 else 0
  | .batch serverOwned page _ _ capEnabled =>
      match processHistoryBatch unicode h serverOwned page with
      | (some next, h') => if h'.shouldRequest next.target .after capEnabled then 1 else 0
      | (none, _) => 0
  | _ => 0

def roomTarget : Str := "#a".toList

/-- A full page whose last line never moves. -/
def stuckPage : HistoryEvent :=
  .batch false ⟨roomTarget, 1, ⟨none, some (5, none), none⟩, [], true⟩ 0 1 true

/-- A gap is being filled, after some pages. -/
def filling (completion : Map Str Bool) (pages : Map Str Nat) : HistoryState :=
  { HistoryState.new with
    inFlight := Map.insert Table.empty (roomTarget, .after) (1, 0)
    completion := completion
    gapfillPages := pages }

theorem stuckPage_chains (completion : Map Str Bool) (pages : Map Str Nat) (count : Nat)
    (counted : (pages.get? roomTarget).getD 0 = count) (few : count < maxGapfillPages) :
    sends .ascii (filling completion pages) stuckPage = 1 ∧
      ∃ completion', stuckPage.exec .ascii (filling completion pages) =
        filling completion' (pages.insert roomTarget (count + 1)) := by
  have lower : Unicode.ascii.toLowercase roomTarget = roomTarget := by decide
  let answered : HistoryState :=
    { filling (completion.insert roomTarget true) pages with
      inFlight := Table.erase (Map.insert Table.empty (roomTarget, .after) (1, 0))
        (roomTarget, .after) }
  have direction : (filling completion pages).inFlightDirection roomTarget = some .after := rfl
  have limit : (filling completion pages).requestedLimit roomTarget .after = some 1 := rfl
  have shown : (filling completion pages).displaySuppressed roomTarget = false := rfl
  have done : (filling completion pages).completeTarget roomTarget 1 none true = answered := rfl
  have processed : processHistoryBatch .ascii (filling completion pages) false
      ⟨roomTarget, 1, ⟨none, some (5, none), none⟩, [], true⟩ =
        (some ⟨roomTarget, 5, none⟩,
          { answered with gapfillPages := pages.insert roomTarget (count + 1) }) := by
    have room : count + 1 ≤ maxGapfillPages := few
    have table : answered.gapfillPages = pages := rfl
    have cutoff : answered.gapfillCutoffMs = none := rfl
    simp [processHistoryBatch, direction, limit, shown, done, chainPage, nextPage,
      HistoryState.noteGapfillPage, lower, table, cutoff, counted, room]
  have asked : { answered with gapfillPages := pages.insert roomTarget (count + 1) }.shouldRequest
      roomTarget .after true = true := rfl
  constructor
  · simp only [sends, stuckPage, processed, asked, if_true]
  · refine ⟨(completion.insert roomTarget true).erase roomTarget, ?_⟩
    simp only [stuckPage, HistoryEvent.exec, processed, HistoryState.request, asked, if_true]
    rfl

/-- Such a page is followed by another as long as the cap allows. -/
theorem stuckPages_chain (more count : Nat) (completion : Map Str Bool) (pages : Map Str Nat)
    (counted : (pages.get? roomTarget).getD 0 = count) (few : count + more ≤ maxGapfillPages) :
    runSum (HistoryEvent.exec .ascii) (sends .ascii) (filling completion pages)
      (List.replicate more stuckPage) = more := by
  induction more generalizing count completion pages with
  | zero => rfl
  | succ more ih =>
      obtain ⟨sent, completion', next⟩ :=
        stuckPage_chains completion pages count counted (by omega)
      have later : (Map.get? (pages.insert roomTarget (count + 1)) roomTarget).getD 0 = count + 1 := by
        simp [Map.get?_insert]
      rw [List.replicate_succ, runSum, sent, next, ih (count + 1) completion' _ later (by omega)]
      omega

theorem chain_sends (more : Nat) (few : more ≤ maxGapfillPages) :
    runSum (HistoryEvent.exec .ascii) (sends .ascii) .new
      (.request 0 roomTarget .after 1 true :: List.replicate more stuckPage) = more + 1 := by
  have first : HistoryEvent.exec .ascii .new (.request 0 roomTarget .after 1 true) =
      filling Table.empty Table.empty := rfl
  have sent : sends .ascii .new (.request 0 roomTarget .after 1 true) = 1 := rfl
  have pages := stuckPages_chain more 0 Table.empty Table.empty rfl (by omega)
  rw [runSum, sent, first, pages]
  omega

/-- A chain makes one request more than the cap says, with the one that opens it; and a batch cut
short lowers the watermark of the lines it stored. -/
theorem gapfill_chain_outruns_cap :
    runSum (HistoryEvent.exec .ascii) (sends .ascii) .new
        (.request 0 roomTarget .after 1 true :: List.replicate maxGapfillPages stuckPage) =
      maxGapfillPages + 1 ∧
    let asked := HistoryState.new.request 0 roomTarget .before 100 true
    let cut := HistoryEvent.batch true ⟨roomTarget, 1, ⟨some (7, none), some (7, none), some 7⟩,
      [], false⟩ 0 100 true
    cut.unclean = true ∧ asked.oldestIngested.get? roomTarget = none ∧
      (cut.exec .ascii asked).oldestIngested.get? roomTarget = some 7 := by
  refine ⟨chain_sends maxGapfillPages (le_refl _), ?_⟩
  decide

end Chains

end Repartee.Irc
