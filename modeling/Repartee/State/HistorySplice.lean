import Repartee.State.ReadConfluence
import Repartee.Lib.Insertion

/-!
A page of history spliced into a buffer: the order of the rows, which of the page's rows come in,
and which rows leave.
-/

namespace Repartee.State

open Text Lib Translate Irc

def stopsAt (before : Bool) (msg m : Message) : Bool :=
  decide (msg.timestamp < m.timestamp ∨ before = true ∧ m.timestamp = msg.timestamp)

theorem insertByTime_eq (before : Bool) (msg : Message) (rows : List Message) :
    insertByTime before msg rows = insertBefore (stopsAt before msg) msg rows := by
  induction rows with
  | nil => rfl
  | cons m rest ih =>
      by_cases stops : msg.timestamp < m.timestamp ∨ before = true ∧ m.timestamp = msg.timestamp
      · simp only [insertByTime, insertBefore, stopsAt, stops, if_true, decide_true]
      · simp only [insertByTime, insertBefore, stopsAt, stops, if_false, decide_false,
          Bool.false_eq_true, ih]

theorem stopsAt_fits (before : Bool) (msg : Message) :
    Fits Message.timestamp (stopsAt before msg) msg where
  stops m stop := by
    rcases of_decide_eq_true stop with later | ⟨_, equal⟩
    · exact le_of_lt later
    · exact equal.ge
  passes m pass := by
    have neither := of_decide_eq_false pass
    exact not_lt.mp fun later => neither (Or.inl later)

/-- Oldest first. -/
abbrev InOrder (rows : List Message) : Prop := Ascending Message.timestamp rows

section Accepting

variable {s : AppState} {bufferId : Str}

/-- Whether a candidate is one of these rows or waits in the reorder queue of the buffer. -/
def knownAmong (s : AppState) (bufferId : Str) (rows : List Message) (msg : Message) : Bool :=
  (rows.any fun m => historyRowMatches m msg (s.candidateKey bufferId msg) (s.ownNickOf bufferId)) ||
    (s.translateQueues.get? bufferId).any fun queue => queue.anyMessage fun m =>
      historyRowMatches m msg (s.candidateKey bufferId msg) (s.ownNickOf bufferId)

theorem alreadyPresent_eq (buffer : Buffer) (msg : Message) :
    s.alreadyPresent bufferId buffer msg = knownAmong s bufferId buffer.messages msg := rfl

theorem knownAmong_of_setting {t : AppState} (same : t.setting = s.setting) (rows : List Message)
    (msg : Message) : knownAmong t bufferId rows msg = knownAmong s bufferId rows msg := by
  have connections := AppState.connections_of_setting same
  have queues : t.translateQueues = s.translateQueues := congrArg Setting.translateQueues same
  simp only [knownAmong, AppState.candidateKey, AppState.storedAs, AppState.ownNickOf,
    AppState.connectionNamed, connections, queues]

theorem knownAmong_mono {rows more : List Message} (inside : ∀ m ∈ rows, m ∈ more) (msg : Message)
    (known : knownAmong s bufferId rows msg = true) : knownAmong s bufferId more msg = true := by
  simp only [knownAmong, Bool.or_eq_true, List.any_eq_true] at known ⊢
  rcases known with ⟨m, member, found⟩ | queued
  · exact Or.inl ⟨m, inside m member, found⟩
  · exact Or.inr queued

/-- The rows of a page that come in, with their ids, in the order they are spliced. -/
def acceptedRows (s : AppState) (bufferId : Str) (before : Bool) :
    Nat → List Message → List Message → List Message
  | _, _, [] => []
  | counter, held, msg :: rest =>
      if knownAmong s bufferId held msg then acceptedRows s bufferId before counter held rest
      else
        msg.withId (counter + 1) :: acceptedRows s bufferId before (counter + 1)
          (insertByTime before (msg.withId (counter + 1)) held) rest

/-- The loop over a page inserts the accepted rows, one after the other. -/
theorem spliceRows_eq (P : Platform) (before : Bool) (origin : Str) (rows : List Message)
    (t : AppState) (same : t.setting = s.setting) (buffer : Buffer)
    (found : t.buffers.get? bufferId = some buffer) :
    ∃ t', AppState.spliceRows P bufferId before origin t rows =
        some (t', (acceptedRows s bufferId before t.messageCounter buffer.messages rows).map
          Message.timestamp) ∧
      t'.buffers.get? bufferId = some { buffer with
        messages := insertAll (stopsAt before)
          (acceptedRows s bufferId before t.messageCounter buffer.messages rows) buffer.messages } ∧
      t'.setting = s.setting := by
  induction rows generalizing t buffer with
  | nil => exact ⟨t, rfl, found, same⟩
  | cons msg rest ih =>
      unfold AppState.spliceRows acceptedRows
      simp only [found, alreadyPresent_eq, knownAmong_of_setting same]
      cases knownAmong s bufferId buffer.messages msg with
      | true => exact ih t same buffer found
      | false =>
          obtain ⟨beyond, counter, stored, _⟩ : Beyond bufferId t
            (t.spliceRow P bufferId before origin msg) ∧ _ := spliceRow_spec before msg
          rw [found] at stored
          obtain ⟨t', done, after, setting⟩ := ih (t.spliceRow P bufferId before origin msg)
            (beyond.setting.trans same) _ stored
          refine ⟨t', ?_, ?_, setting⟩
          · rw [counter] at done
            simp only [Bool.false_eq_true, if_false, done]
            rfl
          · rw [counter] at after
            rw [after]
            simp only [Bool.false_eq_true, if_false, insertAll_cons, insertByTime_eq]

/-- A row whatever its id. -/
def body (m : Message) : Message := m.withId 0

theorem acceptedRows_sublist (s : AppState) (bufferId : Str) (before : Bool) (counter : Nat)
    (held rows : List Message) :
    ((acceptedRows s bufferId before counter held rows).map body).Sublist (rows.map body) := by
  induction rows generalizing counter held with
  | nil => exact List.Sublist.refl _
  | cons msg rest ih =>
      unfold acceptedRows
      split
      · exact (ih counter held).cons _
      · exact (ih _ _).cons_cons _

theorem mem_insertByTime (before : Bool) (msg : Message) (rows : List Message) (m : Message) :
    m ∈ insertByTime before msg rows ↔ m = msg ∨ m ∈ rows := by
  rw [(insertByTime_perm before msg rows).mem_iff, List.mem_cons]

/-- Every row of the page comes in or is known already. -/
theorem acceptedRows_complete (s : AppState) (bufferId : Str) (before : Bool) (counter : Nat)
    (held rows : List Message) :
    ∀ msg ∈ rows,
      (∃ id, msg.withId id ∈ acceptedRows s bufferId before counter held rows) ∨
        knownAmong s bufferId (held ++ acceptedRows s bufferId before counter held rows) msg =
          true := by
  induction rows generalizing counter held with
  | nil => simp
  | cons first rest ih =>
      intro msg member
      unfold acceptedRows
      cases known : knownAmong s bufferId held first with
      | true =>
          simp only [if_true]
          rcases List.mem_cons.mp member with rfl | later
          · right
            exact knownAmong_mono (fun m inside => List.mem_append_left _ inside) msg known
          · exact ih counter held msg later
      | false =>
          simp only [Bool.false_eq_true, if_false]
          rcases List.mem_cons.mp member with rfl | later
          · exact Or.inl ⟨counter + 1, List.mem_cons_self⟩
          · rcases ih (counter + 1) _ msg later with ⟨id, taken⟩ | knownLater
            · exact Or.inl ⟨id, List.mem_cons_of_mem _ taken⟩
            · right
              refine knownAmong_mono ?_ msg knownLater
              intro m inside
              simp only [List.mem_append, mem_insertByTime, List.mem_cons] at inside ⊢
              tauto

/-- No row that comes in is known among the rows held or those that came in before it. -/
theorem acceptedRows_new (s : AppState) (bufferId : Str) (before : Bool) (counter : Nat)
    (held rows : List Message) :
    (∀ msg ∈ acceptedRows s bufferId before counter held rows,
      knownAmong s bufferId held msg = false) ∧
    (acceptedRows s bufferId before counter held rows).Pairwise
      fun m msg => knownAmong s bufferId [m] msg = false := by
  induction rows generalizing counter held with
  | nil => exact ⟨by simp [acceptedRows], List.Pairwise.nil⟩
  | cons first rest ih =>
      unfold acceptedRows
      cases known : knownAmong s bufferId held first with
      | true =>
          simp only [if_true]
          exact ih counter held
      | false =>
          simp only [Bool.false_eq_true, if_false]
          obtain ⟨fresh, distinct⟩ := ih (counter + 1)
            (insertByTime before (first.withId (counter + 1)) held)
          have unknown (rows : List Message)
              (inside : ∀ m ∈ rows, m ∈ insertByTime before (first.withId (counter + 1)) held)
              (msg : Message) (member : msg ∈ acceptedRows s bufferId before (counter + 1)
                (insertByTime before (first.withId (counter + 1)) held) rest) :
              knownAmong s bufferId rows msg = false := by
            by_contra found
            have there := knownAmong_mono inside msg (by simpa using found)
            rw [fresh msg member] at there
            exact Bool.noConfusion there
          constructor
          · intro msg member
            rcases List.mem_cons.mp member with rfl | later
            · exact known
            · exact unknown held (fun m inside => (mem_insertByTime ..).mpr (Or.inr inside)) msg later
          · refine List.pairwise_cons.mpr ⟨?_, distinct⟩
            intro msg later
            apply unknown [first.withId (counter + 1)] _ msg later
            intro m inside
            exact (mem_insertByTime ..).mpr (Or.inl (List.mem_singleton.mp inside))

end Accepting

section Sweeping

/-- A row that does not read like a placeholder. -/
def isGenuine (m : Message) : Bool := !isE2ePlaceholder m

theorem sweepPlaceholders_genuine (rows : List Message) (budget : List Int) :
    (sweepPlaceholders rows budget).filter isGenuine = rows.filter isGenuine := by
  induction rows generalizing budget with
  | nil => rfl
  | cons m rest ih =>
      unfold sweepPlaceholders
      split
      · next swept =>
          have gone : isGenuine m = false := by simp [isGenuine, swept.1]
          rw [ih, List.filter_cons_of_neg (by simp [gone])]
      · rw [List.filter_cons, List.filter_cons, ih]

/-- At most one row leaves for each mention of its timestamp in the budget. -/
theorem sweepPlaceholders_budget (rows : List Message) (budget : List Int) (time : Int) :
    rows.countP (fun m => m.timestamp == time) ≤
      (sweepPlaceholders rows budget).countP (fun m => m.timestamp == time) + budget.count time := by
  induction rows generalizing budget with
  | nil => simp
  | cons m rest ih =>
      unfold sweepPlaceholders
      split
      · next swept =>
          have rest' := ih (budget.erase m.timestamp)
          rw [List.countP_cons]
          by_cases here : m.timestamp = time
          · subst here
            have stock := List.count_erase_self (a := m.timestamp) (l := budget)
            have some := List.count_pos_iff.mpr swept.2
            simp only [beq_self_eq_true, if_true]
            omega
          · have other : (m.timestamp == time) = false := by simpa using here
            rw [List.count_erase_of_ne (Ne.symm here)] at rest'
            simp only [other, Bool.false_eq_true, if_false]
            omega
      · have rest' := ih budget
        rw [List.countP_cons, List.countP_cons]
        omega

end Sweeping

/-- A page in a buffer: `spliced` are the rows that came in, in the order of the page, and `whole`
the rows before the scrollback drops its oldest. -/
structure PageSpliced (s : AppState) (bufferId : Str) (before : Bool) (old page : List Message)
    (spliced whole : List Message) : Prop where
  /-- The rows are in the order of time, and the buffer's own and the page's keep theirs. -/
  inOrder : InOrder whole
  oldOrder : (old.filter isGenuine).Sublist whole
  pageOrder : (spliced.filter isGenuine).Sublist whole
  /-- Nothing is lost or made up, placeholders apart. -/
  genuine : (whole.filter isGenuine).Perm ((old ++ spliced).filter isGenuine)
  rows : whole.Subperm (old ++ spliced)
  /-- A placeholder leaves only for a row spliced at its very time, and one for each. -/
  superseded : ∀ time, (old ++ spliced).countP (fun m => m.timestamp == time) ≤
    whole.countP (fun m => m.timestamp == time) + spliced.countP fun m => m.timestamp == time
  /-- Every row of the page comes in once or is known. -/
  fromPage : (spliced.map body).Sublist (page.map body)
  complete : ∀ row ∈ page, (∃ id, row.withId id ∈ spliced) ∨
    knownAmong s bufferId (old ++ spliced) row = true
  unknown : ∀ row ∈ spliced, knownAmong s bufferId old row = false
  distinct : (if before then spliced.reverse else spliced).Pairwise
    fun m row => knownAmong s bufferId [m] row = false

/-- The rows of a page that the policy of its origin lets through. -/
def letThrough (s : AppState) (origin : Str) (page : List Message) : List Message :=
  page.filterMap fun row => (s.metadataPrepareRow origin row).map Prod.fst

section Splicing

variable {s : AppState} {bufferId : Str}

theorem prepared_timestamp (origin : Str) (row prepared : Message) (top : ActivityLevel)
    (passed : s.metadataPrepareRow origin row = some (prepared, top)) :
    prepared.timestamp = row.timestamp := by
  simp only [AppState.metadataPrepareRow] at passed
  split at passed
  · cases passed
  · split at passed <;> cases passed <;> rfl

theorem letThrough_inOrder (origin : Str) (page : List Message) (sorted : InOrder page) :
    InOrder (letThrough s origin page) := by
  apply List.Pairwise.filterMap _ _ sorted
  intro a b earlier a' keptA b' keptB
  obtain ⟨⟨_, topA⟩, passedA, rfl⟩ := Option.map_eq_some_iff.mp keptA
  obtain ⟨⟨_, topB⟩, passedB, rfl⟩ := Option.map_eq_some_iff.mp keptB
  rw [prepared_timestamp origin a _ topA passedA, prepared_timestamp origin b _ topB passedB]
  exact earlier

/-- Bodies carry their timestamps, so part of an ordered list of bodies is ordered. -/
theorem ascending_of_body {first second : List Message}
    (part : (first.map body).Sublist (second.map body)) (sorted : InOrder second) :
    InOrder first := by
  have bodies : List.Pairwise (fun a b : Message => a.timestamp ≤ b.timestamp)
      (second.map body) := by
    rw [List.pairwise_map]
    exact sorted
  have firsts := bodies.sublist part
  rw [List.pairwise_map] at firsts
  exact firsts

/-- The rows that came in, in the order of the page. -/
def splicedRows (s : AppState) (bufferId : Str) (before : Bool) (held page : List Message) :
    List Message :=
  if before then (acceptedRows s bufferId before s.messageCounter held page.reverse).reverse
  else acceptedRows s bufferId before s.messageCounter held page

theorem splicedRows_fromPage (before : Bool) (held page : List Message) :
    ((splicedRows s bufferId before held page).map body).Sublist (page.map body) := by
  cases before with
  | false => exact acceptedRows_sublist s bufferId false s.messageCounter held page
  | true =>
      have part := (acceptedRows_sublist s bufferId true s.messageCounter held
        page.reverse).reverse
      rw [← List.map_reverse, ← List.map_reverse, List.reverse_reverse] at part
      exact part

/-- The rows of a page land in the order of the page. -/
theorem splicedRows_order (s : AppState) (bufferId : Str) (before : Bool)
    (held page : List Message) (sorted : InOrder held) (pageSorted : InOrder page) :
    (splicedRows s bufferId before held page).Sublist
      (insertAll (stopsAt before)
        (acceptedRows s bufferId before s.messageCounter held
          (if before then page.reverse else page)) held) := by
  have ascending : InOrder (splicedRows s bufferId before held page) :=
    ascending_of_body (splicedRows_fromPage before held page) pageSorted
  cases before with
  | false =>
      have behind : ∀ x a, stopsAt false x a = true → x.timestamp < a.timestamp := by
        intro x a stop
        simpa [stopsAt] using stop
      have placed := append_sublist_insertAll (stopsAt_fits false) behind
        (acceptedRows s bufferId false s.messageCounter held page) held [] sorted
        (List.nil_sublist _) ascending
      exact placed
  | true =>
      have ahead : ∀ x a, stopsAt true x a = false → a.timestamp < x.timestamp := by
        intro x a pass
        simp only [stopsAt, decide_eq_false_iff_not, true_and, not_or, not_lt] at pass
        omega
      have placed := reverse_sublist_insertAll ahead
        (acceptedRows s bufferId true s.messageCounter held page.reverse) held []
        (List.nil_sublist _) (by rw [List.append_nil]; exact ascending)
      rw [List.append_nil] at placed
      exact placed

theorem finish_open {t : AppState} {cut : Buffer} (found : t.buffers.get? bufferId = some cut) :
    ∃ after, (t.finishHistoryReadActivity bufferId).buffers.get? bufferId = some after ∧
      after.messages = cut.messages := by
  unfold AppState.finishHistoryReadActivity
  split
  · rw [AppState.refreshReadActivity_buffers, if_pos rfl, found]
    exact ⟨_, rfl, rfl⟩
  · exact ⟨cut, found, rfl⟩

theorem splicedRows_perm (s : AppState) (bufferId : Str) (before : Bool) (held page : List Message) :
    (acceptedRows s bufferId before s.messageCounter held
      (if before then page.reverse else page)).Perm (splicedRows s bufferId before held page) := by
  cases before with
  | false => exact List.Perm.refl _
  | true => exact (List.reverse_perm _).symm

/-- What the loop and the sweep make of a buffer. -/
theorem page_spliced (before : Bool) (held page : List Message) (sorted : InOrder held)
    (pageSorted : InOrder page) :
    PageSpliced s bufferId before held page (splicedRows s bufferId before held page)
      (sweepPlaceholders
        (insertAll (stopsAt before) (acceptedRows s bufferId before s.messageCounter held
          (if before then page.reverse else page)) held)
        ((acceptedRows s bufferId before s.messageCounter held
          (if before then page.reverse else page)).map Message.timestamp)) := by
  have order := splicedRows_order s bufferId before held page sorted pageSorted
  have perm := splicedRows_perm s bufferId before held page
  have complete := acceptedRows_complete s bufferId before s.messageCounter held
    (if before then page.reverse else page)
  obtain ⟨fresh, distinct⟩ := acceptedRows_new s bufferId before
    s.messageCounter held (if before then page.reverse else page)
  have inReverse : (if before then (splicedRows s bufferId before held page).reverse
      else splicedRows s bufferId before held page) =
        acceptedRows s bufferId before s.messageCounter held
          (if before then page.reverse else page) := by
    cases before with
    | false => rfl
    | true => exact List.reverse_reverse _
  generalize acceptedRows s bufferId before s.messageCounter held
    (if before then page.reverse else page) = accepted at *
  have whole : (insertAll (stopsAt before) accepted held).Perm (held ++ accepted) :=
    insertAll_perm accepted held
  have together : (insertAll (stopsAt before) accepted held).Perm
      (held ++ splicedRows s bufferId before held page) := whole.trans (perm.append_left held)
  have swept := sweepPlaceholders_genuine (insertAll (stopsAt before) accepted held)
    (accepted.map Message.timestamp)
  have genuine {rows : List Message} (part : rows.Sublist (insertAll (stopsAt before) accepted held)) :
      (rows.filter isGenuine).Sublist (sweepPlaceholders (insertAll (stopsAt before) accepted held)
        (accepted.map Message.timestamp)) := by
    have front := part.filter isGenuine
    rw [← swept] at front
    exact front.trans List.filter_sublist
  constructor
  · exact (ascending_insertAll (stopsAt_fits before) accepted held sorted).sublist
      (sweepPlaceholders_sublist _ _)
  · exact genuine (sublist_insertAll accepted held)
  · exact genuine order
  · rw [swept]
    exact together.filter isGenuine
  · exact (sweepPlaceholders_sublist _ _).subperm.trans together.subperm
  · intro time
    have bound := sweepPlaceholders_budget (insertAll (stopsAt before) accepted held)
      (accepted.map Message.timestamp) time
    have mentions : (accepted.map Message.timestamp).count time =
        (splicedRows s bufferId before held page).countP fun m => m.timestamp == time := by
      rw [List.count, List.countP_map]
      exact perm.countP_eq _
    rw [together.countP_eq, mentions] at bound
    exact bound
  · exact splicedRows_fromPage before held page
  · intro row member
    have inList : row ∈ (if before then page.reverse else page) := by
      cases before with
      | false => exact member
      | true => exact List.mem_reverse.mpr member
    rcases complete row inList with ⟨id, taken⟩ | known
    · exact Or.inl ⟨id, perm.subset taken⟩
    · right
      refine knownAmong_mono ?_ row known
      intro m inside
      exact (perm.append_left held).subset inside
  · intro row member
    exact fresh row (perm.symm.subset member)
  · rw [inReverse]
    exact distinct

end Splicing

def lineAt (id : Nat) (time : Int) (text : String) : Message where
  text := text.toList
  wireOrigin := none
  rest :=
    { id := id
      timestamp := time
      messageType := .message
      nick := some "peer".toList
      highlight := false
      eventKey := none
      tags := none
      logKey := none
      redactionMsgid := none }

/-- A channel that shows one line, under a scrollback limit. -/
def oneLineChannel (scrollback : Nat) : AppState :=
  { bouncerChannel scrollback with messageCounter := 1 }.adjustBuffer "b/#r".toList fun buffer =>
    { buffer with messages := [lineAt 1 10 "now"] }

end Repartee.State
