import Repartee.Irc.Scrollback

/-!
Runs of scrolling back: when every page moves the oldest line on record to an earlier time or ends
the history, and leaves no message behind.
-/

namespace Repartee.Irc

open Text Lib

section Answers

variable (unicode : Unicode) (h : HistoryState) (target : Str) (now limit : Nat)

theorem requests_marked (idle : h.anyInFlight target = false) :
    (h.markInFlight now target .before limit).inFlight.rows.filter
      (fun e => decide (e.1.1 = asciiLower target)) =
      [((asciiLower target, .before), (limit, now))] := by
  have free : ∀ e ∈ h.inFlight.rows, e.1.1 ≠ asciiLower target := by
    intro e member same
    have flying : h.anyInFlight target = true :=
      List.any_eq_true.mpr ⟨e, member, decide_eq_true same⟩
    rw [idle] at flying
    cases flying
  have rows : (h.markInFlight now target .before limit).inFlight.rows =
      (h.inFlight.erase (asciiLower target, .before)).rows ++
        [((asciiLower target, .before), (limit, now))] := rfl
  have others : (h.inFlight.erase (asciiLower target, .before)).rows.filter
      (fun e => decide (e.1.1 = asciiLower target)) = [] := by
    apply List.filter_eq_nil_iff.mpr
    intro e member
    have before : e ∈ h.inFlight := ((Table.mem_erase _ _ _).mp member).1
    simpa using free e before
  rw [rows, List.filter_append, others]
  simp

theorem direction_marked (idle : h.anyInFlight target = false) :
    (h.markInFlight now target .before limit).inFlightDirection target = some .before := by
  have found := congrArg List.head? (requests_marked h target now limit idle)
  rw [List.head?_filter] at found
  unfold HistoryState.inFlightDirection
  rw [found]
  rfl

/-- The oldest line on record after a page with this oldest line. -/
def lowered (mark : Option (Int × Option Str)) (oldest : Option (Int × Option Str)) :
    Option (Int × Option Str) :=
  match oldest, mark with
  | some line, some cur => some (if line.1 < cur.1 then line else cur)
  | some line, none => some line
  | none, mark => mark

/-- What a page of older messages that closed well does. -/
structure Answered (rows : Nat) (oldest : Option (Int × Option Str)) (h' : HistoryState) :
    Prop where
  exhausted : asciiLower target ∈ h'.beforeExhausted ↔
    asciiLower target ∈ h.beforeExhausted ∨ rows < limit
  mark : h'.oldestFetched.get? (asciiLower target) =
    lowered (h.oldestFetched.get? (asciiLower target)) oldest

theorem answered_complete (idle : h.anyInFlight target = false) (rows : Nat)
    (oldest : Option (Int × Option Str)) :
    Answered h target limit rows oldest
      ((h.markInFlight now target .before limit).completeTarget target rows oldest true) := by
  let asked := h.markInFlight now target .before limit
  let answered := oldest.elim asked fun oldest => asked.lowerFetched (asciiLower target) oldest
  have spelled : asked.completeTarget target rows oldest true =
      ({ answered with
        completion := answered.completion.insert (asciiLower target) true } : HistoryState).settle
          (asciiLower target) rows true (.before, limit) := by
    simp only [HistoryState.completeTarget, asked, requests_marked h target now limit idle]
    cases oldest <;> rfl
  have settled := settled_settle (asciiLower target) rows true (.before, limit)
    ({ answered with completion := answered.completion.insert (asciiLower target) true })
  rw [← spelled] at settled
  have same : answered.beforeExhausted = h.beforeExhausted := by
    simp only [answered]
    cases oldest <;> rfl
  constructor
  · rw [settled.exhausted]
    simp only [same, asciiLower_asciiLower, endsBefore, List.any_cons, List.any_nil, Bool.or_false,
      Bool.true_and, Bool.and_eq_true, decide_eq_true_eq, true_and]
  · rw [settled.fetched]
    simp only [answered]
    cases oldest with
    | none => rfl
    | some line =>
        have unmoved : asked.oldestFetched = h.oldestFetched := rfl
        rw [Option.elim_some, HistoryState.lowerFetched, Map.get?_insert, if_pos rfl, unmoved]
        cases h.oldestFetched.get? (asciiLower target) <;> rfl

theorem answered_process (idle : h.anyInFlight target = false) (serverOwned : Bool) (rows : Nat)
    (outcome : IngestOutcome) :
    Answered h target limit rows outcome.oldest
      (processHistoryBatch unicode (h.markInFlight now target .before limit) serverOwned
        ⟨target, rows, outcome, [], true⟩).2 := by
  have direction := direction_marked h target now limit idle
  have complete := answered_complete h target now limit idle rows outcome.oldest
  have ends (h' : HistoryState) (page : HistoryBatch) :
      chainPage unicode h' page none = (none, h') := rfl
  unfold processHistoryBatch
  simp only [direction, Option.some.injEq, reduceCtorEq, decide_false, Bool.false_and,
    Bool.false_eq_true, if_false, ends, ite_self, List.foldl_nil]
  cases outcome.oldestIngestedMs with
  | none => exact complete
  | some ms => exact ⟨complete.exhausted, complete.mark⟩

end Answers

section Oldest

/-- What the lines noted so far have for their oldest one. -/
def OldestIn (batch : List HistoryLine) : Option (Int × Option Str) → Prop
  | none => batch = []
  | some oldest => (∃ line ∈ batch, line.ms = oldest.1 ∧ line.msgid = oldest.2) ∧
      ∀ line ∈ batch, oldest.1 ≤ line.ms

theorem noteOldest_in (batch : List HistoryLine) (oldest : Option (Int × Option Str))
    (line : HistoryLine) (noted : OldestIn batch oldest) :
    OldestIn (batch ++ [line]) (noteOldest oldest line) := by
  cases oldest with
  | none =>
      have empty : batch = [] := noted
      subst empty
      exact ⟨⟨line, by simp, rfl, rfl⟩, by simp⟩
  | some cur =>
      obtain ⟨⟨found, inside, time, named⟩, least⟩ := noted
      unfold noteOldest
      simp only
      split
      · rename_i earlier
        refine ⟨⟨line, by simp, rfl, rfl⟩, ?_⟩
        intro other member
        rcases List.mem_append.mp member with before | here
        · have bound := least other before
          exact le_of_lt (lt_of_lt_of_le earlier bound)
        · rw [List.mem_singleton.mp here]
      · rename_i later
        refine ⟨⟨found, List.mem_append_left _ inside, time, named⟩, ?_⟩
        intro other member
        rcases List.mem_append.mp member with before | here
        · exact least other before
        · rw [List.mem_singleton.mp here]
          exact not_lt.mp later

theorem foldl_noteOldest (lines done : List HistoryLine) (oldest : Option (Int × Option Str))
    (noted : OldestIn done oldest) : OldestIn (done ++ lines) (lines.foldl noteOldest oldest) := by
  induction lines generalizing done oldest with
  | nil => rwa [List.append_nil]
  | cons line rest ih =>
      have later :=
        ih (done ++ [line]) (noteOldest oldest line) (noteOldest_in done oldest line noted)
      rwa [List.append_assoc] at later

theorem oldestOf_in (batch : List HistoryLine) : OldestIn batch (oldestOf batch) := by
  have noted : OldestIn (inOrder batch) (oldestOf batch) :=
    foldl_noteOldest (inOrder batch) [] none rfl
  have sorted : (inOrder batch).Perm batch := List.perm_insertionSort _ batch
  cases found : oldestOf batch with
  | none =>
      rw [found] at noted
      have empty : inOrder batch = [] := noted
      rw [empty] at sorted
      exact sorted.symm.eq_nil
  | some oldest =>
      rw [found] at noted
      obtain ⟨⟨line, inside, same⟩, least⟩ := noted
      constructor
      · exact ⟨line, sorted.subset inside, same⟩
      · intro other member
        exact least other (sorted.symm.subset member)

end Oldest

section Server

variable (server : ServerHistory) (c : Scroller)

/-- What is in front of an anchor is the start of the history. -/
theorem olderThan_take (ref : HistoryRef) :
    server.olderThan ref = server.lines.take (server.olderThan ref).length := by
  have start : server.olderThan ref <+: server.lines := by
    cases ref with
    | msgId id => exact List.takeWhile_prefix _
    | timestamp ms =>
        have sorted := server.ordered
        simp only [ServerHistory.olderThan]
        generalize server.lines = lines at sorted
        induction lines with
        | nil => exact List.prefix_rfl
        | cons line rest ih =>
            have parts := List.pairwise_cons.mp sorted
            by_cases before : line.ms < ms
            · rw [List.filter_cons_of_pos (by simpa using before)]
              exact (List.cons_prefix_cons).mpr ⟨rfl, ih parts.2⟩
            · have none : rest.filter (fun line => decide (line.ms < ms)) = [] := by
                apply List.filter_eq_nil_iff.mpr
                intro other member
                have bound := (parts.1 other member).2
                simp only [decide_eq_true_eq]
                omega
              rw [List.filter_cons_of_neg (by simpa using before), none]
              exact List.nil_prefix
  exact (List.prefix_iff_eq_take.mp start)

theorem lines_nodup : server.lines.Nodup := by
  apply server.ordered.imp
  intro a b apart same
  exact apart.1 (congrArg HistoryLine.place same)

/-- How many messages are in front of an anchor. -/
def depth (anchor : Int × Option Str) : Nat := (server.olderThan (c.historyRef anchor)).length

variable {server c} {anchor : Int × Option Str} {line : HistoryLine}

theorem mem_olderThan : line ∈ server.olderThan (c.historyRef anchor) ↔
    line ∈ server.lines.take (depth server c anchor) := by
  rw [depth, ← olderThan_take]

theorem page_eq (limit : Nat) : server.page (c.historyRef anchor) limit =
    (server.lines.drop (depth server c anchor - limit)).take
      (depth server c anchor - (depth server c anchor - limit)) := by
  rw [← List.drop_take, depth, ← olderThan_take]
  rfl

theorem page_length (limit : Nat) :
    (server.page (c.historyRef anchor) limit).length = min (depth server c anchor) limit := by
  rw [ServerHistory.page, List.length_drop, depth]
  omega

/-- A message in front of the anchor is in the page, or in front of the page. -/
theorem older_or_page (limit : Nat) (older : line ∈ server.olderThan (c.historyRef anchor)) :
    line ∈ server.lines.take (depth server c anchor - limit) ∨
      line ∈ server.page (c.historyRef anchor) limit := by
  rw [mem_olderThan, ← List.take_append_drop (depth server c anchor - limit) (server.lines.take _)]
    at older
  rcases List.mem_append.mp older with front | back
  · rw [List.take_take] at front
    exact Or.inl (List.take_subset_take_left _ (Nat.min_le_left _ _) front)
  · rw [List.drop_take, ← page_eq] at back
    exact Or.inr back

theorem page_older (limit : Nat) (member : line ∈ server.page (c.historyRef anchor) limit) :
    line ∈ server.olderThan (c.historyRef anchor) := List.mem_of_mem_drop member

theorem page_not_before (limit : Nat) (member : line ∈ server.page (c.historyRef anchor) limit) :
    line ∉ server.lines.take (depth server c anchor - limit) := by
  intro front
  rw [page_eq] at member
  exact List.disjoint_take_drop (lines_nodup server) (Nat.le_refl _) front
    (List.mem_of_mem_take member)

theorem page_behind (limit : Nat) {front : HistoryLine}
    (before : front ∈ server.lines.take (depth server c anchor - limit))
    (member : line ∈ server.page (c.historyRef anchor) limit) :
    front.ms ≤ line.ms ∧ ∀ id, id ≠ [] → ¬(front.msgid = some id ∧ line.msgid = some id) := by
  rw [page_eq] at member
  have behind := List.mem_of_mem_take member
  have ordered := server.ordered
  have named := server.named
  rw [← List.take_append_drop (depth server c anchor - limit) server.lines] at ordered named
  constructor
  · exact ((List.pairwise_append.mp ordered).2.2 front before line behind).2
  · exact (List.pairwise_append.mp named).2.2 front before line behind

theorem historyRef_msgId (id : Str) (ref : c.historyRef anchor = .msgId id) :
    anchor.2 = some id ∧ c.usesMsgid id := by
  unfold Scroller.historyRef at ref
  split at ref
  · rename_i found is
    split at ref
    · rename_i uses
      cases ref
      exact ⟨is, uses⟩
    · cases ref
  · cases ref

theorem historyRef_cases (anchor : Int × Option Str) :
    (∃ id, c.historyRef anchor = .msgId id) ∨ c.historyRef anchor = .timestamp anchor.1 := by
  unfold Scroller.historyRef
  split
  · rename_i found is
    split
    · exact Or.inl ⟨found, rfl⟩
    · exact Or.inr rfl
  · exact Or.inr rfl

/-- A message is not in front of itself. -/
theorem not_older_self (line : HistoryLine) :
    line ∉ server.olderThan (c.historyRef (line.ms, line.msgid)) := by
  rcases historyRef_cases (c := c) (line.ms, line.msgid) with ⟨id, ref⟩ | ref
  · have named : line.msgid = some id := (historyRef_msgId id ref).1
    rw [ref]
    intro older
    have other := List.mem_takeWhile_imp older
    simp [named] at other
  · rw [ref]
    intro older
    have earlier := (List.mem_filter.mp older).2
    simp at earlier

/-- What is in front of the page stays in front of every anchor in it, but for messages of the
time of the anchor where only that is given. -/
theorem front_older (limit : Nat) {front : HistoryLine}
    (before : front ∈ server.lines.take (depth server c anchor - limit))
    (member : line ∈ server.page (c.historyRef anchor) limit)
    (whole : c.historyRef (line.ms, line.msgid) = .timestamp line.ms → front.ms ≠ line.ms) :
    front ∈ server.olderThan (c.historyRef (line.ms, line.msgid)) := by
  rcases historyRef_cases (c := c) (line.ms, line.msgid) with ⟨id, ref⟩ | ref
  · obtain ⟨named, uses⟩ := historyRef_msgId id ref
    rw [ref]
    have plain : ∀ other ∈ server.lines.take (depth server c anchor - limit),
        decide (other.msgid ≠ some id) = true := by
      intro other earlier
      apply decide_eq_true
      intro same
      exact (page_behind limit earlier member).2 id uses.2 ⟨same, named⟩
    rw [ServerHistory.olderThan,
      ← List.take_append_drop (depth server c anchor - limit) server.lines,
      List.takeWhile_append_of_pos plain]
    exact List.mem_append_left _ before
  · rw [ref]
    have bound := (page_behind limit before member).1
    have other := whole ref
    apply List.mem_filter.mpr
    refine ⟨List.mem_of_mem_take before, decide_eq_true ?_⟩
    omega

/-- An anchor in the page is behind fewer messages. -/
theorem depth_lt (limit : Nat) (member : line ∈ server.page (c.historyRef anchor) limit) :
    depth server c (line.ms, line.msgid) < depth server c anchor := by
  by_contra more
  have subset := List.take_subset_take_left server.lines (not_lt.mp more)
  have older := mem_olderThan.mp (page_older limit member)
  exact not_older_self line (mem_olderThan.mpr (subset older))

end Server

section Rounds

variable {unicode : Unicode} {c : Scroller} {server : ServerHistory} {s s' : Paging}
  {answer : PageAnswer} {first anchor : Int × Option Str}

/-- What one request and its page do. -/
structure Turned (server : ServerHistory) (c : Scroller) (s : Paging) (answer : PageAnswer)
    (anchor : Int × Option Str) (s' : Paging) : Prop where
  anchored : c.anchor s.history = some anchor
  goes : c.key ∉ s.history.beforeExhausted
  page : answer.batch.Perm (server.page (c.historyRef anchor) c.limit)
  answered : Answered s.history c.target c.limit answer.batch.length (oldestOf answer.batch)
    s'.history
  fetched : s'.fetched = s.fetched ++ answer.batch

variable (unicode) in
theorem turned (faithful : Faithful c server s answer) :
    ∃ anchor, Turned server c s answer anchor (s.next unicode c answer) := by
  obtain ⟨ref, asked, sent, page⟩ := faithful
  have unfolded := sent
  unfold Scroller.fetchOlder at unfolded
  split at unfolded
  · cases unfolded
  split at unfolded
  · cases unfolded
  rename_i able
  split at unfolded
  · cases unfolded
  split at unfolded
  · cases unfolded
  rename_i idle
  split at unfolded
  · cases unfolded
  rename_i anchor anchored
  unfold Scroller.requestChathistory at unfolded
  split at unfolded
  · cases unfolded
  split at unfolded
  · cases unfolded
  split at unfolded
  · cases unfolded
  cases unfolded
  simp only [Bool.or_eq_true, decide_eq_true_eq, not_or] at able
  have quiet : s.history.anyInFlight c.target = false := Bool.eq_false_iff.mpr idle
  refine ⟨anchor, anchored, able.2, page, ?_, ?_⟩
  · simp only [Paging.next, sent]
    exact answered_process unicode s.history c.target answer.now c.limit quiet c.serverOwned
      answer.batch.length
      ⟨oldestOf answer.batch, newestOf answer.batch, answer.oldestIngestedMs⟩
  · simp only [Paging.next, sent]

theorem limit_pos : 0 < c.limit := by
  unfold Scroller.limit clampLimit
  omega

theorem batch_length (turn : Turned server c s answer anchor s') :
    answer.batch.length = min (depth server c anchor) c.limit := by
  rw [turn.page.length_eq, page_length]

theorem exhausted_iff (turn : Turned server c s answer anchor s') :
    c.key ∈ s'.history.beforeExhausted ↔ depth server c anchor < c.limit := by
  have ends := turn.answered.exhausted
  rw [batch_length turn] at ends
  have goes := turn.goes
  unfold Scroller.key at goes ⊢
  rw [ends]
  simp only [goes, false_or]
  omega

/-- The next anchor is a line of the page, or the anchor stays. -/
theorem anchor_after (turn : Turned server c s answer anchor s') :
    (∃ line ∈ answer.batch, oldestOf answer.batch = some (line.ms, line.msgid) ∧
      c.anchor s'.history = some (line.ms, line.msgid) ∧
      s'.history.oldestFetched.get? c.key = some (line.ms, line.msgid) ∧
      ∀ other ∈ answer.batch, line.ms ≤ other.ms) ∨
    c.anchor s'.history = some anchor ∧
      s'.history.oldestFetched.get? c.key = s.history.oldestFetched.get? c.key ∧
      (answer.batch = [] ∨ ∃ mark, s.history.oldestFetched.get? c.key = some mark ∧
        ∀ line ∈ answer.batch, mark.1 ≤ line.ms) := by
  have anchored := turn.anchored
  have noted := oldestOf_in answer.batch
  have mark : s'.history.oldestFetched.get? c.key =
      lowered (s.history.oldestFetched.get? c.key) (oldestOf answer.batch) := turn.answered.mark
  cases found : oldestOf answer.batch with
  | none =>
      rw [found] at noted mark
      have same : s'.history.oldestFetched.get? c.key = s.history.oldestFetched.get? c.key := by
        rw [mark]
        cases s.history.oldestFetched.get? c.key <;> rfl
      refine Or.inr ⟨?_, same, Or.inl noted⟩
      unfold Scroller.anchor at anchored ⊢
      rw [same]
      exact anchored
  | some oldest =>
      rw [found] at noted mark
      obtain ⟨⟨line, inside, time, named⟩, least⟩ := noted
      have spelled : oldest = (line.ms, line.msgid) := by rw [time, named]
      subst spelled
      have moves (moved : s'.history.oldestFetched.get? c.key = some (line.ms, line.msgid)) :
          c.anchor s'.history = some (line.ms, line.msgid) := by
        unfold Scroller.anchor
        rw [moved]
      cases held : s.history.oldestFetched.get? c.key with
      | none =>
          have moved : s'.history.oldestFetched.get? c.key = some (line.ms, line.msgid) := by
            rw [mark, held]
            rfl
          exact Or.inl ⟨line, inside, rfl, moves moved, moved, least⟩
      | some cur =>
          by_cases earlier : line.ms < cur.1
          · have moved : s'.history.oldestFetched.get? c.key = some (line.ms, line.msgid) := by
              rw [mark, held, lowered, if_pos earlier]
            exact Or.inl ⟨line, inside, rfl, moves moved, moved, least⟩
          · have stays : s'.history.oldestFetched.get? c.key = some cur := by
              rw [mark, held, lowered, if_neg earlier]
            refine Or.inr ⟨?_, stays, Or.inr ⟨cur, rfl, ?_⟩⟩
            · unfold Scroller.anchor at anchored ⊢
              rw [stays]
              rw [held] at anchored
              exact anchored
            · intro other member
              exact le_trans (not_lt.mp earlier) (least other member)

/-- What holds while the client scrolls back from the first anchor. -/
structure Scrolled (server : ServerHistory) (c : Scroller) (first : Int × Option Str) (s : Paging) :
    Prop where
  within : ∀ anchor, c.anchor s.history = some anchor → depth server c anchor ≤ depth server c first
  low : ∀ anchor, c.anchor s.history = some anchor →
    ∀ line ∈ server.lines.take (depth server c anchor - c.limit), line ∉ s.fetched
  covered : ∀ line ∈ server.olderThan (c.historyRef first), line ∈ s.fetched ∨
    ∃ anchor, c.anchor s.history = some anchor ∧ line ∈ server.olderThan (c.historyRef anchor)

theorem scrolled_start (h : HistoryState) (anchored : c.anchor h = some first) :
    Scrolled server c first ⟨h, []⟩ where
  within anchor is := by
    rw [anchored] at is
    cases is
    exact Nat.le_refl _
  low anchor is line before := List.not_mem_nil
  covered line older := Or.inr ⟨first, anchored, older⟩

/-- Depths only shrink, so nothing in front of the new page was received. -/
theorem low_kept (sound : Scrolled server c first s) (turn : Turned server c s answer anchor s')
    (next : Int × Option Str) (shrinks : depth server c next ≤ depth server c anchor) :
    ∀ line ∈ server.lines.take (depth server c next - c.limit), line ∉ s'.fetched := by
  intro line front member
  have earlier : line ∈ server.lines.take (depth server c anchor - c.limit) :=
    List.take_subset_take_left _ (Nat.sub_le_sub_right shrinks _) front
  rw [turn.fetched] at member
  rcases List.mem_append.mp member with before | here
  · exact sound.low anchor turn.anchored line earlier before
  · exact page_not_before c.limit (turn.page.subset here) earlier

/-- Whatever was older than the anchor is received, or in front of the page. -/
theorem received_or_front (turn : Turned server c s answer anchor s') {line : HistoryLine}
    (older : line ∈ server.olderThan (c.historyRef anchor)) :
    line ∈ s'.fetched ∨ line ∈ server.lines.take (depth server c anchor - c.limit) := by
  rcases older_or_page c.limit older with front | page
  · exact Or.inr front
  · apply Or.inl
    rw [turn.fetched]
    exact List.mem_append_right _ (turn.page.symm.subset page)

theorem covered_before (sound : Scrolled server c first s)
    (turn : Turned server c s answer anchor s') {line : HistoryLine}
    (older : line ∈ server.olderThan (c.historyRef first)) :
    line ∈ s'.fetched ∨ line ∈ server.lines.take (depth server c anchor - c.limit) := by
  rcases sound.covered line older with received | ⟨anchor', is, waiting⟩
  · apply Or.inl
    rw [turn.fetched]
    exact List.mem_append_left _ received
  · rw [turn.anchored] at is
    cases is
    exact received_or_front turn waiting

/-- A page that fits leaves nothing behind. -/
theorem scrolled_next (sound : Scrolled server c first s)
    (turn : Turned server c s answer anchor s') (fits : PageFits c server s answer) :
    Scrolled server c first s' := by
  have limit := limit_pos (c := c)
  have within := sound.within anchor turn.anchored
  rcases anchor_after turn with ⟨line, inside, oldest, moved, -, least⟩ | ⟨stays, -, reason⟩
  · have page := turn.page.subset inside
    have shrinks := depth_lt c.limit page
    constructor
    · intro anchor' is
      rw [moved] at is
      cases is
      exact le_trans (le_of_lt shrinks) within
    · intro anchor' is
      rw [moved] at is
      cases is
      exact low_kept sound turn _ (le_of_lt shrinks)
    · intro front older
      rcases covered_before sound turn older with received | before
      · exact Or.inl received
      · refine Or.inr ⟨_, moved, front_older c.limit before page ?_⟩
        intro ref same
        rcases fits anchor turn.anchored with few | ⟨-, whole⟩
        · have none : depth server c anchor - c.limit = 0 := by
            unfold depth
            omega
          rw [none, List.take_zero] at before
          cases before
        · have earlier : front ∈ server.olderThan (c.historyRef anchor) :=
            mem_olderThan.mpr (List.take_subset_take_left _ (Nat.sub_le _ _) before)
          have received := whole _ oldest ref front earlier same
          exact page_not_before c.limit (turn.page.subset received) before
  · have ends : depth server c anchor - c.limit = 0 := by
      rcases reason with empty | ⟨mark, held, later⟩
      · have counted := batch_length turn
        rw [empty, List.length_nil] at counted
        omega
      · rcases fits anchor turn.anchored with few | ⟨reaches, -⟩
        · unfold depth
          omega
        · obtain ⟨line, inside, earlier⟩ := reaches mark held
          have bound := later line inside
          omega
    constructor
    · intro anchor' is
      rw [stays] at is
      cases is
      exact within
    · intro anchor' is
      rw [stays] at is
      cases is
      exact low_kept sound turn _ (Nat.le_refl _)
    · intro front older
      rcases covered_before sound turn older with received | before
      · exact Or.inl received
      · rw [ends, List.take_zero] at before
        cases before

/-- A page that fits moves the oldest line on record to an earlier time, or ends the history. -/
theorem advances_of_fits (turn : Turned server c s answer anchor s')
    (fits : PageFits c server s answer) : Advances c s.history s'.history := by
  rcases fits anchor turn.anchored with few | ⟨reaches, -⟩
  · exact Or.inl ((exhausted_iff turn).mpr few)
  · rcases anchor_after turn with ⟨line, inside, -, -, moved, least⟩ | ⟨-, -, reason⟩
    · refine Or.inr ⟨_, moved, ?_⟩
      intro old held
      obtain ⟨other, member, earlier⟩ := reaches old held
      exact lt_of_le_of_lt (least other member) earlier
    · apply Or.inl
      apply (exhausted_iff turn).mpr
      have limit := limit_pos (c := c)
      rcases reason with empty | ⟨mark, held, later⟩
      · have counted := batch_length turn
        rw [empty, List.length_nil] at counted
        omega
      · obtain ⟨line, inside, earlier⟩ := reaches mark held
        have bound := later line inside
        omega

theorem none_skipped (sound : Scrolled server c first s)
    (turn : Turned server c s answer anchor s') (after : Scrolled server c first s')
    (line : HistoryLine) : ¬Skipped c server first s' line := by
  rintro ⟨older, missing, lost⟩
  have front := (covered_before sound turn older).resolve_left missing
  rcases lost with exhausted | gone
  · have few := (exhausted_iff turn).mp exhausted
    have none : depth server c anchor - c.limit = 0 := by omega
    rw [none, List.take_zero] at front
    cases front
  · obtain ⟨anchor', is, waiting⟩ := (after.covered line older).resolve_left missing
    exact gone anchor' is waiting

/-- A page that moves on and leaves nothing behind fits. -/
theorem fits_of_advances (sound : Scrolled server c first s)
    (turn : Turned server c s answer anchor s') (advances : Advances c s.history s'.history)
    (complete : ∀ line, ¬Skipped c server first s' line) : PageFits c server s answer := by
  intro anchor' is
  have same := is
  rw [turn.anchored] at same
  cases same
  by_cases few : depth server c anchor < c.limit
  · exact Or.inl few
  apply Or.inr
  have goes : c.key ∉ s'.history.beforeExhausted := fun ends => few ((exhausted_iff turn).mp ends)
  obtain ⟨mark, held, earlier⟩ := advances.resolve_left goes
  have counted := batch_length turn
  have limit := limit_pos (c := c)
  rcases anchor_after turn with ⟨line, inside, oldest, moved, marked, -⟩ | ⟨-, same, reason⟩
  · rw [marked] at held
    cases held
    constructor
    · intro old is
      exact ⟨line, inside, earlier old is⟩
    · intro oldest' found ref front older time
      rw [oldest] at found
      cases found
      by_contra missing
      have page : front ∉ server.page (c.historyRef anchor) c.limit := fun member =>
        missing (turn.page.symm.subset member)
      have before := (older_or_page c.limit older).resolve_right page
      have unseen := low_kept sound turn anchor (Nat.le_refl _) front before
      apply complete front
      refine ⟨?_, unseen, Or.inr ?_⟩
      · apply mem_olderThan.mpr
        have within := sound.within anchor turn.anchored
        exact List.take_subset_take_left _ within (mem_olderThan.mp older)
      · intro next here waiting
        rw [moved] at here
        cases here
        rw [ref] at waiting
        have early := of_decide_eq_true (List.mem_filter.mp waiting).2
        omega
  · rcases reason with empty | ⟨old, was, later⟩
    · rw [empty, List.length_nil] at counted
      omega
    · rw [same, was] at held
      cases held
      have moves := earlier _ was
      omega

end Rounds

section Runs

variable (unicode : Unicode) (c : Scroller) (server : ServerHistory) {first : Int × Option Str}

theorem scrolled_iff (s : Paging) (answers : List PageAnswer)
    (faithful : Along (Faithful c server) (Paging.next unicode c) s answers)
    (sound : Scrolled server c first s) :
    Along (fun s answer => Advances c s.history (s.next unicode c answer).history ∧
        ∀ line, ¬Skipped c server first (s.next unicode c answer) line)
      (Paging.next unicode c) s answers ↔
    Along (PageFits c server) (Paging.next unicode c) s answers := by
  induction answers generalizing s with
  | nil => exact Iff.rfl
  | cons answer rest ih =>
      obtain ⟨asked, later⟩ := faithful
      obtain ⟨anchor, turn⟩ := turned unicode asked
      constructor
      · rintro ⟨⟨advances, complete⟩, more⟩
        have fits := fits_of_advances sound turn advances complete
        exact ⟨fits, (ih _ later (scrolled_next sound turn fits)).mp more⟩
      · rintro ⟨fits, more⟩
        have after := scrolled_next sound turn fits
        exact ⟨⟨advances_of_fits turn fits, none_skipped sound turn after⟩,
          (ih _ later after).mpr more⟩

/-- As long as the pages fit, there is one request more at most than messages in front of the
anchor. -/
theorem requests_bounded (s : Paging) (answers : List PageAnswer) (anchor : Int × Option Str)
    (anchored : c.anchor s.history = some anchor)
    (faithful : Along (Faithful c server) (Paging.next unicode c) s answers)
    (fits : Along (PageFits c server) (Paging.next unicode c) s answers) :
    answers.length ≤ depth server c anchor + 1 := by
  induction answers generalizing s anchor with
  | nil => exact Nat.zero_le _
  | cons answer rest ih =>
      obtain ⟨asked, later⟩ := faithful
      obtain ⟨anchor', turn⟩ := turned unicode asked
      have same := turn.anchored
      rw [anchored] at same
      cases same
      cases rest with
      | nil => simp
      | cons another more =>
          obtain ⟨next, second⟩ := turned unicode later.1
          have goes := second.goes
          rcases anchor_after turn with ⟨line, inside, -, moved, -, -⟩ | ⟨stays, same, reason⟩
          · have shrinks := depth_lt c.limit (turn.page.subset inside)
            have bound := ih _ _ moved later fits.2
            rw [List.length_cons]
            omega
          · have advances := (advances_of_fits turn fits.1).resolve_left goes
            obtain ⟨mark, held, earlier⟩ := advances
            rw [same] at held
            have moves := earlier mark held
            omega

/-- Scrolling back from any state, over any history of a server that answers faithfully, in
whatever order it lists a page: every request moves the oldest line on record to an earlier time or
ends the history, and no message older than the first anchor is ever passed over, exactly when every
page fits; and then the requests come to an end. -/
theorem scrollback_sound_iff (h : HistoryState) (anchored : c.anchor h = some first)
    (answers : List PageAnswer)
    (faithful : Along (Faithful c server) (Paging.next unicode c) ⟨h, []⟩ answers) :
    (Along (fun s answer => Advances c s.history (s.next unicode c answer).history ∧
        ∀ line, ¬Skipped c server first (s.next unicode c answer) line)
      (Paging.next unicode c) ⟨h, []⟩ answers ↔
      Along (PageFits c server) (Paging.next unicode c) ⟨h, []⟩ answers) ∧
    (Along (PageFits c server) (Paging.next unicode c) ⟨h, []⟩ answers →
      answers.length ≤ (server.olderThan (c.historyRef first)).length + 1) := by
  constructor
  · exact scrolled_iff unicode c server ⟨h, []⟩ answers faithful (scrolled_start h anchored)
  · intro fits
    exact requests_bounded unicode c server ⟨h, []⟩ answers first anchored faithful fits

end Runs

section Examples

/-- A conversation scrolled back two messages at a time by their ids. -/
def roomScroller : Scroller where
  target := roomTarget
  conversation := true
  cap := true
  serverOwned := true
  logging := false
  searchPending := false
  connected := true
  msgreftypes := ["msgid".toList]
  serverMax := some 2
  oldestRow := none

/-- The message with the id "c" is the oldest one pulled. -/
def pulledTo (ms : Int) : HistoryState :=
  { HistoryState.new with
    oldestFetched := Map.insert Table.empty roomTarget (ms, some "c".toList) }

/-- Three messages at these times. -/
def threeMessages (a b c : Int) (first : a ≤ b) (second : b ≤ c) : ServerHistory where
  lines := [⟨1, a, some "a".toList⟩, ⟨2, b, some "b".toList⟩, ⟨3, c, some "c".toList⟩]
  ordered := by
    have outer := le_trans first second
    simp [first, second, outer]
  named := by
    have ab : "a".toList ≠ "b".toList := by decide
    have ac : "a".toList ≠ "c".toList := by decide
    have bc : "b".toList ≠ "c".toList := by decide
    simp only [List.pairwise_cons, List.forall_mem_cons, Option.some.injEq]
    grind

theorem asks_by_id (ms : Int) (now : Nat) :
    ∃ asked, roomScroller.fetchOlder (pulledTo ms) now = some (.msgId "c".toList, asked) :=
  ⟨_, rfl⟩

def twoOlder (a b : Int) : PageAnswer :=
  ⟨5, [⟨1, a, some "a".toList⟩, ⟨2, b, some "b".toList⟩], none⟩

theorem older_is_page (a b c : Int) (first : a ≤ b) (second : b ≤ c) :
    Faithful roomScroller (threeMessages a b c first second) ⟨pulledTo c, []⟩ (twoOlder a b) := by
  obtain ⟨asked, sent⟩ := asks_by_id c 5
  exact ⟨_, asked, sent, List.Perm.refl _⟩

theorem three_fit (unicode : Unicode) :
    Along (PageFits roomScroller (threeMessages 10 20 30 (by decide) (by decide)))
      (Paging.next unicode roomScroller) ⟨pulledTo 30, []⟩ [twoOlder 10 20, ⟨6, [], none⟩] := by
  constructor
  · intro anchor is
    apply Or.inr
    constructor
    · intro mark held
      have same : some (30, some "c".toList) = some mark := held
      cases same
      exact ⟨⟨1, 10, some "a".toList⟩, List.mem_cons_self, by decide⟩
    · intro oldest found ref
      have same : some (10, some "a".toList) = some oldest := found
      cases same
      cases ref
  · refine ⟨?_, trivial⟩
    intro anchor is
    have same : some (10, some "a".toList) = some anchor := is
    cases same
    exact Or.inl (by decide)

theorem scrollback_sound_iff_three :
    Along (fun s answer => Advances roomScroller s.history
          (s.next .ascii roomScroller answer).history ∧
        ∀ line, ¬Skipped roomScroller (threeMessages 10 20 30 (by decide) (by decide))
          (30, some "c".toList) (s.next .ascii roomScroller answer) line)
      (Paging.next .ascii roomScroller) ⟨pulledTo 30, []⟩
      [twoOlder 10 20, ⟨6, [], none⟩] := by
  have second : ∃ asked, roomScroller.fetchOlder (Paging.next .ascii roomScroller
      ⟨pulledTo 30, []⟩ (twoOlder 10 20)).history 6 = some (.msgId "a".toList, asked) := ⟨_, rfl⟩
  obtain ⟨asked, sent⟩ := second
  apply (scrollback_sound_iff .ascii roomScroller _ (pulledTo 30) rfl
    [twoOlder 10 20, ⟨6, [], none⟩] ?_).1.mpr (three_fit .ascii)
  exact ⟨older_is_page 10 20 30 _ _, ⟨_, asked, sent, List.Perm.refl _⟩, trivial⟩

/-- Three messages of one millisecond, two to a page: the client asks for the same page for ever. -/
theorem crowded_instant_stops_paging :
    ¬∀ (unicode : Unicode) (c : Scroller) (server : ServerHistory) (h : HistoryState)
        (first : Int × Option Str), c.anchor h = some first →
      ∀ answers, Along (Faithful c server) (Paging.next unicode c) ⟨h, []⟩ answers →
        Along (fun s answer => Advances c s.history (s.next unicode c answer).history ∧
            ∀ line, ¬Skipped c server first (s.next unicode c answer) line)
          (Paging.next unicode c) ⟨h, []⟩ answers := by
  intro sound
  have advances := (sound .ascii roomScroller
    (threeMessages 10 10 10 (le_refl _) (le_refl _)) (pulledTo 10) (10, some "c".toList) rfl
    [twoOlder 10 10] ⟨older_is_page 10 10 10 _ _, trivial⟩).1.1
  rcases advances with ends | ⟨mark, held, moves⟩
  · exact absurd ends (by decide)
  · have stays : some (10, some "c".toList) = some mark := held
    cases stays
    exact absurd (moves (10, some "c".toList) rfl) (by decide)

end Examples

end Repartee.Irc
