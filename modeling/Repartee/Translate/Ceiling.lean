import Repartee.Translate.QueueRuns

/-!
The ceiling of the reorder queue. Forcing the oldest waiting entries, as many as the queue is over
its bound, brings it under the bound and loses nothing; but the rows in front of a reservation that
are ready already are not counted on, and where they make the difference a reservation is given up
that need not have been.
-/

namespace Repartee.Translate

open Repartee.Lib

variable {ρ : Type}

/-- Every entry that waits has its id to itself. -/
abbrev IdsApart (entries : List (Entry ρ)) : Prop := Apart Entry.id Settled entries

/-- A queue that the operations make: an id that is pushed is not in the queue, and a late row is
put in order only when nothing waits under its id. -/
inductive Reached : TranslateQueue ρ → Prop where
  | new : Reached .new
  | exec (q : TranslateQueue ρ) (op : QueueOp ρ) (before : Reached q)
      (fresh : ∀ id, op.pushedId = some id → ∀ e ∈ q.entries, e.id ≠ id) :
      Reached (op.exec ⟨q, []⟩).queue
  | insert (q : TranslateQueue ρ) (id : Nat) (message : Message ρ) (level : ActivityLevel)
      (before : Reached q) (gone : ∀ e ∈ q.entries, e.id = id → e.isReady = true) :
      Reached (q.insertResolvedInOrder id message level)

section Apart

variable {line last : List (Entry ρ)} {op : QueueOp ρ} {back : Multiset (Ticket ρ)}

theorem Advances.apart (advances : Advances line op last back) (apart : IdsApart line)
    (fresh : ∀ id, op.pushedId = some id → ∀ e ∈ line, e.id ≠ id) : IdsApart last := by
  cases advances with
  | pushes _ e pushed =>
      apply apart.snoc
      exact fresh e.id (by rw [QueueOp.pushedId, pushed]; rfl)
  | holds id row pre post since held whole =>
      rw [whole] at apart
      exact apart.update (by simp [Entry.isReady]) rfl
  | returns id row gone => exact apart
  | fills id rows pre post since held whole =>
      rw [whole] at apart
      apply apart.replace (by simp [Entry.isReady])
      · intro x member
        rcases List.mem_map.mp member with ⟨row, _, rfl⟩
        rfl
      · intro x member
        rcases List.mem_map.mp member with ⟨row, _, rfl⟩
        exact isReady_rowEntry id row
  | refuses id rows gone => exact apart
  | clears _ last idle parks pushed clears => exact clears.apart apart

theorem insertResolvedInOrder_apart (q : TranslateQueue ρ) (id : Nat) (message : Message ρ)
    (level : ActivityLevel) (apart : IdsApart q.entries)
    (gone : ∀ e ∈ q.entries, e.id = id → e.isReady = true) :
    IdsApart (q.insertResolvedInOrder id message level).entries := by
  have put (pre post : List (Entry ρ)) (whole : q.entries = pre ++ post) :
      IdsApart (pre ++ [TranslateQueue.rowEntry id (message, level)] ++ post) := by
    rw [whole] at apart gone
    apply apart.put
    · intro x member
      rw [List.mem_singleton.mp member]
      exact isReady_rowEntry id _
    · intro x member y there tie
      rw [List.mem_singleton.mp member] at tie
      exact gone y there tie.symm
  cases found : splitAtFirst (fun e => decide (id < e.id)) q.entries with
  | none =>
      have last := put q.entries [] (List.append_nil _).symm
      simpa [TranslateQueue.insertResolvedInOrder, TranslateQueue.pushBack, found] using last
  | some parts =>
      have whole := (splitAtFirst_eq_some _ _ _ _ _ found).1
      have inside := put parts.1 (parts.2.1 :: parts.2.2) whole
      simpa [TranslateQueue.insertResolvedInOrder, found] using inside

theorem Reached.apart {q : TranslateQueue ρ} (reached : Reached q) : IdsApart q.entries := by
  induction reached with
  | new => exact List.Pairwise.nil
  | exec q op _ fresh ih =>
      have line : IdsApart (op.exec ⟨q, []⟩).line := (advances_exec ⟨q, []⟩ op).apart ih fresh
      exact (List.pairwise_append.mp line).2.1
  | insert q id message level _ gone ih => exact insertResolvedInOrder_apart q id message level ih gone

end Apart

section Forcing

variable {e : Entry ρ} {pre post entries : List (Entry ρ)}

/-- The rows an entry becomes when its wait is ended. -/
def forcedRows (e : Entry ρ) : List (Entry ρ) :=
  match e.slot with
  | .reserved _ held => held.map (TranslateQueue.rowEntry e.id)
  | .pending original payload _ =>
      [⟨e.id, TranslateQueue.resolvedSlot original payload (.error .timeout)⟩]
  | .ready .. => [e]

/-- The waits of the first so many entries that have one are ended. -/
def forceFirst : Nat → List (Entry ρ) → List (Entry ρ)
  | _, [] => []
  | k, e :: rest =>
      if e.isReady then e :: forceFirst k rest
      else match k with
        | 0 => e :: rest
        | n + 1 => forcedRows e ++ forceFirst n rest

def waiting (entries : List (Entry ρ)) : List (Entry ρ) := entries.filter fun e => !e.isReady

theorem waits_of_reserved (reserved : e.isReserved = true) : e.isReady = false := by
  by_contra ready
  rw [Bool.not_eq_false] at ready
  rw [isReserved_of_isReady e ready] at reserved
  cases reserved

theorem waits_of_pending (pending : e.isPending = true) : e.isReady = false := by
  rcases e with ⟨id, slot⟩
  cases slot with
  | ready message level origin delivery => cases pending
  | pending original payload since => rfl
  | reserved since held => rfl

theorem forcedRows_ready (e : Entry ρ) : ∀ x ∈ forcedRows e, x.isReady = true := by
  rcases e with ⟨id, slot⟩
  cases slot with
  | reserved since held =>
      intro x member
      rcases List.mem_map.mp member with ⟨row, _, rfl⟩
      exact isReady_rowEntry id row
  | pending original payload since =>
      intro x member
      rw [List.mem_singleton.mp member]
      exact isReady_resolvedSlot id original payload _
  | ready message level origin delivery =>
      intro x member
      rw [List.mem_singleton.mp member]
      rfl

theorem releaseReserved_none (q : TranslateQueue ρ) (id : Nat)
    (none_ : ∀ x ∈ q.entries, x.id = id → x.isReserved = false) : q.releaseReserved id = q := by
  rcases fillReservedWith_eq q id [] with ⟨earlier, since, held, later, whole, _⟩ | ⟨_, same⟩
  · have reserved := none_ ⟨id, .reserved since held⟩ (by simp [whole]) rfl
    cases reserved
  · rw [TranslateQueue.releaseReserved, same]

theorem resolve_none (q : TranslateQueue ρ) (id : Nat) (outcome : Except UntranslatedReason Str)
    (none_ : ∀ x ∈ q.entries, x.id = id → x.isPending = false) : (q.resolve id outcome).1 = q := by
  rcases resolve_eq q id outcome with ⟨earlier, original, payload, since, later, whole, _⟩ | ⟨_, same⟩
  · have pending := none_ ⟨id, .pending original payload since⟩ (by simp [whole]) rfl
    cases pending
  · rw [same]

/-- An entry with an id to itself is found under it. -/
theorem splitAtFirst_apart (test : Entry ρ → Bool) (accepted : test e = true)
    (only : ∀ x, test x = true → x.id = e.id) (apart : ∀ x ∈ pre ++ post, x.id ≠ e.id) :
    splitAtFirst test (pre ++ e :: post) = some (pre, e, post) := by
  apply splitAtFirst_append test pre post e accepted
  intro x member
  by_contra found
  rw [Bool.not_eq_false] at found
  exact apart x (List.mem_append_left post member) (only x found)

theorem resolve_append (pending : e.isPending = true) (apart : ∀ x ∈ pre ++ post, x.id ≠ e.id) :
    ((⟨pre ++ e :: post⟩ : TranslateQueue ρ).resolve e.id (.error .timeout)).1 =
      ⟨pre ++ forcedRows e ++ post⟩ := by
  have found := splitAtFirst_apart (fun x : Entry ρ => x.id == e.id) (beq_self_eq_true e.id)
    (fun x same => beq_iff_eq.mp same) apart
  rcases e with ⟨id, slot⟩
  cases slot with
  | pending original payload since => simp [TranslateQueue.resolve, found, forcedRows]
  | reserved since held => cases pending
  | ready message level origin delivery => cases pending

theorem releaseReserved_append (reserved : e.isReserved = true)
    (apart : ∀ x ∈ pre ++ post, x.id ≠ e.id) :
    (⟨pre ++ e :: post⟩ : TranslateQueue ρ).releaseReserved e.id =
      ⟨pre ++ forcedRows e ++ post⟩ := by
  have found := splitAtFirst_apart (fun x : Entry ρ => x.id == e.id && x.isReserved)
    (by rw [reserved, beq_self_eq_true]; rfl)
    (fun x same => beq_iff_eq.mp (Bool.and_eq_true_iff.mp same).1) apart
  rcases e with ⟨id, slot⟩
  cases slot with
  | reserved since held =>
      simp [TranslateQueue.releaseReserved, TranslateQueue.fillReservedWith, found, forcedRows]
  | pending original payload since => cases reserved
  | ready message level origin delivery => cases reserved

/-- Ending the wait of an entry changes that entry and no other. -/
theorem giveUp_append (waits : e.isReady = false) (apart : ∀ x ∈ pre ++ post, x.id ≠ e.id) :
    (⟨pre ++ e :: post⟩ : TranslateQueue ρ).giveUp e.id = ⟨pre ++ forcedRows e ++ post⟩ := by
  by_cases reserved : e.isReserved = true
  · rw [TranslateQueue.giveUp, releaseReserved_append reserved apart]
    apply resolve_none
    intro x member same
    rcases List.mem_append.mp member with front | after
    · rcases List.mem_append.mp front with before | new
      · exact absurd same (apart x (List.mem_append_left post before))
      · have ready := forcedRows_ready e x new
        rcases x with ⟨id, slot⟩
        cases slot with
        | ready message level origin delivery => rfl
        | pending original payload since => cases ready
        | reserved since held => cases ready
    · exact absurd same (apart x (List.mem_append_right pre after))
  · have pending : e.isPending = true := by
      rcases e with ⟨id, slot⟩
      cases slot with
      | ready message level origin delivery => cases waits
      | pending original payload since => rfl
      | reserved since held => exact absurd rfl reserved
    have unreserved : (⟨pre ++ e :: post⟩ : TranslateQueue ρ).releaseReserved e.id =
        ⟨pre ++ e :: post⟩ := by
      apply releaseReserved_none
      intro x member same
      rcases List.mem_append.mp member with before | later
      · exact absurd same (apart x (List.mem_append_left post before))
      · rcases List.mem_cons.mp later with rfl | after
        · exact Bool.eq_false_iff.mpr reserved
        · exact absurd same (apart x (List.mem_append_right pre after))
    rw [TranslateQueue.giveUp, unreserved]
    exact resolve_append pending apart

theorem apart_forced (waits : e.isReady = false) (apart : IdsApart (pre ++ e :: post))
    (keys : ∀ x ∈ forcedRows e, x.id = e.id) : IdsApart (pre ++ forcedRows e ++ post) :=
  apart.replace (by rw [Settled, waits]; exact Bool.false_ne_true) keys (forcedRows_ready e)

theorem forcedRows_id (e : Entry ρ) : ∀ x ∈ forcedRows e, x.id = e.id := by
  rcases e with ⟨id, slot⟩
  cases slot with
  | reserved since held =>
      intro x member
      rcases List.mem_map.mp member with ⟨row, _, rfl⟩
      rfl
  | pending original payload since =>
      intro x member
      rw [List.mem_singleton.mp member]
  | ready message level origin delivery =>
      intro x member
      rw [List.mem_singleton.mp member]

theorem waiting_cons_ready (rest : List (Entry ρ)) (ready : e.isReady = true) :
    waiting (e :: rest) = waiting rest := by
  simp [waiting, ready]

theorem waiting_cons (rest : List (Entry ρ)) (waits : e.isReady = false) :
    waiting (e :: rest) = e :: waiting rest := by
  simp [waiting, waits]

theorem forceFirst_ready (k : Nat) (rest : List (Entry ρ)) (ready : e.isReady = true) :
    forceFirst k (e :: rest) = e :: forceFirst k rest := by
  cases k with
  | zero => simp [forceFirst, ready]
  | succ n => simp [forceFirst, ready]

theorem forceFirst_zero (rest : List (Entry ρ)) (waits : e.isReady = false) :
    forceFirst 0 (e :: rest) = e :: rest := by
  simp [forceFirst, waits]

theorem forceFirst_succ (n : Nat) (rest : List (Entry ρ)) (waits : e.isReady = false) :
    forceFirst (n + 1) (e :: rest) = forcedRows e ++ forceFirst n rest := by
  simp [forceFirst, waits]

theorem giveUpAll_take (k : Nat) (apart : IdsApart (pre ++ entries)) :
    (⟨pre ++ entries⟩ : TranslateQueue ρ).giveUpAll ((waiting entries).take k) =
      ⟨pre ++ forceFirst k entries⟩ := by
  induction entries generalizing pre k with
  | nil =>
      simp [waiting, TranslateQueue.giveUpAll, forceFirst]
  | cons e rest ih =>
      by_cases ready : e.isReady = true
      · have behind : IdsApart ((pre ++ [e]) ++ rest) := by simpa using apart
        have next := ih k behind
        rw [waiting_cons_ready rest ready, forceFirst_ready k rest ready]
        simpa using next
      · have waits : e.isReady = false := Bool.eq_false_iff.mpr ready
        cases k with
        | zero => simp [forceFirst_zero rest waits, TranslateQueue.giveUpAll]
        | succ n =>
            have alone := apart.alone (by rw [Settled, waits]; exact Bool.false_ne_true)
            have forced := apart_forced waits apart (forcedRows_id e)
            have next := ih n forced
            rw [waiting_cons rest waits, List.take_succ_cons, TranslateQueue.giveUpAll,
              List.foldl_cons, giveUp_append waits alone, forceFirst_succ n rest waits,
              ← List.append_assoc]
            exact next

/-- Forcing leaves the entries with the first so many waits ended. -/
theorem enforceCeiling_entries (q : TranslateQueue ρ) (max : Nat) (apart : IdsApart q.entries) :
    (q.enforceCeiling max).1.entries = forceFirst (q.entries.length - max) q.entries := by
  have whole : IdsApart ([] ++ q.entries) := apart
  have all_ := giveUpAll_take (q.entries.length - max) whole
  rw [TranslateQueue.enforceCeiling]
  split
  · next fits =>
      have none_ : q.entries.length - max = 0 := by omega
      rw [none_] at all_ ⊢
      exact congrArg TranslateQueue.entries all_
  · exact congrArg TranslateQueue.entries all_

end Forcing

section Drain

variable {e : Entry ρ} {pre post entries : List (Entry ρ)}

theorem popReady_waits (post : List (Entry ρ)) (waits : e.isReady = false) :
    (TranslateQueue.popReady (e :: post)).2 = e :: post := by
  rcases e with ⟨id, slot⟩
  cases slot with
  | ready message level origin delivery => cases waits
  | pending original payload since => rfl
  | reserved since held => rfl

theorem popReady_append (ready : ∀ x ∈ pre, x.isReady = true) :
    (TranslateQueue.popReady (pre ++ entries)).2 = (TranslateQueue.popReady entries).2 := by
  induction pre with
  | nil => rfl
  | cons e rest ih =>
      have head := ready e List.mem_cons_self
      have later := ih fun x member => ready x (List.mem_cons_of_mem e member)
      rcases e with ⟨id, slot⟩
      cases slot with
      | ready message level origin delivery => exact later
      | pending original payload since => cases head
      | reserved since held => cases head

/-- With so many waits ended, at least as many entries leave. -/
theorem forceFirst_drained (k : Nat) (entries : List (Entry ρ)) :
    (TranslateQueue.popReady (forceFirst k entries)).2.length ≤ entries.length - k := by
  induction entries generalizing k with
  | nil => simp [forceFirst, TranslateQueue.popReady]
  | cons e rest ih =>
      by_cases ready : e.isReady = true
      · have first : ∀ x ∈ [e], x.isReady = true := by
          intro x member
          rw [List.mem_singleton.mp member]
          exact ready
        have next := ih k
        rw [forceFirst_ready k rest ready, ← List.singleton_append, popReady_append first,
          List.length_cons]
        omega
      · have waits : e.isReady = false := Bool.eq_false_iff.mpr ready
        cases k with
        | zero =>
            rw [forceFirst_zero rest waits, popReady_waits rest waits]
            exact le_refl _
        | succ n =>
            have next := ih n
            rw [forceFirst_succ n rest waits, popReady_append (forcedRows_ready e),
              List.length_cons]
            omega

/-- What still waits waited before. -/
theorem mem_forceFirst (k : Nat) {x : Entry ρ} (member : x ∈ forceFirst k entries)
    (waits : x.isReady = false) : x ∈ entries := by
  induction entries generalizing k with
  | nil => simp [forceFirst] at member
  | cons e rest ih =>
      by_cases ready : e.isReady = true
      · rw [forceFirst_ready k rest ready] at member
        rcases List.mem_cons.mp member with rfl | later
        · exact List.mem_cons_self
        · exact List.mem_cons_of_mem e (ih k later)
      · have stays : e.isReady = false := Bool.eq_false_iff.mpr ready
        cases k with
        | zero => rwa [forceFirst_zero rest stays] at member
        | succ n =>
            rw [forceFirst_succ n rest stays] at member
            rcases List.mem_append.mp member with forced | later
            · rw [forcedRows_ready e x forced] at waits
              cases waits
            · exact List.mem_cons_of_mem e (ih n later)

/-- An entry with enough waits in front of it, and all behind it, stay as they are. -/
theorem forceFirst_short (k : Nat) (waits : e.isReady = false)
    (enough : k ≤ (waiting pre).length) :
    ∃ forced, forceFirst k (pre ++ e :: post) = forced ++ e :: post := by
  induction pre generalizing k with
  | nil =>
      have zero : k = 0 := Nat.le_zero.mp enough
      rw [zero]
      exact ⟨[], forceFirst_zero post waits⟩
  | cons first rest ih =>
      by_cases ready : first.isReady = true
      · rw [waiting_cons_ready rest ready] at enough
        rcases ih k enough with ⟨forced, whole⟩
        exact ⟨first :: forced, by
          rw [List.cons_append, forceFirst_ready k _ ready, whole, List.cons_append]⟩
      · have stays : first.isReady = false := Bool.eq_false_iff.mpr ready
        cases k with
        | zero => exact ⟨first :: rest, forceFirst_zero _ stays⟩
        | succ n =>
            rw [waiting_cons rest stays, List.length_cons, Nat.add_le_add_iff_right] at enough
            rcases ih n enough with ⟨forced, whole⟩
            exact ⟨forcedRows first ++ forced, by
              rw [List.cons_append, forceFirst_succ n _ stays, whole, List.append_assoc]⟩

/-- An entry with fewer waits in front of it waits no longer. -/
theorem forceFirst_long (k : Nat) (waits : e.isReady = false)
    (apart : ∀ x ∈ pre ++ post, x.id ≠ e.id) (few : (waiting pre).length < k) :
    ∀ x ∈ forceFirst k (pre ++ e :: post), x.isReady = false → x.id ≠ e.id := by
  induction pre generalizing k with
  | nil =>
      intro x member open_
      cases k with
      | zero => cases few
      | succ n =>
          rw [List.nil_append, forceFirst_succ n post waits] at member
          rcases List.mem_append.mp member with forced | later
          · rw [forcedRows_ready e x forced] at open_
            cases open_
          · exact apart x (mem_forceFirst n later open_)
  | cons first rest ih =>
      intro x member open_
      have apart' : ∀ y ∈ rest ++ post, y.id ≠ e.id := fun y there =>
        apart y (List.mem_cons_of_mem first there)
      by_cases ready : first.isReady = true
      · rw [waiting_cons_ready rest ready] at few
        rw [List.cons_append, forceFirst_ready k _ ready] at member
        rcases List.mem_cons.mp member with rfl | later
        · rw [ready] at open_
          cases open_
        · exact ih k apart' few x later open_
      · have stays : first.isReady = false := Bool.eq_false_iff.mpr ready
        cases k with
        | zero => cases few
        | succ n =>
            rw [waiting_cons rest stays, List.length_cons, Nat.add_lt_add_iff_right] at few
            rw [List.cons_append, forceFirst_succ n _ stays] at member
            rcases List.mem_append.mp member with forced | later
            · rw [forcedRows_ready first x forced] at open_
              cases open_
            · exact ih n apart' few x later open_

end Drain

section Ahead

variable {e : Entry ρ} {pre post entries : List (Entry ρ)}

/-- Ends the waits of the lines in front of a reservation, and no reservation's. -/
def TranslateQueue.forceAhead (q : TranslateQueue ρ) (id : Nat) : TranslateQueue ρ :=
  match splitAtFirst (fun e => e.id == id && e.isReserved) q.entries with
  | some (ahead, _, _) =>
      (ahead.filter Entry.isPending).foldl (fun q e => (q.resolve e.id (.error .timeout)).1) q
  | none => q

/-- The row a pending line becomes, and any other entry. -/
def settledRows (e : Entry ρ) : List (Entry ρ) := if e.isPending then forcedRows e else [e]

theorem settledRows_length (e : Entry ρ) : (settledRows e).length = 1 := by
  rcases e with ⟨id, slot⟩
  cases slot with
  | ready message level origin delivery => rfl
  | pending original payload since => rfl
  | reserved since held => rfl

theorem settledRows_ready (unreserved : e.isReserved = false) :
    ∀ x ∈ settledRows e, x.isReady = true := by
  rcases e with ⟨id, slot⟩
  cases slot with
  | ready message level origin delivery =>
      intro x member
      rw [List.mem_singleton.mp member]
      rfl
  | pending original payload since => exact forcedRows_ready ⟨id, .pending original payload since⟩
  | reserved since held => cases unreserved

theorem length_settled (entries : List (Entry ρ)) :
    (entries.flatMap settledRows).length = entries.length := by
  induction entries with
  | nil => rfl
  | cons e rest ih =>
      rw [List.flatMap_cons, List.length_append, settledRows_length, ih, List.length_cons]
      omega

theorem resolvePending_append (apart : IdsApart (pre ++ (entries ++ post))) :
    (entries.filter Entry.isPending).foldl
        (fun q e => (q.resolve e.id (.error .timeout)).1)
        (⟨pre ++ (entries ++ post)⟩ : TranslateQueue ρ) =
      ⟨pre ++ (entries.flatMap settledRows ++ post)⟩ := by
  induction entries generalizing pre with
  | nil => rfl
  | cons e rest ih =>
      rw [List.cons_append] at apart
      by_cases pending : e.isPending = true
      · have waits := waits_of_pending pending
        have alone := apart.alone (by rw [Settled, waits]; exact Bool.false_ne_true)
        have next := ih (apart_forced waits apart (forcedRows_id e))
        rw [List.filter_cons_of_pos pending, List.foldl_cons, List.cons_append,
          resolve_append pending alone, next, List.flatMap_cons, settledRows, if_pos pending]
        simp only [List.append_assoc]
      · have behind : IdsApart ((pre ++ [e]) ++ (rest ++ post)) := by simpa using apart
        have next := ih behind
        rw [List.filter_cons_of_neg pending, List.flatMap_cons, settledRows, if_neg pending]
        simpa using next

/-- Where a first accepted entry stands under two tests of which one is the weaker. -/
theorem splitAtFirst_weaker {strict weak : Entry ρ → Bool} {front ahead mine later : List (Entry ρ)}
    {r x : Entry ρ} (weaker : ∀ y, strict y = true → weak y = true)
    (first : splitAtFirst weak entries = some (front, r, mine))
    (second : splitAtFirst strict entries = some (ahead, x, later)) :
    ahead = front ∧ x = r ∧ later = mine ∨ ∃ mid, ahead = front ++ r :: mid := by
  rcases splitAtFirst_eq_some _ _ _ _ _ first with ⟨whole, _, none_⟩
  rcases splitAtFirst_eq_some _ _ _ _ _ second with ⟨same, accepted, _⟩
  rw [whole] at same
  rcases List.append_eq_append_iff.mp same with ⟨c, rfl, shape⟩ | ⟨c, rfl, shape⟩
  · cases c with
    | nil =>
        left
        rw [List.nil_append, List.cons.injEq] at shape
        exact ⟨List.append_nil front, shape.1.symm, shape.2.symm⟩
    | cons y mid =>
        right
        rw [List.cons_append, List.cons.injEq] at shape
        exact ⟨mid, by rw [shape.1]⟩
  · cases c with
    | nil =>
        left
        rw [List.nil_append, List.cons.injEq] at shape
        exact ⟨(List.append_nil ahead).symm, shape.1, shape.2⟩
    | cons y mid =>
        rw [List.cons_append, List.cons.injEq] at shape
        have rejected := none_ y (by simp)
        rw [← shape.1, weaker x accepted] at rejected
        cases rejected

/-- Ending the waits in front of any reservation lets go what is in front of the first. -/
theorem forceAhead_drained (q : TranslateQueue ρ) (id : Nat) (apart : IdsApart q.entries)
    {front mine : List (Entry ρ)} {r : Entry ρ}
    (first : splitAtFirst Entry.isReserved q.entries = some (front, r, mine))
    (holds : q.holdsReservation id = true) :
    (q.forceAhead id).drainReady.1.entries.length = q.entries.length - front.length := by
  rcases splitAtFirst_eq_some _ _ _ _ _ first with ⟨whole, reserved, none_⟩
  have waits := waits_of_reserved reserved
  have clear : ∀ x ∈ front.flatMap settledRows, x.isReady = true := by
    intro x member
    rcases List.mem_flatMap.mp member with ⟨e, inside, row⟩
    exact settledRows_ready (none_ e inside) x row
  cases found : splitAtFirst (fun e => e.id == id && e.isReserved) q.entries with
  | none =>
      rcases List.any_eq_true.mp holds with ⟨x, member, accepted⟩
      rw [(splitAtFirst_eq_none _ _).mp found x member] at accepted
      cases accepted
  | some parts =>
      rcases parts with ⟨ahead, x, later⟩
      have split := (splitAtFirst_eq_some _ _ _ _ _ found).1
      have parted : IdsApart ([] ++ (ahead ++ x :: later)) := by
        rw [List.nil_append, ← split]
        exact apart
      have settled := resolvePending_append parted
      have forced : (q.forceAhead id).entries = ahead.flatMap settledRows ++ x :: later := by
        simp only [TranslateQueue.forceAhead, found]
        rw [List.nil_append, List.nil_append, ← split] at settled
        exact congrArg TranslateQueue.entries settled
      have size := congrArg List.length whole
      rw [List.length_append, List.length_cons] at size
      have weaker := splitAtFirst_weaker (fun y both => (Bool.and_eq_true_iff.mp both).2) first found
      rcases weaker with ⟨rfl, rfl, rfl⟩ | ⟨mid, rfl⟩
      · rw [TranslateQueue.drainReady, forced, popReady_append clear, popReady_waits _ waits,
          List.length_cons]
        omega
      · have stays : settledRows r = [r] := by
          rcases r with ⟨key, slot⟩
          cases slot with
          | ready message level origin delivery => rfl
          | pending original payload since => cases reserved
          | reserved since held => rfl
        have total := congrArg List.length split
        simp only [List.length_append, List.length_cons] at total
        rw [TranslateQueue.drainReady, forced, List.flatMap_append, List.append_assoc,
          popReady_append clear, List.flatMap_cons, stays, List.singleton_append, List.cons_append,
          popReady_waits _ waits, List.length_cons, List.length_append, length_settled,
          List.length_cons]
        omega

end Ahead

section Ceiling

variable (q : TranslateQueue ρ) (max : Nat)

/-- The reservation was held before the ceiling was enforced, and is not afterwards. -/
def Lifted (id : Nat) : Prop :=
  q.holdsReservation id = true ∧ (q.enforceCeiling max).1.holdsReservation id = false

structure CeilingKeeps : Prop where
  bound : (q.enforceCeiling max).1.drainReady.1.entries.length ≤ max
  kept : weigh q.entries =
    weigh ((q.enforceCeiling max).1.drainReady.2.map ReadyEntry.entry) +
      weigh (q.enforceCeiling max).1.drainReady.1.entries
  needed : ∀ id, Lifted q max id → max < (q.forceAhead id).drainReady.1.entries.length

/-- The excess over the bound is met by the lines that wait in front of the first reservation, or
not even by all entries in front of it. -/
def BarrierDue : Prop :=
  ∀ front r mine, splitAtFirst Entry.isReserved q.entries = some (front, r, mine) →
    q.entries.length - max ≤ (front.filter Entry.isPending).length ∨
      front.length < q.entries.length - max

variable {q max}

theorem waiting_unreserved (front : List (Entry ρ)) (none_ : ∀ x ∈ front, x.isReserved = false) :
    waiting front = front.filter Entry.isPending := by
  apply List.filter_congr
  intro x member
  have unreserved := none_ x member
  rcases x with ⟨id, slot⟩
  cases slot with
  | ready message level origin delivery => rfl
  | pending original payload since => rfl
  | reserved since held => cases unreserved

theorem ceiling_bound (apart : IdsApart q.entries) :
    (q.enforceCeiling max).1.drainReady.1.entries.length ≤ max := by
  have left_ := forceFirst_drained (q.entries.length - max) q.entries
  rw [TranslateQueue.drainReady, enforceCeiling_entries q max apart]
  exact le_trans left_ (by omega)

theorem ceiling_kept : weigh q.entries =
    weigh ((q.enforceCeiling max).1.drainReady.2.map ReadyEntry.entry) +
      weigh (q.enforceCeiling max).1.drainReady.1.entries := by
  have same := (clears_enforceCeiling q max).weight_eq
  rw [← weigh_append, TranslateQueue.drainReady, popReady_entries]
  exact same.symm

/-- A reservation is lifted when and only when the lines that wait in front of the first one are
fewer than the excess. -/
theorem lifted_few (apart : IdsApart q.entries) {front mine : List (Entry ρ)} {r : Entry ρ}
    (first : splitAtFirst Entry.isReserved q.entries = some (front, r, mine)) :
    (∃ id, Lifted q max id) ↔ (front.filter Entry.isPending).length < q.entries.length - max := by
  rcases splitAtFirst_eq_some _ _ _ _ _ first with ⟨whole, reserved, none_⟩
  have waits := waits_of_reserved reserved
  have after := enforceCeiling_entries q max apart
  rw [← waiting_unreserved front none_]
  constructor
  · rintro ⟨id, before, gone⟩
    by_contra enough
    have short : ∃ forced, forceFirst (q.entries.length - max) (front ++ r :: mine) =
        forced ++ r :: mine := forceFirst_short _ waits (Nat.le_of_not_lt enough)
    rcases short with ⟨forced, stays⟩
    rw [← whole] at stays
    rcases List.any_eq_true.mp before with ⟨x, member, accepted⟩
    have inside : x ∈ r :: mine := by
      rw [whole] at member
      apply (List.mem_append.mp member).resolve_left
      intro there
      have both := Bool.and_eq_true_iff.mp accepted
      rw [none_ x there] at both
      cases both.2
    have still : (q.enforceCeiling max).1.holdsReservation id = true := by
      apply List.any_eq_true.mpr
      refine ⟨x, ?_, accepted⟩
      rw [after, stays]
      exact List.mem_append_right forced inside
    rw [still] at gone
    cases gone
  · intro few
    refine ⟨r.id, ?_, ?_⟩
    · apply List.any_eq_true.mpr
      refine ⟨r, ?_, by rw [beq_self_eq_true, reserved]; rfl⟩
      rw [whole]
      exact List.mem_append_right front List.mem_cons_self
    · rw [whole] at apart
      have alone := apart.alone (by rw [Settled, waits]; exact Bool.false_ne_true)
      have gone := forceFirst_long (q.entries.length - max) waits alone few
      rw [← whole] at gone
      apply List.any_eq_false.mpr
      intro x member accepted
      rw [after] at member
      rcases Bool.and_eq_true_iff.mp accepted with ⟨same, open_⟩
      exact gone x member (waits_of_reserved open_) (beq_iff_eq.mp same)

/-- Enforcing the ceiling bounds the queue and loses nothing, and gives up no reservation that could
have been kept if and only if the excess is met by the lines that wait in front of the first
reservation, or not by all that is in front of it. -/
theorem ceiling_keeps_iff (q : TranslateQueue ρ) (max : Nat) (reached : Reached q) :
    CeilingKeeps q max ↔ BarrierDue q max := by
  have apart := reached.apart
  constructor
  · intro keeps front r mine first
    by_contra neither
    rw [not_or, Nat.not_le, Nat.not_lt] at neither
    rcases (lifted_few apart first).mpr neither.1 with ⟨id, lifted⟩
    have over_ := keeps.needed id lifted
    rw [forceAhead_drained q id apart first lifted.1] at over_
    omega
  · intro due
    refine ⟨ceiling_bound apart, ceiling_kept, ?_⟩
    intro id lifted
    cases first : splitAtFirst Entry.isReserved q.entries with
    | none =>
        rcases List.any_eq_true.mp lifted.1 with ⟨x, member, accepted⟩
        have both := Bool.and_eq_true_iff.mp accepted
        rw [(splitAtFirst_eq_none _ _).mp first x member] at both
        cases both.2
    | some parts =>
        rcases parts with ⟨front, r, mine⟩
        have few := (lifted_few apart first).mp ⟨id, lifted⟩
        have short := (due front r mine first).resolve_left (Nat.not_le.mpr few)
        rw [forceAhead_drained q id apart first lifted.1]
        omega

/-- A line that waits, a row behind it that is ready, and a reservation. -/
def readyInFront : TranslateQueue Unit :=
  let row : Message Unit := ⟨[], none, ()⟩
  ((TranslateQueue.new.pushPendingAt 1 [] ⟨row, .activity, false⟩ 0).pushResolved 2 row
    .activity).reserveAt 3 0

theorem readyInFront_reached : Reached readyInFront := by
  have first : Reached (TranslateQueue.new.pushPendingAt 1 [] ⟨⟨[], none, ()⟩, .activity, false⟩ 0) := by
    apply Reached.exec .new (.pushPending 1 [] ⟨⟨[], none, ()⟩, .activity, false⟩ 0) .new
    intro id _ e member
    cases member
  have second := Reached.exec _ (.pushResolvedAs 2 ⟨[], none, ()⟩ .activity .logged) first (by
    intro id pushes e member same
    cases pushes
    rw [List.mem_singleton.mp member] at same
    cases same)
  apply Reached.exec _ (.reserve 3 0) second
  intro id pushes e member same
  cases pushes
  rcases List.mem_cons.mp member with rfl | later
  · cases same
  · rw [List.mem_singleton.mp later] at same
    cases same

/-- With room for one entry the line is forced, and the reservation with it: the line alone would
have let two entries go. -/
theorem ceiling_lifts_too_soon : ¬ CeilingKeeps readyInFront 1 := by
  intro keeps
  have lifted : Lifted readyInFront 1 3 := by
    constructor
    · decide +kernel
    · decide +kernel
  have spared : (readyInFront.forceAhead 3).drainReady.1.entries.length = 1 := by decide +kernel
  have over_ := keeps.needed 3 lifted
  rw [spared] at over_
  exact lt_irrefl 1 over_

/-- With room for two the line alone meets the excess. -/
theorem ceiling_keeps_iff_two : CeilingKeeps readyInFront 2 := by
  apply (ceiling_keeps_iff readyInFront 2 readyInFront_reached).mpr
  intro front r mine first
  left
  have split : splitAtFirst Entry.isReserved readyInFront.entries =
      some (readyInFront.entries.take 2, ⟨3, .reserved 0 []⟩, []) := by decide +kernel
  rw [split] at first
  cases first
  decide +kernel

end Ceiling

end Repartee.Translate
