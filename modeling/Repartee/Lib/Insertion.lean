import Mathlib

/-!
Inserting into a sorted list before the first element that stops the search, one element after the
other: the result is sorted, holds both lists, and keeps the order of each.
-/

namespace Repartee.Lib

variable {α τ : Type} [LinearOrder τ]

/-- Puts an element before the first one that stops it. -/
def insertBefore (stop : α → Bool) (x : α) : List α → List α
  | [] => [x]
  | a :: rest => if stop a then x :: a :: rest else a :: insertBefore stop x rest

/-- The list falls into the elements passed and those behind the new one. -/
theorem insertBefore_split (stop : α → Bool) (x : α) (l : List α) :
    ∃ passed behind, l = passed ++ behind ∧ insertBefore stop x l = passed ++ x :: behind ∧
      (∀ a ∈ passed, stop a = false) ∧ ∀ a, behind.head? = some a → stop a = true := by
  induction l with
  | nil => exact ⟨[], [], rfl, rfl, by simp, by simp⟩
  | cons a rest ih =>
      cases stopped : stop a with
      | true =>
          refine ⟨[], a :: rest, rfl, ?_, by simp, ?_⟩
          · simp only [insertBefore, stopped, if_true, List.nil_append]
          · intro b first
            cases first
            exact stopped
      | false =>
          obtain ⟨passed, behind, parts, inserted, skips, stops⟩ := ih
          refine ⟨a :: passed, behind, by rw [parts]; rfl, ?_, ?_, stops⟩
          · simp only [insertBefore, stopped, Bool.false_eq_true, if_false, inserted,
              List.cons_append]
          · intro b member
            rcases List.mem_cons.mp member with rfl | later
            · exact stopped
            · exact skips b later

theorem insertBefore_perm (stop : α → Bool) (x : α) (l : List α) :
    (insertBefore stop x l).Perm (x :: l) := by
  obtain ⟨passed, behind, rfl, inserted, _, _⟩ := insertBefore_split stop x l
  rw [inserted]
  exact List.perm_middle

theorem sublist_insertBefore (stop : α → Bool) (x : α) (l : List α) :
    l.Sublist (insertBefore stop x l) := by
  obtain ⟨passed, behind, rfl, inserted, _, _⟩ := insertBefore_split stop x l
  rw [inserted]
  exact (List.Sublist.refl passed).append (List.sublist_cons_self x behind)

section Sorted

variable (key : α → τ)

/-- In order of their keys, equal keys in any order. -/
def Ascending (l : List α) : Prop := l.Pairwise fun a b => key a ≤ key b

/-- The search stops at no smaller key and passes no larger one. -/
structure Fits (stop : α → Bool) (x : α) : Prop where
  stops : ∀ a, stop a = true → key x ≤ key a
  passes : ∀ a, stop a = false → key a ≤ key x

variable {key} {stop : α → Bool} {x : α} {l : List α}

theorem ascending_insertBefore (fits : Fits key stop x) (sorted : Ascending key l) :
    Ascending key (insertBefore stop x l) := by
  obtain ⟨passed, behind, rfl, inserted, skips, stops⟩ := insertBefore_split stop x l
  obtain ⟨front, back, across⟩ := List.pairwise_append.mp sorted
  rw [inserted]
  apply List.pairwise_append.mpr
  refine ⟨front, List.pairwise_cons.mpr ⟨?_, back⟩, ?_⟩
  · intro b member
    cases behind with
    | nil => cases member
    | cons a rest =>
        have first : key x ≤ key a := fits.stops a (stops a rfl)
        rcases List.mem_cons.mp member with rfl | later
        · exact first
        · exact first.trans ((List.pairwise_cons.mp back).1 b later)
  · intro a inFront b inBack
    rcases List.mem_cons.mp inBack with rfl | later
    · exact fits.passes a (skips a inFront)
    · exact across a inFront b later

/-- An element that stops only at larger keys lands after everything no larger. -/
theorem append_sublist_insertBefore (sorted : Ascending key l)
    (strict : ∀ a, stop a = true → key x < key a) (done : List α) (held : done.Sublist l)
    (smaller : ∀ a ∈ done, key a ≤ key x) : (done ++ [x]).Sublist (insertBefore stop x l) := by
  obtain ⟨passed, behind, rfl, inserted, _, stops⟩ := insertBefore_split stop x l
  obtain ⟨_, back, _⟩ := List.pairwise_append.mp sorted
  obtain ⟨front, rest, rfl, inPassed, inBehind⟩ := List.sublist_append_iff.mp held
  have none : rest = [] := by
    apply List.eq_nil_iff_forall_not_mem.mpr
    intro b member
    have low : key b ≤ key x := smaller b (List.mem_append_right front member)
    have place : b ∈ behind := inBehind.subset member
    cases behind with
    | nil => cases place
    | cons a tail =>
        have first : key x < key a := strict a (stops a rfl)
        have high : key a ≤ key b := by
          rcases List.mem_cons.mp place with rfl | later
          · exact le_refl _
          · exact (List.pairwise_cons.mp back).1 b later
        exact absurd (low.trans_lt (first.trans_le high)) (lt_irrefl _)
  rw [inserted, none, List.append_nil]
  exact inPassed.append (List.singleton_sublist.mpr List.mem_cons_self)

/-- An element that stops at equal keys already lands before everything no smaller. -/
theorem cons_sublist_insertBefore
    (strict : ∀ a, stop a = false → key a < key x) (done : List α) (held : done.Sublist l)
    (larger : ∀ a ∈ done, key x ≤ key a) : (x :: done).Sublist (insertBefore stop x l) := by
  obtain ⟨passed, behind, rfl, inserted, skips, _⟩ := insertBefore_split stop x l
  obtain ⟨front, rest, rfl, inPassed, inBehind⟩ := List.sublist_append_iff.mp held
  have none : front = [] := by
    apply List.eq_nil_iff_forall_not_mem.mpr
    intro b member
    have high : key x ≤ key b := larger b (List.mem_append_left rest member)
    have low : key b < key x := strict b (skips b (inPassed.subset member))
    exact absurd (high.trans_lt low) (lt_irrefl _)
  rw [inserted, none, List.nil_append]
  exact (inBehind.cons_cons x).trans (List.sublist_append_right passed _)

end Sorted

section All

/-- Inserts a list of elements, the first one first. -/
def insertAll (stop : α → α → Bool) (xs l : List α) : List α :=
  xs.foldl (fun acc x => insertBefore (stop x) x acc) l

variable {stop : α → α → Bool}

@[simp] theorem insertAll_nil (l : List α) : insertAll stop [] l = l := rfl

@[simp] theorem insertAll_cons (x : α) (xs l : List α) :
    insertAll stop (x :: xs) l = insertAll stop xs (insertBefore (stop x) x l) := rfl

theorem insertAll_perm (xs l : List α) : (insertAll stop xs l).Perm (l ++ xs) := by
  induction xs generalizing l with
  | nil => simp
  | cons x rest ih =>
      calc (insertAll stop (x :: rest) l).Perm (insertBefore (stop x) x l ++ rest) := ih _
        List.Perm _ (x :: l ++ rest) := (insertBefore_perm (stop x) x l).append_right rest
        List.Perm _ (l ++ x :: rest) := List.perm_middle.symm

theorem sublist_insertAll (xs l : List α) : l.Sublist (insertAll stop xs l) := by
  induction xs generalizing l with
  | nil => exact List.Sublist.refl l
  | cons x rest ih => exact (sublist_insertBefore (stop x) x l).trans (ih _)

variable {key : α → τ}

theorem ascending_insertAll (fits : ∀ x, Fits key (stop x) x) (xs l : List α)
    (sorted : Ascending key l) : Ascending key (insertAll stop xs l) := by
  induction xs generalizing l with
  | nil => exact sorted
  | cons x rest ih => exact ih _ (ascending_insertBefore (fits x) sorted)

/-- Elements inserted in ascending order, each behind its equals, stay in that order. -/
theorem append_sublist_insertAll (fits : ∀ x, Fits key (stop x) x)
    (strict : ∀ x a, stop x a = true → key x < key a) (xs l done : List α)
    (sorted : Ascending key l) (held : done.Sublist l) (order : Ascending key (done ++ xs)) :
    (done ++ xs).Sublist (insertAll stop xs l) := by
  induction xs generalizing l done with
  | nil => simpa using held
  | cons x rest ih =>
      have smaller : ∀ a ∈ done, key a ≤ key x := fun a member =>
        (List.pairwise_append.mp order).2.2 a member x List.mem_cons_self
      have placed := append_sublist_insertBefore sorted (strict x) done held smaller
      have next := ih _ (done ++ [x]) (ascending_insertBefore (fits x) sorted) placed
        (by rw [List.append_assoc]; exact order)
      rw [List.append_assoc] at next
      exact next

/-- Elements inserted in descending order, each before its equals, end in ascending order. -/
theorem reverse_sublist_insertAll (strict : ∀ x a, stop x a = false → key a < key x)
    (xs l done : List α) (held : done.Sublist l) (order : Ascending key (xs.reverse ++ done)) :
    (xs.reverse ++ done).Sublist (insertAll stop xs l) := by
  induction xs generalizing l done with
  | nil => exact held
  | cons x rest ih =>
      rw [List.reverse_cons, List.append_assoc, List.singleton_append] at order ⊢
      have larger : ∀ a ∈ done, key x ≤ key a :=
        (List.pairwise_cons.mp (List.pairwise_append.mp order).2.1).1
      exact ih _ (x :: done) (cons_sublist_insertBefore (strict x) done held larger) order

end All

end Repartee.Lib
