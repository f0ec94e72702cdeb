import Mathlib.Data.List.Basic
import Mathlib.Tactic.Common

/-!
The last place of a list where something holds.
-/

namespace Repartee.Lib

variable {α : Type} (p : α → Bool)

/-- The index of the last element the predicate holds of. -/
def rposition : List α → Option Nat
  | [] => none
  | x :: rest => match rposition rest with
      | some i => some (i + 1)
      | none => if p x then some 0 else none

variable {p} {xs : List α}

@[simp] theorem rposition_nil : rposition p [] = none := rfl

theorem rposition_eq_none : rposition p xs = none ↔ ∀ x ∈ xs, p x = false := by
  induction xs with
  | nil => simp
  | cons x rest ih =>
      rw [rposition, List.forall_mem_cons]
      cases found : rposition p rest with
      | some i =>
          have later : ¬∀ y ∈ rest, p y = false := by
            rw [← ih, found]
            exact Option.some_ne_none i
          exact ⟨fun absurd => (by cases absurd), fun all => absurd all.2 later⟩
      | none =>
          have none_ := ih.mp found
          cases here : p x with
          | true => simp
          | false => simpa using none_

/-- Behind the index it holds of nothing. -/
theorem rposition_eq_some {i : Nat} : rposition p xs = some i ↔
    ∃ front x back, xs = front ++ x :: back ∧ front.length = i ∧ p x = true ∧
      ∀ y ∈ back, p y = false := by
  induction xs generalizing i with
  | nil => simp
  | cons x rest ih =>
      rw [rposition]
      constructor
      · intro found
        cases later : rposition p rest with
        | some j =>
            rw [later] at found
            cases found
            obtain ⟨front, y, back, rfl, rfl, holds, others⟩ := ih.mp later
            exact ⟨x :: front, y, back, rfl, rfl, holds, others⟩
        | none =>
            simp only [later] at found
            split at found
            · rename_i here
              cases found
              exact ⟨[], x, rest, rfl, rfl, here, rposition_eq_none.mp later⟩
            · cases found
      · rintro ⟨front, y, back, same, rfl, holds, others⟩
        cases front with
        | nil =>
            cases same
            rw [rposition_eq_none.mpr others]
            exact if_pos holds
        | cons z front =>
            cases same
            rw [ih.mpr ⟨front, y, back, rfl, rfl, holds, others⟩]
            rfl

theorem rposition_lt {i : Nat} (found : rposition p xs = some i) : i < xs.length := by
  obtain ⟨front, x, back, rfl, rfl, -, -⟩ := rposition_eq_some.mp found
  simp

/-- No place after the index is one. -/
theorem rposition_eq_some_iff {i : Nat} : rposition p xs = some i ↔
    xs[i]?.any p = true ∧ ∀ k, i < k → xs[k]?.any p = false := by
  rw [rposition_eq_some]
  constructor
  · rintro ⟨front, x, back, rfl, rfl, holds, others⟩
    refine ⟨by simpa using holds, fun k later => ?_⟩
    rw [List.getElem?_append_right (Nat.le_of_lt later), List.getElem?_cons,
      if_neg (Nat.sub_ne_zero_of_lt later), Option.any_eq_false]
    intro y found
    exact others y (List.mem_of_getElem? found)
  · rintro ⟨holds, others⟩
    obtain ⟨x, found, here⟩ := (Option.any_eq_true _ _).mp holds
    obtain ⟨inside, rfl⟩ := List.getElem?_eq_some_iff.mp found
    refine ⟨xs.take i, xs[i], xs.drop (i + 1), ?_, ?_, here, fun y later => ?_⟩
    · rw [← List.drop_eq_getElem_cons inside, List.take_append_drop]
    · rw [List.length_take]
      omega
    · obtain ⟨k, found⟩ := List.mem_iff_getElem?.mp later
      rw [List.getElem?_drop] at found
      exact Option.any_eq_false _ _ |>.mp (others _ (by omega)) y found

theorem rposition_eq_none_iff : rposition p xs = none ↔ ∀ k : Nat, xs[k]?.any p = false := by
  rw [rposition_eq_none]
  constructor
  · intro all k
    rw [Option.any_eq_false]
    exact fun y found => all y (List.mem_of_getElem? found)
  · intro all x member
    obtain ⟨k, found⟩ := List.mem_iff_getElem?.mp member
    exact Option.any_eq_false _ _ |>.mp (all k) x found

theorem findIdx?_eq_some_iff_any {i : Nat} : xs.findIdx? p = some i ↔
    xs[i]?.any p = true ∧ ∀ k < i, xs[k]?.any p = false := by
  rw [List.findIdx?_eq_some_iff_getElem]
  constructor
  · rintro ⟨inside, holds, others⟩
    refine ⟨by simpa [List.getElem?_eq_getElem inside] using holds, fun k before => ?_⟩
    simpa [List.getElem?_eq_getElem (Nat.lt_trans before inside)] using others k before
  · rintro ⟨holds, others⟩
    obtain ⟨x, found, here⟩ := (Option.any_eq_true _ _).mp holds
    obtain ⟨inside, rfl⟩ := List.getElem?_eq_some_iff.mp found
    refine ⟨inside, here, fun k before => ?_⟩
    simpa [List.getElem?_eq_getElem (Nat.lt_trans before inside)] using others k before

theorem findIdx?_eq_none_iff_any : xs.findIdx? p = none ↔ ∀ k : Nat, xs[k]?.any p = false := by
  rw [← rposition_eq_none_iff, rposition_eq_none, List.findIdx?_eq_none_iff]

end Repartee.Lib
