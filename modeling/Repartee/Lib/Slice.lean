import Mathlib.Data.List.Basic
import Mathlib.Tactic.Common

/-!
The slice of a list that ends a given distance before the list does.
-/

namespace Repartee.Lib

variable {α β : Type}

/-- At most `size` elements, with `below` more behind them. -/
def endSlice (size below : Nat) (l : List α) : List α :=
  (l.drop (l.length - (size + below))).take size

variable {size below : Nat} {l : List α}

theorem length_endSlice : (endSlice size below l).length = min size l.length := by
  rw [endSlice, List.length_take, List.length_drop]
  omega

/-- The slice with what is above and below it. -/
theorem endSlice_split (room : below ≤ l.length - size) :
    ∃ above under, l = above ++ endSlice size below l ++ under ∧ under.length = below ∧
      above.length = l.length - (size + below) := by
  refine ⟨l.take (l.length - (size + below)), (l.drop (l.length - (size + below))).drop size,
    ?_, ?_, ?_⟩
  · rw [endSlice, List.append_assoc, List.take_append_drop, List.take_append_drop]
  · rw [List.length_drop, List.length_drop]
    omega
  · rw [List.length_take]
    omega

/-- What lies further above does not matter to a slice. -/
theorem endSlice_append (front back : List α) (room : size + below ≤ back.length) :
    endSlice size below (front ++ back) = endSlice size below back := by
  have start : (front ++ back).length - (size + below) =
      front.length + (back.length - (size + below)) := by
    rw [List.length_append]
    omega
  rw [endSlice, endSlice, start, ← List.drop_drop, List.drop_left]

theorem map_endSlice (f : α → β) (l : List α) :
    (endSlice size below l).map f = endSlice size below (l.map f) := by
  simp only [endSlice, List.map_take, List.map_drop, List.length_map]

theorem endSlice_all (short : l.length ≤ size) : endSlice size 0 l = l := by
  have start : l.length - (size + 0) = 0 := by omega
  rw [endSlice, start, List.drop_zero, List.take_of_length_le short]

theorem endSlice_eq_nil (some_ : 0 < size) : endSlice size below l = [] ↔ l = [] := by
  rw [← List.length_eq_zero_iff, length_endSlice, ← List.length_eq_zero_iff]
  omega

/-- A slice that holds all of the back begins in the front. -/
theorem head?_endSlice_append {front back : List α} (some_ : front ≠ []) (short : back.length < size) :
    ∃ x ∈ front, (endSlice size 0 (front ++ back)).head? = some x := by
  have long := List.length_pos_of_ne_nil some_
  have inside : (front ++ back).length - (size + 0) < front.length := by
    rw [List.length_append]
    omega
  refine ⟨_, List.getElem_mem inside, ?_⟩
  rw [endSlice, List.head?_take, if_neg (by omega), List.head?_drop,
    List.getElem?_append_left inside, List.getElem?_eq_getElem inside]

/-- The last slice ends with the last element. -/
theorem getLast?_endSlice (some_ : 0 < size) (l : List α) :
    (endSlice size 0 l).getLast? = l.getLast? := by
  rw [endSlice, List.take_of_length_le (by rw [List.length_drop]; omega), List.getLast?_drop]
  split
  · rename_i all
    rw [List.length_eq_zero_iff.mp (by omega : l.length = 0)]
    rfl
  · rfl

end Repartee.Lib
