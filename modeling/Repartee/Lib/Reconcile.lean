import Mathlib
import Repartee.Lib.Table

/-!
A wanted set kept in step with a set somebody else holds, in rounds of one change each, and the
keys of a table as a finite set.
-/

namespace Repartee.Lib

namespace Table

variable {α κ : Type} [DecidableEq κ] {key : α → κ}

def keys (t : Table key) : Finset κ := (t.rows.map key).toFinset

theorem mem_keys (t : Table key) (k : κ) : k ∈ t.keys ↔ ∃ x ∈ t, key x = k := by
  simp [keys, mem_iff]

theorem find?_isSome (t : Table key) (k : κ) : (t.find? k).isSome ↔ k ∈ t.keys := by
  rw [mem_keys]
  simp [find?, mem_iff, List.find?_isSome]

@[simp] theorem keys_empty : (empty : Table key).keys = ∅ := rfl

theorem mem_keys_delete (t : Table key) (p : α → Bool) (k : κ) :
    k ∈ (t.delete p).keys ↔ ∃ x ∈ t, p x = false ∧ key x = k := by
  simp [mem_keys, mem_iff, delete, and_assoc]

@[simp] theorem keys_erase (t : Table key) (k : κ) : (t.erase k).keys = t.keys \ {k} := by
  ext x
  rw [erase, mem_keys_delete, Finset.mem_sdiff, mem_keys, Finset.mem_singleton]
  constructor
  · rintro ⟨y, member, kept, rfl⟩
    exact ⟨⟨y, member, rfl⟩, of_decide_eq_false kept⟩
  · rintro ⟨⟨y, member, rfl⟩, other⟩
    exact ⟨y, member, decide_eq_false other, rfl⟩

@[simp] theorem keys_replace (t : Table key) (r : α) : (t.replace r).keys = insert (key r) t.keys := by
  ext x
  have rows : (t.replace r).rows.map key = (t.erase (key r)).rows.map key ++ [key r] :=
    List.map_append
  have kept : x ∈ (t.erase (key r)).keys ↔ x ∈ t.keys ∧ x ≠ key r := by simp
  simp only [keys, List.mem_toFinset] at kept
  simp only [keys, rows, List.mem_toFinset, List.mem_append, kept, List.mem_singleton,
    Finset.mem_insert]
  grind

/-- Erasing keys one after the other. -/
theorem keys_eraseAll (ks : List κ) (t : Table key) :
    (ks.foldl (fun t k => t.erase k) t).keys = t.keys \ ks.toFinset := by
  induction ks generalizing t with
  | nil => simp
  | cons k ks ih =>
      rw [List.foldl_cons, ih, keys_erase]
      ext x
      simp only [Finset.mem_sdiff, Finset.mem_singleton, List.toFinset_cons, Finset.mem_insert]
      grind

end Table

/-! ### Rounds -/

namespace Reconcile

variable {κ : Type} [DecidableEq κ]

/-- How far the two sets are apart. -/
def gap (wanted held : Finset κ) : Nat := (symmDiff wanted held).card

/-- A set smaller by some of what was apart. -/
theorem gap_lt {wanted held wanted' held' asked : Finset κ} (some_ : asked.Nonempty)
    (apart : asked ⊆ symmDiff wanted held)
    (less : symmDiff wanted' held' ⊆ symmDiff wanted held \ asked) :
    gap wanted' held' < gap wanted held := by
  apply Finset.card_lt_card
  apply Finset.ssubset_of_subset_of_ssubset less
  rw [Finset.ssubset_iff_subset_ne]
  refine ⟨Finset.sdiff_subset, fun same => ?_⟩
  rcases some_ with ⟨k, member⟩
  have kept : k ∈ symmDiff wanted held \ asked := by
    rw [same]
    exact apart member
  exact (Finset.mem_sdiff.mp kept).2 member

/-- Keys are asked for, some of them are taken in, and the rest is given up. -/
theorem gap_lt_of_add {wanted held asked held' : Finset κ} (some_ : asked.Nonempty)
    (missing : asked ⊆ wanted \ held) (grows : held ⊆ held') (within : held' ⊆ held ∪ asked) :
    gap (wanted \ (asked \ held')) held' < gap wanted held := by
  apply gap_lt some_
  · intro k member
    have := missing member
    simp only [Finset.mem_sdiff, Finset.mem_symmDiff] at this ⊢
    exact .inl this
  · intro k member
    have asks := @missing k
    have older := @grows k
    have newer := @within k
    simp only [Finset.mem_sdiff, Finset.mem_symmDiff, Finset.mem_union] at *
    grind

/-- Keys that are not wanted are taken out. -/
theorem gap_lt_of_remove {wanted held asked : Finset κ} (some_ : asked.Nonempty)
    (surplus : asked ⊆ held \ wanted) : gap wanted (held \ asked) < gap wanted held := by
  apply gap_lt some_
  · intro k member
    have := surplus member
    simp only [Finset.mem_sdiff, Finset.mem_symmDiff] at this ⊢
    exact .inr this
  · intro k member
    have asks := @surplus k
    simp only [Finset.mem_sdiff, Finset.mem_symmDiff] at *
    grind

end Reconcile

end Repartee.Lib
