import Repartee.Lib.Run
import Repartee.Lib.Table

/-!
What goes in and comes out of a machine along its runs, counted with multiplicity.
-/

namespace Repartee.Lib

variable {σ ι M : Type} [AddCommMonoid M]

/-- What a quantity read off each step sums to along a run. -/
def runSum (exec : σ → ι → σ) (amount : σ → ι → M) : σ → List ι → M
  | _, [] => 0
  | s, op :: rest => amount s op + runSum exec amount (exec s op) rest

variable {exec : σ → ι → σ}

theorem runSum_add (f g : σ → ι → M) (s : σ) (ops : List ι) :
    runSum exec (fun s op => f s op + g s op) s ops = runSum exec f s ops + runSum exec g s ops := by
  induction ops generalizing s with
  | nil => simp [runSum]
  | cons op rest ih =>
      simp only [runSum, ih]
      exact add_add_add_comm _ _ _ _

@[simp] theorem runSum_zero (s : σ) (ops : List ι) : runSum exec (fun _ _ => (0 : M)) s ops = 0 := by
  induction ops generalizing s with
  | nil => rfl
  | cons op rest ih => simp [runSum, ih]

theorem map_runSum {N : Type} [AddCommMonoid N] (exec : σ → ι → σ) (h : M →+ N)
    (f : σ → ι → M) (s : σ) (ops : List ι) : h (runSum exec f s ops) = runSum exec (fun s op => h (f s op)) s ops := by
  induction ops generalizing s with
  | nil => exact map_zero h
  | cons op rest ih => simp only [runSum, map_add, ih]

/-- Steps that balance what they hold, take in and give out make runs that do. -/
theorem runSum_balance {allowed : σ → ι → Prop} (held : σ → M) (intake output : σ → ι → M)
    (step : ∀ s op, allowed s op → held s + intake s op = held (exec s op) + output s op)
    (s : σ) (ops : List ι) (along : Along allowed exec s ops) :
    held s + runSum exec intake s ops =
      held (runFrom exec s ops) + runSum exec output s ops := by
  induction ops generalizing s with
  | nil => rfl
  | cons op rest ih =>
      have here := step s op along.1
      have later := ih (exec s op) along.2
      simp only [runSum, runFrom_cons]
      calc
        held s + (intake s op + runSum exec intake (exec s op) rest)
            = held (exec s op) + output s op + runSum exec intake (exec s op) rest := by
              rw [← add_assoc, here]
        _ = held (exec s op) + runSum exec intake (exec s op) rest + output s op := by
              rw [add_right_comm]
        _ = held (runFrom exec (exec s op) rest) +
              (output s op + runSum exec output (exec s op) rest) := by
              rw [later, add_assoc, add_comm (runSum exec output (exec s op) rest)]

/-- The same for a quantity that may only grow on the right. -/
theorem runSum_bound [PartialOrder M] [IsOrderedAddMonoid M] {allowed : σ → ι → Prop}
    (held : σ → M) (intake output : σ → ι → M)
    (step : ∀ s op, allowed s op → held s + intake s op ≤ held (exec s op) + output s op)
    (s : σ) (ops : List ι) (along : Along allowed exec s ops) :
    held s + runSum exec intake s ops ≤
      held (runFrom exec s ops) + runSum exec output s ops := by
  induction ops generalizing s with
  | nil => exact le_refl _
  | cons op rest ih =>
      have here := step s op along.1
      have later := ih (exec s op) along.2
      simp only [runSum, runFrom_cons]
      calc
        held s + (intake s op + runSum exec intake (exec s op) rest)
            ≤ held (exec s op) + output s op + runSum exec intake (exec s op) rest := by
              rw [← add_assoc]
              exact add_le_add_left here _
        _ = held (exec s op) + runSum exec intake (exec s op) rest + output s op := by
              rw [add_right_comm]
        _ ≤ held (runFrom exec (exec s op) rest) + runSum exec output (exec s op) rest +
              output s op := add_le_add_left later _
        _ = held (runFrom exec (exec s op) rest) +
              (output s op + runSum exec output (exec s op) rest) := by
              rw [add_assoc, add_comm (runSum exec output (exec s op) rest)]

namespace Table

variable {α κ : Type} [DecidableEq κ] {key : α → κ} (t : Table key) (f : α → M)

/-- A quantity summed over the rows. -/
def total : M := (t.rows.map f).sum

omit [DecidableEq κ] in
@[simp] theorem total_empty [DecidableEq κ] : (empty : Table key).total f = 0 := rfl

omit [DecidableEq κ] in
theorem sum_filter_not (rows : List α) (p : α → Bool) :
    (rows.map f).sum = ((rows.filter fun r => !p r).map f).sum + ((rows.filter p).map f).sum := by
  induction rows with
  | nil => simp
  | cons r rest ih =>
      cases selected : p r with
      | true => simp [selected, ih, add_left_comm]
      | false => simp [selected, ih, add_assoc]

omit [DecidableEq κ] in
theorem total_delete (p : α → Bool) :
    t.total f = (t.delete p).total f + ((t.rows.filter p).map f).sum :=
  sum_filter_not f t.rows p

theorem total_erase (k : κ) :
    t.total f = (t.erase k).total f + ((t.find? k).map f).getD 0 := by
  have selected : (t.rows.filter fun r => decide (key r = k)) = (t.find? k).toList := by
    cases found : t.find? k with
    | none =>
        apply List.filter_eq_nil_iff.mpr
        intro r member
        simpa using (find?_eq_none t k).mp found r member
    | some r =>
        have member := ((find?_eq_some t k r).mp found)
        apply List.perm_singleton.mp
        apply (List.perm_ext_iff_of_nodup ((List.Nodup.of_map key t.unique).filter _)
          (List.nodup_singleton r)).mpr
        intro x
        simp only [List.mem_filter, decide_eq_true_eq, List.mem_singleton]
        constructor
        · intro inside
          exact mem_eq t x r inside.1 member.1 (inside.2.trans member.2.symm)
        · intro same
          rw [same]
          exact member
  rw [total_delete t f fun r => decide (key r = k), selected, ← erase]
  cases t.find? k <;> simp

theorem total_replace (r : α) : (t.replace r).total f = (t.erase (key r)).total f + f r := by
  simp [total, replace]

end Table

namespace Map

variable {κ ν : Type} [DecidableEq κ] (m : Map κ ν) (f : κ × ν → M) (k : κ)

theorem total_insert (v : ν) : (m.insert k v).total f = (m.erase k).total f + f (k, v) :=
  m.total_replace f (k, v)

theorem total_of_get? (v : ν) (found : m.get? k = some v) :
    m.total f = (m.erase k).total f + f (k, v) := by
  have row : m.find? k = some (k, v) := by
    rw [Table.find?_eq_some]
    exact ⟨(get?_eq_some m k v).mp found, rfl⟩
  rw [Table.total_erase m f k, row]
  rfl

theorem total_of_get?_none (absent : m.get? k = none) : m.total f = (m.erase k).total f := by
  have row : m.find? k = none := by simpa [get?] using absent
  rw [Table.total_erase m f k, row]
  simp

theorem total_erase_insert_self (v : ν) :
    Table.total ((m.insert k v).erase k) f = (m.erase k).total f := by
  simp [Table.total, insert, Table.replace, Table.erase, Table.delete]

theorem total_erase_insert (x : κ) (v : ν) (other : k ≠ x) :
    Table.total ((m.insert k v).erase x) f = (Table.erase (m.erase x) k).total f + f (k, v) := by
  simp [Table.total, insert, Table.replace, Table.erase, Table.delete, other, Bool.and_comm]

end Map

end Repartee.Lib
