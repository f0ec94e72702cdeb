import Mathlib

/-!
Runs of a machine whose steps are labelled by operations, and the induction on their length.
-/

namespace Repartee.Lib

variable {σ ι : Type}

/-- The state reached when the operations run in order. -/
def runFrom (exec : σ → ι → σ) (start : σ) (ops : List ι) : σ := ops.foldl exec start

/-- Every operation is allowed in the state it runs in. -/
def Along (allowed : σ → ι → Prop) (exec : σ → ι → σ) : σ → List ι → Prop
  | _, [] => True
  | s, op :: rest => allowed s op ∧ Along allowed exec (exec s op) rest

variable {allowed : σ → ι → Prop} {exec : σ → ι → σ}

instance Along.decidable [∀ s op, Decidable (allowed s op)] :
    ∀ s ops, Decidable (Along allowed exec s ops)
  | _, [] => inferInstanceAs (Decidable True)
  | s, op :: rest =>
      have := Along.decidable (exec s op) rest
      inferInstanceAs (Decidable (allowed s op ∧ Along allowed exec (exec s op) rest))

@[simp] theorem runFrom_nil (s : σ) : runFrom exec s [] = s := rfl

@[simp] theorem runFrom_cons (s : σ) (op : ι) (rest : List ι) :
    runFrom exec s (op :: rest) = runFrom exec (exec s op) rest := rfl

theorem runFrom_append (s : σ) (first second : List ι) :
    runFrom exec s (first ++ second) = runFrom exec (runFrom exec s first) second :=
  List.foldl_append

theorem along_of_forall (all : ∀ s op, allowed s op) (s : σ) (ops : List ι) :
    Along allowed exec s ops := by
  induction ops generalizing s with
  | nil => trivial
  | cons op rest ih => exact ⟨all s op, ih (exec s op)⟩

/-- What one allowed step preserves, a run of allowed steps preserves. -/
theorem Along.invariant {inv : σ → Prop}
    (step : ∀ s op, inv s → allowed s op → inv (exec s op)) {s : σ} {ops : List ι}
    (along : Along allowed exec s ops) (start : inv s) : inv (runFrom exec s ops) := by
  induction ops generalizing s with
  | nil => exact start
  | cons op rest ih => exact ih along.2 (step s op start along.1)

theorem along_append (s : σ) (first second : List ι) :
    Along allowed exec s (first ++ second) ↔
      Along allowed exec s first ∧ Along allowed exec (runFrom exec s first) second := by
  induction first generalizing s with
  | nil => simp [Along]
  | cons op rest ih => simp [Along, ih, and_assoc]

theorem runFrom_invariant (inv : σ → Prop) (step : ∀ s op, inv s → inv (exec s op)) (s : σ)
    (ops : List ι) (start : inv s) : inv (runFrom exec s ops) := by
  induction ops generalizing s with
  | nil => exact start
  | cons op rest ih => exact ih (exec s op) (step s op start)

/-- The induction over a fold that may stop: what holds of the items handled and the state they
lead to. -/
theorem foldlM_invariant {step : σ → ι → Option σ} (inv : List ι → σ → Prop) (items : List ι)
    (next : ∀ done s item s', item ∈ items → inv done s → step s item = some s' →
      inv (done ++ [item]) s') (s last : σ) (start : inv [] s)
    (run : items.foldlM step s = some last) : inv items last := by
  have along : ∀ todo done s, done ++ todo = items → inv done s →
      todo.foldlM step s = some last → inv items last := by
    intro todo
    induction todo with
    | nil =>
        intro done s split held stop
        cases stop
        simpa [← split] using held
    | cons item rest ih =>
        intro done s split held run
        rw [List.foldlM_cons, Option.bind_eq_bind, Option.bind_eq_some_iff] at run
        obtain ⟨s', moved, run⟩ := run
        have member : item ∈ items := by simp [← split]
        exact ih (done ++ [item]) s' (by simp [← split]) (next done s item s' member held moved) run
  exact along items [] s rfl start run

end Repartee.Lib
