import Repartee.Lib.Prog

/-!
Programs that neither see nor touch a part of the state: changing that part first or last is the
same. What such a program returns does not depend on the part.
-/

namespace Repartee.Lib.Prog

variable {σ ε α β : Type}

/-- Running the program on the changed state gives the same result, in the same changed state. -/
def Blind (f : σ → σ) (m : Prog σ ε α) : Prop := ∀ s, m (f s) = ((m s).1, f (m s).2)

section Rules

variable {f : σ → σ}

theorem Blind.result {m : Prog σ ε α} (blind : Blind f m) (s : σ) : (m (f s)).1 = (m s).1 := by
  rw [blind s]

theorem Blind.run {m : Prog σ ε α} (blind : Blind f m) {s s' : σ} {r : Except ε α}
    (ran : m s = (r, s')) : m (f s) = (r, f s') := by
  rw [blind s, ran]

theorem blind_pure (a : α) : Blind f (pure a : Prog σ ε α) := fun _ => rfl

theorem blind_fail (e : ε) : Blind f (fail e : Prog σ ε α) := fun _ => rfl

theorem blind_lift (r : Except ε α) : Blind f (lift r : Prog σ ε α) := fun _ => rfl

theorem blind_read (g : σ → α) (same : ∀ s, g (f s) = g s) :
    Blind f (read g : Prog σ ε α) := by
  intro s
  simp only [read, same]

/-- A program that goes on from the whole state sees no more of it than its steps do. -/
theorem blind_whole {next : σ → Prog σ ε α} (same : ∀ s, next (f s) = next s)
    (rest : ∀ s, Blind f (next s)) : Blind f (read id >>= next) := by
  intro s
  show next (f s) (f s) = ((next s s).1, f (next s s).2)
  rw [same s, rest s s]

theorem blind_change (g : σ → σ) (commutes : ∀ s, g (f s) = f (g s)) :
    Blind f (change g : Prog σ ε Unit) := by
  intro s
  simp only [change, commutes]

theorem blind_update (g : σ → α × σ) (commutes : ∀ s, g (f s) = ((g s).1, f (g s).2)) :
    Blind f (update g : Prog σ ε α) := by
  intro s
  simp only [update, commutes]

theorem Blind.bind {m : Prog σ ε β} {next : β → Prog σ ε α} (first : Blind f m)
    (rest : ∀ b, Blind f (next b)) : Blind f (m >>= next) := by
  intro s
  cases ran : m s with
  | mk result s' =>
      cases result with
      | ok b => rw [bind_of_ok ran, bind_of_ok (first.run ran), rest b s']
      | error e => rw [bind_of_error ran, bind_of_error (first.run ran)]

theorem blind_ite (c : Prop) [Decidable c] {m n : Prog σ ε α} (yes : Blind f m)
    (no : Blind f n) : Blind f (if c then m else n) := by
  split
  · exact yes
  · exact no

theorem blind_ensure (c : Bool) (e : ε) : Blind f (ensure c e) := by
  cases c
  · exact blind_fail e
  · exact blind_pure ()

theorem blind_onlyIf (c : Bool) {m : Prog σ ε Unit} (blind : Blind f m) :
    Blind f (onlyIf c m) := by
  cases c
  · exact blind_pure ()
  · exact blind

theorem Blind.attempt {m : Prog σ ε α} (blind : Blind f m) : Blind f (attempt m) := by
  intro s
  simp only [Prog.attempt, blind s]

theorem Blind.mapError {ε' : Type} {m : Prog σ ε α} (g : ε → ε') (blind : Blind f m) :
    Blind f (mapError g m) := by
  intro s
  simp only [Prog.mapError, blind s]

theorem Blind.zoom {τ : Type} {part : τ → τ} {m : Prog τ ε α} (get : σ → τ) (put : τ → σ → σ)
    (seen : ∀ s, get (f s) = part (get s)) (stored : ∀ t s, put (part t) (f s) = f (put t s))
    (blind : Blind part m) : Blind f (zoom get put m) := by
  intro s
  simp only [Prog.zoom, seen, blind (get s), stored]

theorem blind_each {body : α → Prog σ ε Unit} (blind : ∀ a, Blind f (body a)) (items : List α) :
    Blind f (each body items) := by
  induction items with
  | nil => exact blind_pure ()
  | cons a rest ih => exact (blind a).bind fun _ => ih

theorem blind_collect {body : α → Prog σ ε β} (blind : ∀ a, Blind f (body a))
    (items : List α) : Blind f (collect body items) := by
  induction items with
  | nil => exact blind_pure []
  | cons a rest ih => exact (blind a).bind fun _ => ih.bind fun _ => blind_pure _

end Rules

end Repartee.Lib.Prog
