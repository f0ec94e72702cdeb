import Repartee.Lib.Table

/-!
A state for every key: a call is answered from the state of its own key, so the answers to one key
are those it would get alone.
-/

namespace Repartee.Lib.Keyed

variable {κ β τ α : Type} [DecidableEq κ] (init : β) (step : β → τ → α × β)

def state (states : Map κ β) (key : κ) : β := (states.get? key).getD init

def answer (states : Map κ β) (call : κ × τ) : α × Map κ β :=
  let verdict := step (state init states call.1) call.2
  (verdict.1, states.insert call.1 verdict.2)

/-- The calls with their answers, in order. -/
def answers : Map κ β → List (κ × τ) → List ((κ × τ) × α)
  | _, [] => []
  | states, call :: rest =>
      let verdict := answer init step states call
      (call, verdict.1) :: answers verdict.2 rest

def answersAlone : β → List τ → List (τ × α)
  | _, [] => []
  | s, input :: rest =>
      let verdict := step s input
      (input, verdict.1) :: answersAlone verdict.2 rest

/-- The inputs of the calls made for a key. -/
def inputsOf (key : κ) (calls : List (κ × τ)) : List τ :=
  calls.filterMap fun call => if call.1 = key then some call.2 else none

theorem state_answer (states : Map κ β) (call : κ × τ) (key : κ) :
    state init (answer init step states call).2 key =
      if call.1 = key then (step (state init states key) call.2).2 else state init states key := by
  by_cases same : call.1 = key
  · subst same
    simp [state, answer, Map.get?_insert]
  · simp [state, answer, Map.get?_insert, same]

/-- What a key is answered does not depend on the calls made for other keys. -/
theorem answers_alone (states : Map κ β) (calls : List (κ × τ)) (key : κ) :
    ((answers init step states calls).filterMap fun entry =>
        if entry.1.1 = key then some (entry.1.2, entry.2) else none) =
      answersAlone step (state init states key) (inputsOf key calls) := by
  induction calls generalizing states with
  | nil => rfl
  | cons call rest ih =>
      have later := ih (answer init step states call).2
      rw [state_answer] at later
      by_cases same : call.1 = key
      · subst same
        simp only [if_true] at later
        simp only [answers, inputsOf, List.filterMap_cons, if_true, answersAlone, later]
        rfl
      · simp only [same, if_false] at later
        simp only [answers, inputsOf, List.filterMap_cons, same, if_false, later]

end Repartee.Lib.Keyed
