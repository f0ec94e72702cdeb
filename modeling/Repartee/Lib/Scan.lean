import Mathlib

/-!
Scanners: one round reads a piece off the front of a list, at least its first element, and leaves the
rest.
-/

namespace Repartee.Lib

section Scan

variable {α β : Type} (read : α → List α → β × List α)

/-- The rounds, with a bound on their number. -/
def scanFuel : Nat → List α → List β
  | _, [] => []
  | 0, _ :: _ => []
  | fuel + 1, c :: rest => (read c rest).1 :: scanFuel fuel (read c rest).2

/-- The pieces of the whole list. -/
def scan (s : List α) : List β := scanFuel read s.length s

/-- A round leaves no more than what follows the first element. -/
def Advancing : Prop := ∀ c rest, (read c rest).2.length ≤ rest.length

variable {read}

theorem scanFuel_enough (advances : Advancing read) (fuel : Nat) (s : List α)
    (enough : s.length ≤ fuel) : scanFuel read fuel s = scan read s := by
  have go : ∀ (n m : Nat) (s : List α), s.length ≤ n → s.length ≤ m →
      scanFuel read n s = scanFuel read m s := by
    intro n
    induction n with
    | zero =>
        intro m s first _
        have nothing : s = [] := List.length_eq_zero_iff.mp (by omega)
        simp [nothing, scanFuel]
    | succ n ih =>
        intro m s first second
        cases s with
        | nil => simp [scanFuel]
        | cons c rest =>
            have shorter := advances c rest
            simp only [List.length_cons] at first second
            cases m with
            | zero => omega
            | succ m =>
                rw [scanFuel, scanFuel, ih m (read c rest).2 (by omega) (by omega)]
  exact go fuel s.length s enough le_rfl

@[simp] theorem scan_nil : scan read [] = [] := rfl

theorem scan_cons (advances : Advancing read) (c : α) (rest : List α) :
    scan read (c :: rest) = (read c rest).1 :: scan read (read c rest).2 := by
  have step : scan read (c :: rest) = (read c rest).1 :: scanFuel read rest.length (read c rest).2 := rfl
  rw [step, scanFuel_enough advances _ _ (advances c rest)]

/-- What holds of the rest holds of the list: so it holds of every list. -/
theorem scan_induction (advances : Advancing read) {holds : List α → Prop} (nil : holds [])
    (round : ∀ c rest, holds (read c rest).2 → holds (c :: rest)) (s : List α) : holds s := by
  generalize size : s.length = n
  induction n using Nat.strong_induction_on generalizing s with
  | _ n ih =>
      cases s with
      | nil => exact nil
      | cons c rest =>
          have shorter := advances c rest
          simp only [List.length_cons] at size
          exact round c rest (ih _ (by omega) _ rfl)

end Scan

end Repartee.Lib
