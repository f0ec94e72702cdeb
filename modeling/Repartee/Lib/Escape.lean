import Mathlib.Data.List.Basic
import Mathlib.Tactic.Common

/-!
Escaped text: some letters are written as a mark and a code, and the reader takes the letter after
a mark for what it stands for.
-/

namespace Repartee.Lib

/-- The mark is itself written with a code, and every code stands for the letter it was written
for. -/
structure Escapes (α : Type) [DecidableEq α] where
  mark : α
  code : α → Option α
  meaning : α → α
  marked : (code mark).isSome = true
  inverse : ∀ c d, code c = some d → meaning d = c

namespace Escapes

variable {α : Type} [DecidableEq α] (E : Escapes α)

def letter (c : α) : List α :=
  match E.code c with
  | some d => [E.mark, d]
  | none => [c]

def escape (text : List α) : List α := text.flatMap E.letter

/-- A mark at the end stands for nothing. -/
def unescape : List α → List α
  | [] => []
  | [c] => if c = E.mark then [] else [c]
  | c :: d :: rest =>
      if c = E.mark then E.meaning d :: unescape rest else c :: unescape (d :: rest)

@[simp] theorem escape_nil : E.escape [] = [] := rfl

@[simp] theorem escape_cons (c : α) (text : List α) :
    E.escape (c :: text) = E.letter c ++ E.escape text := rfl

theorem letter_coded {c d : α} (coded : E.code c = some d) : E.letter c = [E.mark, d] := by
  simp only [letter, coded]

theorem letter_plain {c : α} (plain : E.code c = none) : E.letter c = [c] := by
  simp only [letter, plain]

/-- A letter that has no code is not the mark. -/
theorem ne_mark {c : α} (plain : E.code c = none) : c ≠ E.mark := by
  rintro rfl
  have marked := E.marked
  rw [plain] at marked
  cases marked

@[simp] theorem unescape_mark (d : α) (rest : List α) :
    E.unescape (E.mark :: d :: rest) = E.meaning d :: E.unescape rest := by
  rw [unescape, if_pos rfl]

theorem unescape_plain {c : α} (other : c ≠ E.mark) (rest : List α) :
    E.unescape (c :: rest) = c :: E.unescape rest := by
  cases rest with
  | nil => exact if_neg other
  | cons d rest => rw [unescape, if_neg other]

theorem unescape_letter (c : α) (rest : List α) :
    E.unescape (E.letter c ++ rest) = c :: E.unescape rest := by
  cases coded : E.code c with
  | some d =>
      rw [E.letter_coded coded]
      calc E.unescape ([E.mark, d] ++ rest)
          = E.meaning d :: E.unescape rest := E.unescape_mark d rest
        _ = c :: E.unescape rest := by rw [E.inverse c d coded]
  | none =>
      rw [E.letter_plain coded]
      exact E.unescape_plain (E.ne_mark coded) rest

/-- What was escaped is read back. -/
theorem unescape_escape (text : List α) : E.unescape (E.escape text) = text := by
  induction text with
  | nil => rfl
  | cons c text ih => rw [escape_cons, unescape_letter, ih]

/-- An escaped text has marks, codes and the letters that need none. -/
theorem mem_escape {x : α} {text : List α} (member : x ∈ E.escape text) :
    x = E.mark ∨ (∃ c ∈ text, E.code c = some x) ∨ (x ∈ text ∧ E.code x = none) := by
  obtain ⟨c, inside, written⟩ := List.mem_flatMap.mp member
  cases coded : E.code c with
  | some d =>
      rw [E.letter_coded coded] at written
      rcases List.mem_cons.mp written with mark | code
      · exact .inl mark
      · cases List.mem_singleton.mp code
        exact .inr (.inl ⟨c, inside, coded⟩)
  | none =>
      rw [E.letter_plain coded] at written
      cases List.mem_singleton.mp written
      exact .inr (.inr ⟨inside, coded⟩)

end Escapes

end Repartee.Lib
