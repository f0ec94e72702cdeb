import Repartee.Text

/-!
Text addressed by byte offsets. An operation at an offset off the character boundaries, or past the
end, has no result: the program ends there.
-/

namespace Repartee.Lib.Offsets

open Repartee.Text

/-- The text before and after an offset. -/
def splitAtByte : Str → Nat → Option (Str × Str)
  | s, 0 => some ([], s)
  | [], _ + 1 => none
  | c :: rest, n + 1 =>
      if n + 1 < c.utf8Size then none
      else (splitAtByte rest (n + 1 - c.utf8Size)).map fun parts => (c :: parts.1, parts.2)

def sliceTo (s : Str) (i : Nat) : Option Str := (splitAtByte s i).map Prod.fst

def sliceFrom (s : Str) (i : Nat) : Option Str := (splitAtByte s i).map Prod.snd

def insertAt (s : Str) (i : Nat) (text : Str) : Option Str :=
  (splitAtByte s i).map fun parts => parts.1 ++ text ++ parts.2

def replaceRange (s : Str) (i j : Nat) (text : Str) : Option Str :=
  if i ≤ j then do
    let front ← sliceTo s i
    let back ← sliceFrom s j
    return front ++ text ++ back
  else none

def drain (s : Str) (i j : Nat) : Option Str := replaceRange s i j []

/-- The offset of the last character, and 0 of an empty text. -/
def lastStart (s : Str) : Nat := utf8Length s.dropLast

/-- Where the second character begins, or the end. -/
def secondStart : Str → Nat
  | [] => 0
  | c :: _ => c.utf8Size

/-- The offset of the last character with a property. -/
def rfind (p : Char → Bool) : Str → Option Nat
  | [] => none
  | c :: rest =>
      match rfind p rest with
      | some i => some (c.utf8Size + i)
      | none => if p c then some 0 else none

def IsBoundary (s : Str) (i : Nat) : Prop := ∃ front back, s = front ++ back ∧ utf8Length front = i

section Split

variable {s front back : Str} {i j : Nat}

theorem splitAtByte_append (front back : Str) :
    splitAtByte (front ++ back) (utf8Length front) = some (front, back) := by
  induction front with
  | nil =>
      rw [List.nil_append, utf8Length_nil]
      cases back with
      | nil => rfl
      | cons c rest => rfl
  | cons c rest ih =>
      have size := Char.utf8Size_pos c
      have shape : utf8Length (c :: rest) = (c.utf8Size + utf8Length rest - 1) + 1 := by
        rw [utf8Length_cons]
        omega
      have left_ : c.utf8Size + utf8Length rest - 1 + 1 - c.utf8Size = utf8Length rest := by omega
      rw [List.cons_append, shape, splitAtByte, if_neg (by omega), left_, ih]
      rfl

theorem splitAtByte_some (parts : Str × Str) (found : splitAtByte s i = some parts) :
    s = parts.1 ++ parts.2 ∧ utf8Length parts.1 = i := by
  induction s generalizing i parts with
  | nil =>
      cases i with
      | zero =>
          rw [← Option.some.inj found]
          exact ⟨rfl, rfl⟩
      | succ n => cases found
  | cons c rest ih =>
      cases i with
      | zero =>
          rw [← Option.some.inj found]
          exact ⟨rfl, rfl⟩
      | succ n =>
          simp only [splitAtByte, Option.ite_none_left_eq_some, Option.map_eq_some_iff] at found
          rcases found with ⟨wide, later, deeper, rfl⟩
          have split := ih later deeper
          constructor
          · rw [List.cons_append, ← split.1]
          · rw [utf8Length_cons, split.2]
            omega

theorem isBoundary_iff : IsBoundary s i ↔ ∃ parts, splitAtByte s i = some parts := by
  constructor
  · rintro ⟨front, back, rfl, rfl⟩
    exact ⟨_, splitAtByte_append front back⟩
  · rintro ⟨parts, found⟩
    exact ⟨parts.1, parts.2, splitAtByte_some parts found⟩

theorem sliceTo_append (front back : Str) :
    sliceTo (front ++ back) (utf8Length front) = some front := by
  rw [sliceTo, splitAtByte_append]
  rfl

theorem sliceFrom_append (front back : Str) :
    sliceFrom (front ++ back) (utf8Length front) = some back := by
  rw [sliceFrom, splitAtByte_append]
  rfl

theorem insertAt_append (front back text : Str) :
    insertAt (front ++ back) (utf8Length front) text = some (front ++ text ++ back) := by
  rw [insertAt, splitAtByte_append]
  rfl

theorem replaceRange_append (front middle back text : Str) :
    replaceRange (front ++ (middle ++ back)) (utf8Length front) (utf8Length (front ++ middle)) text =
      some (front ++ text ++ back) := by
  have shape : front ++ (middle ++ back) = (front ++ middle) ++ back := (List.append_assoc _ _ _).symm
  rw [replaceRange, if_pos (by rw [utf8Length_append]; omega), sliceTo_append, shape, sliceFrom_append]
  rfl

end Split

section Boundary

variable {s front back : Str} {i j : Nat}

theorem isBoundary_zero (s : Str) : IsBoundary s 0 := ⟨[], s, rfl, rfl⟩

theorem isBoundary_length (s : Str) : IsBoundary s (utf8Length s) := ⟨s, [], by simp, rfl⟩

theorem isBoundary_append (front back : Str) : IsBoundary (front ++ back) (utf8Length front) :=
  ⟨front, back, rfl, rfl⟩

theorem IsBoundary.le (boundary : IsBoundary s i) : i ≤ utf8Length s := by
  rcases boundary with ⟨front, back, rfl, rfl⟩
  rw [utf8Length_append]
  omega

/-- A boundary of the front is one of the whole. -/
theorem IsBoundary.more (boundary : IsBoundary front i) (back : Str) : IsBoundary (front ++ back) i := by
  rcases boundary with ⟨a, b, rfl, rfl⟩
  exact ⟨a, b ++ back, List.append_assoc _ _ _, rfl⟩

theorem IsBoundary.behind (boundary : IsBoundary back i) (front : Str) :
    IsBoundary (front ++ back) (utf8Length front + i) := by
  rcases boundary with ⟨a, b, rfl, rfl⟩
  exact ⟨front ++ a, b, (List.append_assoc _ _ _).symm, utf8Length_append front a⟩

/-- A boundary of the whole that is not past the front is one of the front. -/
theorem isBoundary_front (boundary : IsBoundary (front ++ back) i) (early : i ≤ utf8Length front) :
    IsBoundary front i := by
  rcases boundary with ⟨a, b, shape, rfl⟩
  rcases List.append_eq_append_iff.mp shape with ⟨c, rfl, _⟩ | ⟨c, rfl, _⟩
  · rw [utf8Length_append] at early
    have nothing : utf8Length c = 0 := by omega
    cases c with
    | nil => exact ⟨front, [], by simp, by simp⟩
    | cons d rest =>
        have size := Char.utf8Size_pos d
        rw [utf8Length_cons] at nothing
        omega
  · exact ⟨a, c, rfl, rfl⟩

/-- A boundary of the whole that is not in front of the back is one of the back. -/
theorem isBoundary_back (boundary : IsBoundary (front ++ back) i) (late : utf8Length front ≤ i) :
    ∃ j, i = utf8Length front + j ∧ IsBoundary back j := by
  rcases boundary with ⟨a, b, shape, rfl⟩
  rcases List.append_eq_append_iff.mp shape with ⟨c, rfl, rfl⟩ | ⟨c, rfl, _⟩
  · exact ⟨utf8Length c, utf8Length_append front c, isBoundary_append c b⟩
  · rw [utf8Length_append] at late
    refine ⟨0, ?_, isBoundary_zero back⟩
    rw [utf8Length_append]
    omega

/-- Two boundaries in order cut the text in three. -/
theorem cut (first : IsBoundary s i) (second : IsBoundary s j) (ordered : i ≤ j) :
    ∃ front middle back, s = front ++ (middle ++ back) ∧ i = utf8Length front ∧
      j = utf8Length (front ++ middle) := by
  rcases second with ⟨upTo, back, rfl, rfl⟩
  rcases isBoundary_front first ordered with ⟨front, middle, rfl, rfl⟩
  exact ⟨front, middle, back, List.append_assoc _ _ _, rfl, rfl⟩

theorem lastStart_boundary (s : Str) : IsBoundary s (lastStart s) := by
  cases s using List.reverseRecOn with
  | nil => exact isBoundary_zero []
  | append_singleton front c =>
      rw [lastStart, List.dropLast_concat]
      exact isBoundary_append front [c]

theorem lastStart_le (s : Str) : lastStart s ≤ utf8Length s := (lastStart_boundary s).le

theorem lastStart_lt (some_ : s ≠ []) : lastStart s < utf8Length s := by
  cases s using List.reverseRecOn with
  | nil => exact absurd rfl some_
  | append_singleton front c =>
      have size := Char.utf8Size_pos c
      rw [lastStart, List.dropLast_concat, utf8Length_append, utf8Length_cons]
      omega

theorem secondStart_pos (some_ : s ≠ []) : 0 < secondStart s := by
  cases s with
  | nil => exact absurd rfl some_
  | cons c rest => exact Char.utf8Size_pos c

theorem secondStart_boundary (s : Str) : IsBoundary s (secondStart s) := by
  cases s with
  | nil => exact isBoundary_zero []
  | cons c rest => exact ⟨[c], rest, rfl, by simp [secondStart]⟩

/-- A character that is found begins on a boundary. -/
theorem rfind_some (p : Char → Bool) (found : rfind p s = some i) :
    ∃ front c back, s = front ++ c :: back ∧ p c = true ∧ utf8Length front = i ∧
      ∀ d ∈ back, p d = false := by
  induction s generalizing i with
  | nil => cases found
  | cons c rest ih =>
      rw [rfind] at found
      cases later : rfind p rest with
      | some k =>
          rw [later] at found
          rcases ih later with ⟨front, d, back, rfl, held, size, none_⟩
          refine ⟨c :: front, d, back, rfl, held, ?_, none_⟩
          rw [utf8Length_cons, size]
          exact Option.some.inj found
      | none =>
          rw [later] at found
          simp only [Option.ite_none_right_eq_some, Option.some.injEq] at found
          refine ⟨[], c, rest, rfl, found.1, found.2, ?_⟩
          intro d member
          cases held : p d with
          | false => rfl
          | true =>
              have some_ : (rfind p rest).isSome = true := by
                clear ih found
                induction rest with
                | nil => cases member
                | cons e more ih =>
                    rw [rfind] at later ⊢
                    cases deeper : rfind p more with
                    | some k => rfl
                    | none =>
                        rw [deeper] at later
                        rcases List.mem_cons.mp member with rfl | there
                        · simp [held] at later
                        · have := ih deeper there
                          rw [deeper] at this
                          cases this
              rw [later] at some_
              cases some_

end Boundary

end Repartee.Lib.Offsets
