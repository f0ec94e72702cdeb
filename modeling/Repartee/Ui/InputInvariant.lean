import Repartee.Ui.Keys

/-!
The input line's invariant: the cursor and the ends of an active correction lie on character
boundaries. Each operation keeps it and takes no slice off a boundary, some of them only when they do
not move the text under a correction that stays active.
-/

namespace Repartee.Ui

open Repartee.Text
open Repartee.Lib.Offsets

structure SpellFits (value : Str) (spell : SpellCorrection) : Prop where
  start : IsBoundary value spell.wordStart
  stop : IsBoundary value spell.wordEnd
  ordered : spell.wordStart ≤ spell.wordEnd

structure Good (s : InputState) : Prop where
  cursor : IsBoundary s.value s.cursorPos
  spell : ∀ spell, s.spellState = some spell → SpellFits s.value spell
  history : ∀ i, s.historyIndex = some i → i < s.history.length

/-- The operation has a result, and a good one. -/
def Keeps (result : Option InputState) : Prop := ∃ t, result = some t ∧ Good t

def NoSpell (s : InputState) : Prop := s.spellState = none

/-- Any correction ends at or before the offset. -/
def SpellEnds (s : InputState) (offset : Nat) : Prop :=
  ∀ spell, s.spellState = some spell → spell.wordEnd ≤ offset

/-- The cursor is not inside a word that has been replaced. -/
def CursorBeside (s : InputState) : Prop :=
  ∀ spell, s.spellState = some spell →
    spell.highlightOnly = true ∨ s.cursorPos ≤ spell.wordStart ∨ spell.wordEnd ≤ s.cursorPos

/-- The white space in front of the word to delete is of one byte, and any correction is not behind
it. -/
def WordDeletes (s : InputState) (before : Str) : Prop :=
  (∀ c, (trimEnd before).reverse.find? isWhitespace = some c → c.utf8Size = 1) ∧
    SpellEnds s (InputState.wordBack before)

section Edits

variable {s : InputState} {front back : Str}

theorem Good.le (good : Good s) : s.cursorPos ≤ utf8Length s.value := good.cursor.le

theorem good_new : Good InputState.new := by
  constructor
  · exact isBoundary_zero _
  · intro spell active
    cases active
  · intro i active
    cases active

/-- The text around the cursor. -/
theorem Good.parts (good : Good s) :
    ∃ front back, s.value = front ++ back ∧ s.cursorPos = utf8Length front := by
  rcases good.cursor with ⟨front, back, value, cursor⟩
  exact ⟨front, back, value, cursor.symm⟩

/-- The correction of a text that stays as it is up to the correction's end. -/
theorem SpellFits.keep {spell : SpellCorrection} (fits : SpellFits (front ++ back) spell)
    (early : spell.wordEnd ≤ utf8Length front) (other : Str) : SpellFits (front ++ other) spell :=
  ⟨(isBoundary_front fits.start (le_trans fits.ordered early)).more other,
    (isBoundary_front fits.stop early).more other, fits.ordered⟩

theorem SpellEnds.keep (ends : SpellEnds s (utf8Length front)) (good : Good s)
    (value : s.value = front ++ back) (other : Str) :
    ∀ spell, s.spellState = some spell → SpellFits (front ++ other) spell := by
  intro spell active
  have fits := good.spell spell active
  rw [value] at fits
  exact fits.keep (ends spell active) other

theorem drain_append (front middle back : Str) :
    drain (front ++ (middle ++ back)) (utf8Length front) (utf8Length (front ++ middle)) =
      some (front ++ back) := by
  rw [drain, replaceRange_append, List.append_nil]

theorem insertChar_good (good : Good s) (c : Char) : Keeps (s.insertChar c) := by
  rcases good.parts with ⟨front, back, value, cursor⟩
  by_cases control : isControl c = true
  · exact ⟨s, by rw [InputState.insertChar, if_pos control], good⟩
  · refine ⟨{ s with
        value := front ++ [c] ++ back, cursorPos := s.cursorPos + c.utf8Size
        spellState := none, tabState := none }, ?_, ?_, ?_, good.history⟩
    · rw [InputState.insertChar, if_neg control, value, cursor, insertAt_append]
      rfl
    · have size : s.cursorPos + c.utf8Size = utf8Length (front ++ [c]) := by
        rw [utf8Length_append, cursor]
        simp
      exact size ▸ isBoundary_append (front ++ [c]) back
    · intro spell active
      cases active

theorem insertNewline_good (good : Good s) : Keeps s.insertNewline := by
  rcases good.parts with ⟨front, back, value, cursor⟩
  refine ⟨{ s with
      value := front ++ ['\n'] ++ back, cursorPos := s.cursorPos + 1
      spellState := none, tabState := none }, ?_, ?_, ?_, good.history⟩
  · rw [InputState.insertNewline, value, cursor, insertAt_append]
    rfl
  · have size : s.cursorPos + 1 = utf8Length (front ++ ['\n']) := by
      rw [utf8Length_append, cursor]
      rfl
    exact size ▸ isBoundary_append (front ++ ['\n']) back
  · intro spell active
    cases active

theorem backspace_good (good : Good s) (free : NoSpell s) : Keeps s.backspace := by
  rcases good.parts with ⟨front, back, value, cursor⟩
  by_cases moved : 0 < s.cursorPos
  · rcases lastStart_boundary front with ⟨a, b, rfl, start⟩
    refine ⟨{ s with value := a ++ back, cursorPos := lastStart (a ++ b), tabState := none },
      ?_, ?_, ?_, good.history⟩
    · rw [InputState.backspace, if_pos moved, value, cursor, sliceTo_append]
      simp only [Option.bind_eq_bind, Option.bind_some]
      rw [← start, List.append_assoc, drain_append]
      rfl
    · exact start ▸ isBoundary_append a back
    · intro spell active
      rw [free] at active
      cases active
  · exact ⟨{ s with tabState := none }, by rw [InputState.backspace, if_neg moved],
      good.cursor, good.spell, good.history⟩

theorem delete_good (good : Good s) (ends : SpellEnds s s.cursorPos) : Keeps s.delete := by
  rcases good.parts with ⟨front, back, value, cursor⟩
  by_cases more : s.cursorPos < utf8Length s.value
  · rcases secondStart_boundary back with ⟨a, b, rfl, next⟩
    refine ⟨{ s with value := front ++ b, tabState := none }, ?_, ?_, ?_, good.history⟩
    · rw [InputState.delete, if_pos more, value, cursor, sliceFrom_append]
      simp only [Option.bind_eq_bind, Option.bind_some]
      rw [← next, ← utf8Length_append, drain_append]
      rfl
    · exact cursor ▸ isBoundary_append front b
    · rw [cursor] at ends
      exact ends.keep good value b
  · exact ⟨{ s with tabState := none }, by rw [InputState.delete, if_neg more],
      good.cursor, good.spell, good.history⟩

theorem moveLeft_good (good : Good s) : Keeps s.moveLeft := by
  rcases good.parts with ⟨front, back, value, cursor⟩
  by_cases moved : 0 < s.cursorPos
  · refine ⟨{ s with cursorPos := lastStart front, tabState := none }, ?_, ?_, good.spell,
      good.history⟩
    · rw [InputState.moveLeft, if_pos moved, value, cursor, sliceTo_append]
      rfl
    · rw [value]
      exact (lastStart_boundary front).more back
  · exact ⟨{ s with tabState := none }, by rw [InputState.moveLeft, if_neg moved],
      good.cursor, good.spell, good.history⟩

theorem moveRight_good (good : Good s) : Keeps s.moveRight := by
  rcases good.parts with ⟨front, back, value, cursor⟩
  by_cases more : s.cursorPos < utf8Length s.value
  · refine ⟨{ s with cursorPos := s.cursorPos + secondStart back, tabState := none }, ?_, ?_,
      good.spell, good.history⟩
    · rw [InputState.moveRight, if_pos more, value, cursor, sliceFrom_append]
      rfl
    · rw [value, cursor]
      exact (secondStart_boundary back).behind front
  · exact ⟨{ s with tabState := none }, by rw [InputState.moveRight, if_neg more],
      good.cursor, good.spell, good.history⟩

theorem home_good (good : Good s) : Good s.home := ⟨isBoundary_zero _, good.spell, good.history⟩

theorem toEnd_good (good : Good s) : Good s.toEnd :=
  ⟨isBoundary_length _, good.spell, good.history⟩

theorem accept_good (good : Good s) : Good s.accept := by
  refine ⟨good.cursor, ?_, good.history⟩
  intro spell active
  cases active

theorem clearToStart_good (good : Good s) (held : NoSpell s ∨ s.cursorPos = 0) :
    Keeps s.clearToStart := by
  rcases good.parts with ⟨front, back, value, cursor⟩
  by_cases moved : 0 < s.cursorPos
  · refine ⟨{ s with value := back, cursorPos := 0, tabState := none }, ?_, isBoundary_zero _, ?_,
      good.history⟩
    · have removed := drain_append [] front back
      simp only [List.nil_append, utf8Length_nil] at removed
      rw [InputState.clearToStart, if_pos moved, value, cursor, removed]
      rfl
    · intro spell active
      have free : NoSpell s := held.resolve_right (by omega)
      rw [free] at active
      cases active
  · exact ⟨{ s with tabState := none }, by rw [InputState.clearToStart, if_neg moved],
      good.cursor, good.spell, good.history⟩

theorem clearToEnd_good (good : Good s) (ends : SpellEnds s s.cursorPos) : Keeps s.clearToEnd := by
  rcases good.parts with ⟨front, back, value, cursor⟩
  by_cases more : s.cursorPos < utf8Length s.value
  · refine ⟨{ s with value := front, tabState := none }, ?_, ?_, ?_, good.history⟩
    · rw [InputState.clearToEnd, if_pos more, value, cursor, sliceTo_append]
      rfl
    · exact cursor ▸ isBoundary_length front
    · rw [cursor] at ends
      have kept := ends.keep good value []
      rw [List.append_nil] at kept
      exact kept
  · exact ⟨{ s with tabState := none }, by rw [InputState.clearToEnd, if_neg more],
      good.cursor, good.spell, good.history⟩

theorem dropLastWhile_append (p : Char → Bool) (text : Str) :
    ∃ rest, text = (text.reverse.dropWhile p).reverse ++ rest := by
  refine ⟨(text.reverse.takeWhile p).reverse, ?_⟩
  rw [← List.reverse_append, List.takeWhile_append_dropWhile, List.reverse_reverse]

theorem trimEnd_append (text : Str) : ∃ white, text = trimEnd text ++ white :=
  dropLastWhile_append isWhitespace text

theorem find_last_white {a b : Str} {c : Char} (white : isWhitespace c = true)
    (none_ : ∀ d ∈ b, isWhitespace d = false) :
    (a ++ c :: b).reverse.find? isWhitespace = some c := by
  have quiet : b.reverse.find? isWhitespace = none := by
    rw [List.find?_eq_none]
    intro d member
    rw [none_ d (List.mem_reverse.mp member)]
    exact Bool.false_ne_true
  rw [List.reverse_append, List.reverse_cons, List.append_assoc, List.find?_append, quiet,
    Option.none_or, List.singleton_append, List.find?_cons_of_pos white]

/-- Where the white space is of one byte the word begins on a boundary. -/
theorem wordBack_boundary
    (narrow : ∀ c, (trimEnd front).reverse.find? isWhitespace = some c → c.utf8Size = 1) :
    IsBoundary front (InputState.wordBack front) := by
  rw [InputState.wordBack]
  cases found : rfind isWhitespace (trimEnd front) with
  | none => exact isBoundary_zero _
  | some i =>
      rcases rfind_some isWhitespace found with ⟨a, c, b, shape, white, start, none_⟩
      have one : c.utf8Size = 1 := by
        apply narrow
        rw [shape]
        exact find_last_white white none_
      rcases trimEnd_append front with ⟨rest, whole⟩
      have size : i + 1 = utf8Length (a ++ [c]) := by
        rw [utf8Length_append, start]
        simp [one]
      change IsBoundary front (i + 1)
      rw [whole, shape, size, List.append_cons]
      exact (isBoundary_append (a ++ [c]) b).more rest

theorem deleteWordBack_good (good : Good s)
    (held : s.cursorPos = 0 ∨
      ∀ before, sliceTo s.value s.cursorPos = some before → WordDeletes s before) :
    Keeps s.deleteWordBack := by
  rcases good.parts with ⟨front, back, value, cursor⟩
  by_cases first : s.cursorPos = 0
  · exact ⟨s, by rw [InputState.deleteWordBack, if_pos first], good⟩
  · have deletes : WordDeletes s front := by
      apply held.resolve_left first
      rw [value, cursor, sliceTo_append]
    rcases wordBack_boundary deletes.1 with ⟨a, b, rfl, start⟩
    refine ⟨{ s with
        value := a ++ back, cursorPos := InputState.wordBack (a ++ b), tabState := none },
      ?_, ?_, ?_, good.history⟩
    · rw [InputState.deleteWordBack, if_neg first, value, cursor, sliceTo_append]
      simp only [Option.bind_eq_bind, Option.bind_some]
      rw [← start, List.append_assoc, drain_append]
      rfl
    · exact start ▸ isBoundary_append a back
    · have ends := deletes.2
      rw [← start] at ends
      rw [List.append_assoc] at value
      exact ends.keep good value back

theorem clear_good (good : Good s) (held : NoSpell s ∨ s.value = []) : Good s.clear := by
  refine ⟨isBoundary_zero _, ?_, good.history⟩
  intro spell active
  rcases held with free | empty
  · rw [InputState.clear, free] at active
    cases active
  · have fits := good.spell spell active
    rw [empty] at fits
    exact fits

theorem submit_good (good : Good s) (held : NoSpell s ∨ s.value = []) : Good s.submit := by
  refine ⟨isBoundary_zero _, (clear_good good held).spell, ?_⟩
  intro i active
  cases active

end Edits

section History

variable {s : InputState}

theorem fromHistory_good (free : NoSpell s) {index : Nat} (there : index < s.history.length) :
    Keeps (s.fromHistory index) := by
  refine ⟨{ s with
      value := s.history[index], cursorPos := utf8Length s.history[index]
      historyIndex := some index, tabState := none }, ?_, isBoundary_length _, ?_, ?_⟩
  · rw [InputState.fromHistory, List.getElem?_eq_getElem there]
    rfl
  · intro spell active
    rw [free] at active
    cases active
  · intro i active
    rw [← Option.some.inj active]
    exact there

theorem historyUp_good (good : Good s)
    (held : NoSpell s ∨ s.history = [] ∨ s.historyIndex = some 0) : Keeps s.historyUp := by
  by_cases empty : s.history = []
  · exact ⟨s, by rw [InputState.historyUp, if_pos (List.isEmpty_iff.mpr empty)], good⟩
  · have some_ : ¬ s.history.isEmpty = true := by rwa [List.isEmpty_iff]
    have length := List.length_pos_of_ne_nil empty
    rw [InputState.historyUp, if_neg some_]
    cases position : s.historyIndex with
    | none =>
        have free : NoSpell s := by
          rcases held with free | none_ | first
          · exact free
          · exact absurd none_ empty
          · rw [position] at first
            cases first
        apply fromHistory_good (s := { s with savedInput := some s.value }) free
        exact Nat.sub_lt length Nat.one_pos
    | some index =>
        cases index with
        | zero =>
            exact ⟨{ s with tabState := none }, by simp only [position], good.cursor, good.spell,
              good.history⟩
        | succ index =>
            have free : NoSpell s := by
              rcases held with free | none_ | first
              · exact free
              · exact absurd none_ empty
              · rw [position] at first
                cases first
            apply fromHistory_good free
            have known := good.history _ position
            omega

theorem historyDown_good (good : Good s) (held : NoSpell s ∨ s.historyIndex = none) :
    Keeps s.historyDown := by
  rw [InputState.historyDown]
  cases position : s.historyIndex with
  | none =>
      exact ⟨{ s with tabState := none }, by simp only [position], good.cursor, good.spell,
        good.history⟩
  | some index =>
      have free : NoSpell s := by
        apply held.resolve_right
        rw [position]
        exact Option.some_ne_none index
      by_cases later : index + 1 < s.history.length
      · simp only [later, if_true]
        exact fromHistory_good free later
      · simp only [later, if_false]
        refine ⟨_, rfl, isBoundary_length _, ?_, ?_⟩
        · intro spell active
          rw [free] at active
          cases active
        · intro i active
          cases active

end History

section Spell

variable {s : InputState} {front middle back : Str}

/-- A cursor that was not inside the word stays on a boundary when the word is replaced. -/
theorem shiftedCursor_boundary {cursor : Nat} (text : Str)
    (boundary : IsBoundary (front ++ (middle ++ back)) cursor)
    (beside : cursor ≤ utf8Length front ∨ utf8Length (front ++ middle) ≤ cursor) :
    IsBoundary (front ++ text ++ back)
      (InputState.shiftedCursor cursor (utf8Length front) (utf8Length middle)
        (utf8Length text)) := by
  rw [InputState.shiftedCursor]
  by_cases behind : cursor > utf8Length front
  · rw [← List.append_assoc] at boundary
    rcases isBoundary_back boundary (beside.resolve_left (by omega)) with ⟨j, place, later⟩
    have shifted : cursor + utf8Length text - utf8Length middle = utf8Length (front ++ text) + j := by
      rw [place, utf8Length_append, utf8Length_append]
      omega
    rw [if_pos behind, shifted]
    exact later.behind (front ++ text)
  · rw [if_neg behind, List.append_assoc]
    exact (isBoundary_front boundary (by omega)).more _

/-- The text around the word of a correction. -/
theorem SpellFits.parts {value : Str} {spell : SpellCorrection} (fits : SpellFits value spell) :
    ∃ front middle back, value = front ++ (middle ++ back) ∧ spell.wordStart = utf8Length front ∧
      spell.wordEnd = utf8Length (front ++ middle) :=
  cut fits.start fits.stop fits.ordered

theorem dismissSpell_good (good : Good s) (beside : CursorBeside s) :
    ∃ t, s.dismissSpell = some t ∧ Good t ∧ NoSpell t := by
  rw [InputState.dismissSpell]
  cases active : s.spellState with
  | none => exact ⟨s, rfl, good, active⟩
  | some spell =>
      by_cases marked : spell.highlightOnly = true
      · exact ⟨s.accept, by simp only [marked, if_true]; rfl, accept_good good, rfl⟩
      · rcases (good.spell spell active).parts with ⟨front, middle, back, value, start, stop⟩
        have place := (beside spell active).resolve_left marked
        have boundary := good.cursor
        rw [value] at boundary
        rw [start, stop] at place
        refine ⟨{ s with
            value := front ++ spell.original ++ back, spellState := none
            cursorPos := InputState.shiftedCursor s.cursorPos (utf8Length front) (utf8Length middle)
              (utf8Length spell.original) }, ?_, ⟨?_, ?_, good.history⟩, rfl⟩
        · have old : utf8Length (front ++ middle) - utf8Length front = utf8Length middle := by
            rw [utf8Length_append]
            omega
          simp only [marked, value, start, stop, replaceRange_append, old, Bool.false_eq_true,
            if_false, Option.bind_eq_bind, Option.bind_some]
        · exact shiftedCursor_boundary spell.original boundary place
        · intro other none_
          cases none_

theorem applySpellSuggestion_good (good : Good s) (index : Nat)
    (beside : ∀ spell, s.spellState = some spell →
      s.cursorPos ≤ spell.wordStart ∨ spell.wordEnd ≤ s.cursorPos) :
    Keeps (s.applySpellSuggestion index) := by
  rw [InputState.applySpellSuggestion]
  cases active : s.spellState with
  | none => exact ⟨s, rfl, good⟩
  | some spell =>
      cases chosen : spell.suggestions[index]? with
      | none => exact ⟨s, by simp only [chosen], good⟩
      | some replacement =>
          rcases (good.spell spell active).parts with ⟨front, middle, back, value, start, stop⟩
          have place := beside spell active
          have boundary := good.cursor
          rw [value] at boundary
          rw [start, stop] at place
          have old : utf8Length (front ++ middle) - utf8Length front = utf8Length middle := by
            rw [utf8Length_append]
            omega
          refine ⟨{ s with
              value := front ++ replacement ++ back
              cursorPos := InputState.shiftedCursor s.cursorPos (utf8Length front)
                (utf8Length middle) (utf8Length replacement)
              spellState := some { spell with
                wordEnd := utf8Length front + utf8Length replacement, index := index } },
            ?_, ?_, ?_, good.history⟩
          · simp only [chosen, value, start, stop, replaceRange_append, old, Option.bind_eq_bind,
              Option.bind_some]
          · exact shiftedCursor_boundary replacement boundary place
          · intro other same
            cases same
            constructor
            · rw [start, List.append_assoc]
              exact isBoundary_append front _
            · rw [← utf8Length_append]
              exact isBoundary_append (front ++ replacement) back
            · rw [start]
              exact Nat.le_add_right _ _

theorem cycleSpellSuggestion_good (good : Good s)
    (beside : ∀ spell, s.spellState = some spell →
      s.cursorPos ≤ spell.wordStart ∨ spell.wordEnd ≤ s.cursorPos) :
    Keeps s.cycleSpellSuggestion := by
  rw [InputState.cycleSpellSuggestion]
  cases active : s.spellState with
  | none => exact ⟨s, rfl, good⟩
  | some spell =>
      by_cases none_ : spell.suggestions.isEmpty = true
      · exact ⟨s, by simp only [none_, if_true], good⟩
      · simp only [none_, Bool.false_eq_true, if_false]
        exact applySpellSuggestion_good good _ beside

theorem acceptSpellWithPunctuation_good (good : Good s) (punct : Char) :
    Keeps (s.acceptSpellWithPunctuation punct) := by
  rw [InputState.acceptSpellWithPunctuation]
  cases active : s.spellState with
  | none => exact ⟨s, rfl, good⟩
  | some spell =>
      rcases (good.spell spell active).stop with ⟨front, back, value, stop⟩
      have drained : ∃ rest,
          InputState.dropCharAt s.value spell.wordEnd = some (front ++ rest) := by
        by_cases more : spell.wordEnd < utf8Length s.value
        · rcases secondStart_boundary back with ⟨a, b, rfl, next⟩
          refine ⟨b, ?_⟩
          rw [InputState.dropCharAt, if_pos more, value, ← stop, sliceFrom_append]
          simp only [Option.bind_eq_bind, Option.bind_some]
          rw [← next, ← utf8Length_append, drain_append]
        · exact ⟨back, by rw [InputState.dropCharAt, if_neg more, value]⟩
      rcases drained with ⟨rest, result⟩
      refine ⟨{ s with
          value := front ++ [punct] ++ rest, spellState := none
          cursorPos := spell.wordEnd + punct.utf8Size }, ?_, ?_, ?_, good.history⟩
      · simp only [result, Option.bind_eq_bind, Option.bind_some]
        rw [← stop, insertAt_append]
        rfl
      · have size : spell.wordEnd + punct.utf8Size = utf8Length (front ++ [punct]) := by
          rw [utf8Length_append, stop]
          simp
        exact size ▸ isBoundary_append (front ++ [punct]) rest
      · intro other none_
        cases none_

end Spell

section Check

variable {s : InputState} {front back word : Str}

theorem lastWordStart_parts (text : Str) :
    ∃ a word, text = a ++ word ∧ InputState.lastWordStart text = some (utf8Length a) := by
  rw [InputState.lastWordStart]
  cases found : rfind isWhitespace text with
  | none => exact ⟨[], text, rfl, rfl⟩
  | some i =>
      rcases rfind_some isWhitespace found with ⟨a, c, b, rfl, _, start, _⟩
      refine ⟨a ++ [c], b, by rw [List.append_cons], ?_⟩
      change Option.map _ (sliceFrom (a ++ c :: b) i) = _
      rw [← start, sliceFrom_append, Option.map_some, utf8Length_append]
      rfl

/-- What ended before the cursor stands in front of the cursor. -/
theorem lastCompletedWord_good (value : s.value = front ++ back)
    (cursor : s.cursorPos = utf8Length front) :
    ∃ found, s.lastCompletedWord = some found ∧ ∀ start word, found = some (start, word) →
      ∃ a white, front = a ++ (word ++ white) ∧ start = utf8Length a := by
  rcases trimEnd_append front with ⟨white, whole⟩
  rw [InputState.lastCompletedWord, value, cursor, sliceTo_append, Option.bind_eq_bind,
    Option.bind_some]
  by_cases blank : (trimEnd front).isEmpty = true
  · refine ⟨none, by simp only [blank, if_true], ?_⟩
    intro start word none_
    cases none_
  · rcases lastWordStart_parts (trimEnd front) with ⟨a, word, shape, start⟩
    have behind : sliceFrom (trimEnd front) (utf8Length a) = some word := by
      rw [shape, sliceFrom_append]
    refine ⟨if word.isEmpty then none else some (utf8Length a, word), ?_, ?_⟩
    · simp only [blank, Bool.false_eq_true, if_false, start, behind, Option.bind_eq_bind,
        Option.bind_some]
      by_cases empty : word.isEmpty = true
      · rw [if_pos empty, if_pos empty]
      · rw [if_neg empty, if_neg empty]
    · intro first other same
      rw [Option.ite_none_left_eq_some] at same
      cases same.2
      refine ⟨a, white, ?_, rfl⟩
      rw [← List.append_assoc, ← shape]
      exact whole

theorem stripWordPunctuation_parts (alphanumeric : Char → Bool) (word : Str) :
    ∃ a rest, word = a ++ ((stripWordPunctuation alphanumeric word).1 ++ rest) ∧
      (stripWordPunctuation alphanumeric word).2.1 = utf8Length a ∧
      (stripWordPunctuation alphanumeric word).2.2 =
        utf8Length a + utf8Length (stripWordPunctuation alphanumeric word).1 := by
  by_cases none_ : (word.dropWhile fun c => !alphanumeric c).isEmpty = true
  · refine ⟨[], word, ?_, ?_, ?_⟩
    all_goals simp only [stripWordPunctuation, none_, if_true]
    all_goals rfl
  · rcases dropLastWhile_append (fun c => !alphanumeric c)
      (word.dropWhile fun c => !alphanumeric c) with ⟨rest, tail⟩
    refine ⟨word.takeWhile fun c => !alphanumeric c, rest, ?_, ?_, ?_⟩
    · simp only [stripWordPunctuation, none_, Bool.false_eq_true, if_false]
      rw [← tail, List.takeWhile_append_dropWhile]
    all_goals simp only [stripWordPunctuation, none_, Bool.false_eq_true, if_false]

theorem correct_good (good : Good s) {spell : SpellCorrection} (fits : SpellFits s.value spell)
    (behind : spell.wordEnd ≤ s.cursorPos) : Keeps (s.correct spell) := by
  have marked : Good { s with spellState := some spell } := by
    refine ⟨good.cursor, ?_, good.history⟩
    intro other same
    cases same
    exact fits
  by_cases only : spell.highlightOnly = true
  · exact ⟨_, by rw [InputState.correct, if_pos only], marked⟩
  · rw [InputState.correct, if_neg only]
    apply applySpellSuggestion_good marked
    intro other same
    cases same
    exact Or.inr behind

theorem checkSpelling_good (env : Surroundings) (good : Good s) : Keeps (s.checkSpelling env) := by
  rw [InputState.checkSpelling]
  cases env.checker with
  | none => exact ⟨s, rfl, good⟩
  | some checker =>
      by_cases command : s.isCommand = true
      · exact ⟨s, by simp only [command, if_true], good⟩
      · rcases good.parts with ⟨front, back, value, cursor⟩
        rcases lastCompletedWord_good value cursor with ⟨found, looked, place⟩
        simp only [command, Bool.false_eq_true, if_false, looked, Option.bind_eq_bind,
          Option.bind_some]
        cases found with
        | none => exact ⟨s, rfl, good⟩
        | some pair =>
            rcases place pair.1 pair.2 rfl with ⟨a, white, shape, start⟩
            rcases stripWordPunctuation_parts env.alphanumeric pair.2 with
              ⟨b, rest, word, offset, stop⟩
            dsimp only
            split
            · exact ⟨s, rfl, good⟩
            · generalize stripWordPunctuation env.alphanumeric pair.2 = stripped at word offset stop ⊢
              have text : front = (a ++ b) ++ (stripped.1 ++ (rest ++ white)) := by
                rw [shape, word]
                simp only [List.append_assoc]
              have first : pair.1 + stripped.2.1 = utf8Length (a ++ b) := by
                rw [start, offset, utf8Length_append]
              have last : pair.1 + stripped.2.2 = utf8Length ((a ++ b) ++ stripped.1) := by
                rw [start, stop, utf8Length_append, utf8Length_append]
                omega
              apply correct_good good
              · rw [value, text]
                constructor
                · exact first ▸ (isBoundary_append (a ++ b) _).more back
                · rw [← List.append_assoc (a ++ b)]
                  exact last ▸ (isBoundary_append ((a ++ b) ++ stripped.1) _).more back
                · simp only [offset, stop]
                  omega
              · simp only [last, cursor, text, utf8Length_append]
                omega

end Check

end Repartee.Ui
