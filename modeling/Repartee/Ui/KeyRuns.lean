import Repartee.Ui.InputInvariant

/-!
Runs of the keys. No slice is taken off a boundary, and the cursor and any correction stay in the
line, as long as no key moves the text under a correction that stays active, no correction is taken
back or changed with the cursor inside the word, and no word is deleted back to white space of more
than one byte.
-/

namespace Repartee.Ui

open Repartee.Text
open Repartee.Lib.Offsets

/-- What a key has to find for the offsets to hold. -/
def OffsetsHold (s : InputState) : Key → Prop
  | .esc | .backspace | .tab => CursorBeside s
  | .delete | .clearToEnd | .insertEmote _ => SpellEnds s s.cursorPos
  | .clearToStart => NoSpell s ∨ s.cursorPos = 0
  | .deleteWordBack =>
      s.cursorPos = 0 ∨ ∀ before, sliceTo s.value s.cursorPos = some before → WordDeletes s before
  | .up => NoSpell s ∨ s.history = [] ∨ s.historyIndex = some 0
  | .down => NoSpell s ∨ s.historyIndex = none
  | .eraseLine => NoSpell s ∨ s.value = []
  | .paste text => (InputState.pastedLines text).length ≤ 1 ∨ NoSpell s ∨ s.value = []
  | _ => True

section Loops

variable {s : InputState} {p : Char → Bool} {n : Nat}

/-- The cursor is at the start, or behind a character without the property. -/
def StopsBackward (p : Char → Bool) (t : InputState) : Prop :=
  ∀ before, sliceTo t.value t.cursorPos = some before → before.getLast?.any p = false

def StopsForward (p : Char → Bool) (t : InputState) : Prop :=
  ∀ after, sliceFrom t.value t.cursorPos = some after → after.head?.any p = false

theorem stopsBackward_zero (first : s.cursorPos = 0) : StopsBackward p s := by
  intro before found
  have empty : sliceTo s.value 0 = some [] := sliceTo_append [] s.value
  rw [first, empty] at found
  cases found
  rfl

/-- The cursor bounds the moves to the left. -/
theorem backwardWhile_good (good : Good s) :
    ∃ t, InputState.backwardWhile p n s = some t ∧ Good t ∧
      (s.cursorPos ≤ n → StopsBackward p t) := by
  induction n generalizing s with
  | zero =>
      refine ⟨s, rfl, good, ?_⟩
      intro bound
      exact stopsBackward_zero (Nat.le_zero.mp bound)
  | succ n ih =>
      rw [InputState.backwardWhile]
      by_cases moved : 0 < s.cursorPos
      · rcases good.parts with ⟨front, back, value, cursor⟩
        have before : sliceTo s.value s.cursorPos = some front := by
          rw [value, cursor, sliceTo_append]
        rw [if_pos moved, before, Option.bind_eq_bind, Option.bind_some]
        by_cases held : front.getLast?.any p = true
        · have some_ : front ≠ [] := by
            rintro rfl
            cases held
          have step : s.moveLeft = some { s with cursorPos := lastStart front, tabState := none } := by
            rw [InputState.moveLeft, if_pos moved, before]
            rfl
          have kept : Good { s with cursorPos := lastStart front, tabState := none } := by
            rcases moveLeft_good good with ⟨t, ran, next⟩
            rw [step] at ran
            cases ran
            exact next
          rw [if_pos held, step, Option.bind_some]
          rcases ih kept with ⟨t, ran, result, stops⟩
          refine ⟨t, ran, result, ?_⟩
          intro bound
          apply stops
          have shorter := lastStart_lt some_
          change lastStart front ≤ n
          omega
        · refine ⟨s, by rw [if_neg held], good, ?_⟩
          intro _ other found
          rw [before] at found
          cases found
          exact Bool.eq_false_iff.mpr held
      · exact ⟨s, by rw [if_neg moved], good, fun _ => stopsBackward_zero (by omega)⟩

/-- The text behind the cursor bounds the moves to the right. -/
theorem forwardWhile_good (good : Good s) :
    ∃ t, InputState.forwardWhile p n s = some t ∧ Good t ∧
      (utf8Length s.value - s.cursorPos ≤ n → StopsForward p t) := by
  induction n generalizing s with
  | zero =>
      rcases good.parts with ⟨front, back, value, cursor⟩
      refine ⟨s, rfl, good, ?_⟩
      intro bound after found
      rw [value, cursor, utf8Length_append] at bound
      rw [value, cursor, sliceFrom_append] at found
      cases found
      by_cases nothing : back = []
      · rw [nothing]
        rfl
      · have size := lastStart_lt nothing
        omega
  | succ n ih =>
      rcases good.parts with ⟨front, back, value, cursor⟩
      have after : sliceFrom s.value s.cursorPos = some back := by
        rw [value, cursor, sliceFrom_append]
      rw [InputState.forwardWhile, after, Option.bind_eq_bind, Option.bind_some]
      by_cases held : back.head?.any p = true
      · have some_ : back ≠ [] := by
          rintro rfl
          cases held
        have size := lastStart_lt some_
        have more : s.cursorPos < utf8Length s.value := by
          rw [value, cursor, utf8Length_append]
          omega
        have step : s.moveRight =
            some { s with cursorPos := s.cursorPos + secondStart back, tabState := none } := by
          rw [InputState.moveRight, if_pos more, after]
          rfl
        have kept : Good { s with
            cursorPos := s.cursorPos + secondStart back, tabState := none } := by
          rcases moveRight_good good with ⟨t, ran, next⟩
          rw [step] at ran
          cases ran
          exact next
        rw [if_pos held, step, Option.bind_some]
        rcases ih kept with ⟨t, ran, result, stops⟩
        refine ⟨t, ran, result, ?_⟩
        intro bound
        apply stops
        have further := secondStart_pos some_
        change utf8Length s.value - (s.cursorPos + secondStart back) ≤ n
        omega
      · refine ⟨s, by rw [if_neg held], good, ?_⟩
        intro _ other found
        rw [after] at found
        cases found
        exact Bool.eq_false_iff.mpr held

theorem backwardWord_good (good : Good s) : Keeps s.backwardWord := by
  rcases backwardWhile_good (p := isWhitespace) (n := s.cursorPos) good with ⟨t, ran, next, _⟩
  rcases backwardWhile_good (p := fun c => !isWhitespace c) (n := t.cursorPos) next with
    ⟨u, further, result, _⟩
  refine ⟨u, ?_, result⟩
  rw [InputState.backwardWord, ran]
  exact further

theorem forwardWord_good (good : Good s) : Keeps s.forwardWord := by
  rcases forwardWhile_good (p := fun c => !isWhitespace c)
    (n := utf8Length s.value - s.cursorPos) good with ⟨t, ran, next, _⟩
  rcases forwardWhile_good (p := isWhitespace) (n := utf8Length t.value - t.cursorPos) next with
    ⟨u, further, result, _⟩
  refine ⟨u, ?_, result⟩
  rw [InputState.forwardWord, ran]
  exact further

theorem insertText_good (good : Good s) (text : Str) : Keeps (s.insertText text) := by
  induction text generalizing s with
  | nil => exact ⟨s, rfl, good⟩
  | cons c rest ih =>
      rcases insertChar_good good c with ⟨t, typed, next⟩
      rcases ih next with ⟨u, ran, result⟩
      refine ⟨u, ?_, result⟩
      rw [InputState.insertText, List.foldlM_cons, typed]
      exact ran

end Loops

section Keys

variable {s : InputState} {front back : Str}

theorem Keeps.bind {result : Option InputState} {next : InputState → Option InputState}
    (first : Keeps result) (later : ∀ t, Good t → Keeps (next t)) : Keeps (result.bind next) := by
  rcases first with ⟨t, rfl, good⟩
  exact later t good

theorem typeChar_good (env : Surroundings) (good : Good s) (c : Char) :
    Keeps (s.typeChar env c) := by
  apply (insertChar_good good c).bind
  intro t next
  by_cases separator : InputState.isSeparator c = true
  · simp only [separator, if_true]
    exact checkSpelling_good env next
  · simp only [separator, Bool.false_eq_true, if_false]
    exact ⟨t, rfl, next⟩

theorem acceptWithSpace_good (good : Good s) {spell : SpellCorrection}
    (active : s.spellState = some spell) : Keeps (s.acceptWithSpace spell) := by
  rcases (good.spell spell active).stop with ⟨front, back, value, stop⟩
  rw [InputState.acceptWithSpace, value, ← stop, sliceFrom_append, Option.bind_eq_bind,
    Option.bind_some]
  split
  · exact ⟨_, rfl, accept_good good⟩
  · exact insertChar_good (accept_good good) ' '

theorem charKey_good (env : Surroundings) (good : Good s) (c : Char) : Keeps (s.charKey env c) := by
  rw [InputState.charKey]
  cases active : s.spellState with
  | none => exact typeChar_good env good c
  | some spell =>
      dsimp only
      split
      · exact typeChar_good env (accept_good good) c
      · split
        · exact acceptWithSpace_good good active
        · split
          · exact acceptSpellWithPunctuation_good good c
          · exact insertChar_good (accept_good good) c

theorem tabComplete_good (src : Sources) (good : Good s) (free : NoSpell s) :
    Keeps (s.tabComplete src) := by
  have shown : ∀ tab, Good (s.showCompletion tab) := by
    intro tab
    refine ⟨isBoundary_length _, ?_, good.history⟩
    intro spell active
    rw [InputState.showCompletion, free] at active
    cases active
  rw [InputState.tabComplete]
  cases s.tabState with
  | some tab =>
      dsimp only
      split
      · exact ⟨s, rfl, good⟩
      · exact ⟨_, rfl, shown _⟩
  | none =>
      rcases good.parts with ⟨front, back, value, cursor⟩
      have text : sliceTo s.value s.cursorPos = some front := by
        rw [value, cursor, sliceTo_append]
      simp only [text, Option.bind_eq_bind, Option.bind_some]
      cases beginCompletion src front with
      | none => exact ⟨s, rfl, good⟩
      | some tab => exact ⟨_, rfl, shown tab⟩

theorem tabKey_good (env : Surroundings) (good : Good s) (beside : CursorBeside s) :
    Keeps (s.tabKey env) := by
  rw [InputState.tabKey]
  cases active : s.spellState with
  | none => exact tabComplete_good _ good active
  | some spell =>
      dsimp only
      split
      · exact tabComplete_good _ (accept_good good) rfl
      · next replaced =>
          apply cycleSpellSuggestion_good good
          intro other same
          rw [active] at same
          cases same
          exact (beside spell active).resolve_left replaced

theorem enterKey_good (good : Good s) : Good s.enterKey :=
  submit_good (accept_good good) (Or.inl rfl)

theorem altEnterKey_good (good : Good s) : Keeps s.altEnterKey := by
  rw [InputState.altEnterKey]
  split
  · exact ⟨_, rfl, enterKey_good good⟩
  · exact insertNewline_good (accept_good good)

theorem paste_good (good : Good s) (text : Str)
    (held : (InputState.pastedLines text).length ≤ 1 ∨ NoSpell s ∨ s.value = []) :
    Keeps (s.paste text) := by
  rw [InputState.paste]
  split
  · exact insertText_good good _
  · next several => exact ⟨_, rfl, submit_good good (held.resolve_left several)⟩

theorem insertEmote_good (good : Good s) (name : Str) (ends : SpellEnds s s.cursorPos) :
    Keeps (s.insertEmote name) := by
  rcases good.parts with ⟨front, back, value, cursor⟩
  refine ⟨{ s with
      value := front ++ (':' :: name ++ [':']) ++ back
      cursorPos := utf8Length front + utf8Length (':' :: name ++ [':']), tabState := none },
    ?_, ?_, ?_, good.history⟩
  · rw [InputState.insertEmote, value, cursor, insertAt_append]
    rfl
  · rw [← utf8Length_append]
    exact isBoundary_append _ back
  · rw [cursor] at ends
    rw [List.append_assoc]
    exact ends.keep good value _

theorem restore_good (good : Good s) (text : Str) : Good (s.restore text) := by
  rw [InputState.restore]
  split
  · next empty =>
      refine ⟨isBoundary_length _, ?_, good.history⟩
      intro spell active
      have fits := good.spell spell active
      rw [List.isEmpty_iff.mp empty] at fits
      exact ⟨fits.start.more text, fits.stop.more text, fits.ordered⟩
  · exact good

/-- A key that finds what it has to has a result, and a good one. -/
theorem press_good (env : Surroundings) (key : Key) (good : Good s) (hold : OffsetsHold s key) :
    Keeps (press env s key) := by
  cases key with
  | esc =>
      rw [press]
      split
      · rcases dismissSpell_good good hold with ⟨t, ran, next, _⟩
        exact ⟨t, ran, next⟩
      · exact ⟨s, rfl, good⟩
  | clearToStart => exact clearToStart_good good hold
  | clearToEnd => exact clearToEnd_good good hold
  | deleteWordBack => exact deleteWordBack_good good hold
  | home => exact ⟨_, rfl, home_good good⟩
  | left => exact moveLeft_good good
  | right => exact moveRight_good good
  | toEnd => exact ⟨_, rfl, toEnd_good good⟩
  | altEnter => exact altEnterKey_good good
  | enter => exact ⟨_, rfl, enterKey_good good⟩
  | backspace =>
      rcases dismissSpell_good good hold with ⟨t, ran, next, free⟩
      rw [press, ran, Option.bind_some]
      exact backspace_good next free
  | delete => exact delete_good good hold
  | up => exact historyUp_good good hold
  | down => exact historyDown_good good hold
  | tab => exact tabKey_good env good hold
  | backTab => exact ⟨s, rfl, good⟩
  | char c =>
      rw [press]
      split
      · exact ⟨_, rfl, enterKey_good good⟩
      · exact charKey_good env good c
  | paste text => exact paste_good good text hold
  | insertText text => exact insertText_good good text
  | eraseLine => exact ⟨_, rfl, clear_good good hold⟩
  | backwardWord => exact backwardWord_good good
  | forwardWord => exact forwardWord_good good
  | insertEmote name => exact insertEmote_good good name hold
  | restore text => exact ⟨_, rfl, restore_good good text⟩

end Keys

/-- The cursor is in the line and on a boundary, and so is any correction. -/
structure Safe (s : InputState) : Prop where
  cursor : s.cursorPos ≤ utf8Length s.value ∧ IsBoundary s.value s.cursorPos
  spell : ∀ spell, s.spellState = some spell →
    spell.wordStart ≤ spell.wordEnd ∧ spell.wordEnd ≤ utf8Length s.value ∧
      IsBoundary s.value spell.wordStart ∧ IsBoundary s.value spell.wordEnd

/-- No key of the session fails, and each leaves the line safe. -/
def SafeSession (keys : List (Surroundings × Key)) : Prop :=
  ∀ front back, keys = front ++ back →
    ∃ s, pressKeys InputState.new front = some s ∧ Safe s

/-- Every key of the session finds what it has to. -/
def SessionHolds (s : InputState) : List (Surroundings × Key) → Prop
  | [] => True
  | key :: keys =>
      OffsetsHold s key.2 ∧ ∀ t, press key.1 s key.2 = some t → SessionHolds t keys

theorem Good.safe {s : InputState} (good : Good s) : Safe s := by
  refine ⟨⟨good.cursor.le, good.cursor⟩, ?_⟩
  intro spell active
  have fits := good.spell spell active
  exact ⟨fits.ordered, fits.stop.le, fits.start, fits.stop⟩

theorem pressKeys_good {s : InputState} (good : Good s) (front back : List (Surroundings × Key))
    (hold : SessionHolds s (front ++ back)) : Keeps (pressKeys s front) := by
  induction front generalizing s with
  | nil => exact ⟨s, rfl, good⟩
  | cons key front ih =>
      rcases press_good key.1 key.2 good hold.1 with ⟨t, pressed, next⟩
      rcases ih next (hold.2 t pressed) with ⟨u, ran, result⟩
      refine ⟨u, ?_, result⟩
      rw [pressKeys, List.foldlM_cons, pressed]
      exact ran

theorem keys_safe (keys : List (Surroundings × Key)) (hold : SessionHolds InputState.new keys) :
    SafeSession keys := by
  intro front back whole
  rw [whole] at hold
  rcases pressKeys_good good_new front back hold with ⟨s, ran, good⟩
  exact ⟨s, ran, good.safe⟩

/-- A checker that knows one mistake. -/
def oneMistake : Surroundings :=
  { sources := twoNicks
    checker := some
      { check := fun word => word != "wrod".toList, suggest := fun _ => ["word".toList, "rod".toList] }
    alphanumeric := fun c => c.isAlphanum
    highlightOnly := false }

def typed (text : Str) : List (Surroundings × Key) :=
  text.map fun c => (oneMistake, Key.char c)

theorem typed_holds {s t : InputState} (text : Str) (keys : List (Surroundings × Key))
    (ran : pressKeys s (typed text) = some t) (later : SessionHolds t keys) :
    SessionHolds s (typed text ++ keys) := by
  induction text generalizing s with
  | nil =>
      cases ran
      exact later
  | cons c text ih =>
      refine ⟨trivial, ?_⟩
      intro u pressed
      apply ih
      rw [typed, List.map_cons, pressKeys, List.foldlM_cons, pressed] at ran
      exact ran

/-- A correction with the cursor behind it. -/
def corrected (word : Str) (index : Nat) : InputState :=
  { InputState.new with
    value := "a ".toList ++ word ++ " ".toList
    cursorPos := word.length + 3
    spellState := some
      { wordStart := 2, wordEnd := word.length + 2, original := "wrod".toList
        suggestions := ["word".toList, "rod".toList], index := index, highlightOnly := false } }

theorem corrected_beside (word : Str) (index : Nat) : CursorBeside (corrected word index) := by
  intro spell active
  cases active
  exact Or.inr (Or.inr (Nat.le_succ _))

/-- The correction is cycled and taken back with the cursor behind it. -/
theorem keys_safe_correction :
    SafeSession (typed "a wrod ".toList ++ [(oneMistake, .tab), (oneMistake, .esc)]) := by
  apply keys_safe
  have correct : pressKeys InputState.new (typed "a wrod ".toList) =
      some (corrected "word".toList 0) := by decide +kernel
  have cycle : press oneMistake (corrected "word".toList 0) .tab =
      some (corrected "rod".toList 1) := by decide +kernel
  apply typed_holds _ _ correct
  refine ⟨corrected_beside _ _, ?_⟩
  intro t pressed
  rw [cycle] at pressed
  cases pressed
  exact ⟨corrected_beside _ _, fun _ _ => trivial⟩

/-- A word behind a no-break space is deleted; and the line is cut back to its end in front of a
correction that is taken back afterwards. -/
theorem keys_fail :
    ¬ SafeSession (typed ['a', Char.ofNat 0xA0, 'b'] ++ [(oneMistake, .deleteWordBack)]) ∧
      ¬ SafeSession (typed "wrod ".toList ++ [(oneMistake, .clearToStart), (oneMistake, .esc)]) := by
  have ended : pressKeys InputState.new
      (typed ['a', Char.ofNat 0xA0, 'b'] ++ [(oneMistake, .deleteWordBack)]) = none := by
    decide +kernel
  have stale : pressKeys InputState.new
      (typed "wrod ".toList ++ [(oneMistake, .clearToStart), (oneMistake, .esc)]) = none := by
    decide +kernel
  constructor
  · intro safe
    rcases safe _ [] (List.append_nil _).symm with ⟨s, ran, _⟩
    rw [ended] at ran
    cases ran
  · intro safe
    rcases safe _ [] (List.append_nil _).symm with ⟨s, ran, _⟩
    rw [stale] at ran
    cases ran

end Repartee.Ui
