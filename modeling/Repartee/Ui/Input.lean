import Repartee.Lib.Offsets
import Repartee.Irc.Batch

/-!
The input line: a text with a cursor, tab completion, inline spell correction and the history. All
offsets count bytes. An operation without a result is one that ends the program.
-/

namespace Repartee.Ui

open Repartee.Text
open Repartee.Lib.Offsets
open Repartee.Irc (Unicode)

structure SpellCorrection where
  wordStart : Nat
  wordEnd : Nat
  original : Str
  suggestions : List Str
  index : Nat
  /-- The word is marked, not replaced. -/
  highlightOnly : Bool
  deriving DecidableEq

structure TabCompletionState where
  tabPrefix : Str
  candidates : List Str
  index : Nat
  textBefore : Str
  isStartOfLine : Bool
  isCommand : Bool
  deriving DecidableEq

structure InputState where
  value : Str
  cursorPos : Nat
  tabState : Option TabCompletionState
  spellState : Option SpellCorrection
  history : List Str
  historyIndex : Option Nat
  savedInput : Option Str
  deriving DecidableEq

def maxHistory : Nat := 100

def maxHistoryEntryBytes : Nat := 4096

def trimEnd (s : Str) : Str := (trimStart s.reverse).reverse

def isAsciiPunctuation (c : Char) : Bool :=
  let n := c.toNat
  (33 ≤ n && n ≤ 47) || (58 ≤ n && n ≤ 64) || (91 ≤ n && n ≤ 96) || (123 ≤ n && n ≤ 126)

namespace InputState

def new : InputState := ⟨[], 0, none, none, [], none, none⟩

/-! ### Editing -/

def insertChar (s : InputState) (c : Char) : Option InputState :=
  if isControl c then some s
  else do
    let value ← insertAt s.value s.cursorPos [c]
    some { s with
      value := value, cursorPos := s.cursorPos + c.utf8Size, spellState := none, tabState := none }

def insertNewline (s : InputState) : Option InputState := do
  let value ← insertAt s.value s.cursorPos ['\n']
  some { s with value := value, cursorPos := s.cursorPos + 1, spellState := none, tabState := none }

def backspace (s : InputState) : Option InputState :=
  if 0 < s.cursorPos then do
    let before ← sliceTo s.value s.cursorPos
    let value ← drain s.value (lastStart before) s.cursorPos
    some { s with value := value, cursorPos := lastStart before, tabState := none }
  else some { s with tabState := none }

def delete (s : InputState) : Option InputState :=
  if s.cursorPos < utf8Length s.value then do
    let after ← sliceFrom s.value s.cursorPos
    let value ← drain s.value s.cursorPos (s.cursorPos + secondStart after)
    some { s with value := value, tabState := none }
  else some { s with tabState := none }

def moveLeft (s : InputState) : Option InputState :=
  if 0 < s.cursorPos then do
    let before ← sliceTo s.value s.cursorPos
    some { s with cursorPos := lastStart before, tabState := none }
  else some { s with tabState := none }

def moveRight (s : InputState) : Option InputState :=
  if s.cursorPos < utf8Length s.value then do
    let after ← sliceFrom s.value s.cursorPos
    some { s with cursorPos := s.cursorPos + secondStart after, tabState := none }
  else some { s with tabState := none }

def home (s : InputState) : InputState := { s with cursorPos := 0, tabState := none }

def toEnd (s : InputState) : InputState :=
  { s with cursorPos := utf8Length s.value, tabState := none }

def clearToStart (s : InputState) : Option InputState :=
  if 0 < s.cursorPos then do
    let value ← drain s.value 0 s.cursorPos
    some { s with value := value, cursorPos := 0, tabState := none }
  else some { s with tabState := none }

def clearToEnd (s : InputState) : Option InputState :=
  if s.cursorPos < utf8Length s.value then do
    let value ← sliceTo s.value s.cursorPos
    some { s with value := value, tabState := none }
  else some { s with tabState := none }

/-- Where the word before the cursor begins: one byte behind the whitespace before it. -/
def wordBack (before : Str) : Nat :=
  match rfind isWhitespace (trimEnd before) with
  | some i => i + 1
  | none => 0

def deleteWordBack (s : InputState) : Option InputState :=
  if s.cursorPos = 0 then some s
  else do
    let before ← sliceTo s.value s.cursorPos
    let value ← drain s.value (wordBack before) s.cursorPos
    some { s with value := value, cursorPos := wordBack before, tabState := none }

def clear (s : InputState) : InputState := { s with value := [], cursorPos := 0, tabState := none }

def remember (history : List Str) (entry : Str) : List Str :=
  if entry ≠ [] ∧ utf8Length entry ≤ maxHistoryEntryBytes then
    if (history ++ [entry]).length > maxHistory then (history ++ [entry]).drop 1
    else history ++ [entry]
  else history

def submit (s : InputState) : InputState :=
  { s.clear with history := remember s.history s.value, historyIndex := none, savedInput := none }

/-! ### History -/

def fromHistory (s : InputState) (index : Nat) : Option InputState := do
  let entry ← s.history[index]?
  some { s with
    value := entry, cursorPos := utf8Length entry, historyIndex := some index, tabState := none }

def historyUp (s : InputState) : Option InputState :=
  if s.history.isEmpty then some s
  else match s.historyIndex with
    | none => fromHistory { s with savedInput := some s.value } (s.history.length - 1)
    | some 0 => some { s with tabState := none }
    | some (index + 1) => fromHistory s index

def historyDown (s : InputState) : Option InputState :=
  match s.historyIndex with
  | none => some { s with tabState := none }
  | some index =>
      if index + 1 < s.history.length then fromHistory s (index + 1)
      else
        let value := s.savedInput.getD []
        some { s with
          value := value, cursorPos := utf8Length value, historyIndex := none, savedInput := none
          tabState := none }

/-! ### Spell correction -/

/-- The cursor after the word has been replaced by a text of another length. -/
def shiftedCursor (cursor wordStart oldLength newLength : Nat) : Nat :=
  if cursor > wordStart then cursor + newLength - oldLength else cursor

def dismissSpell (s : InputState) : Option InputState :=
  match s.spellState with
  | none => some s
  | some spell =>
      if spell.highlightOnly then some { s with spellState := none }
      else do
        let value ← replaceRange s.value spell.wordStart spell.wordEnd spell.original
        some { s with
          value := value, spellState := none
          cursorPos := shiftedCursor s.cursorPos spell.wordStart (spell.wordEnd - spell.wordStart)
            (utf8Length spell.original) }

def applySpellSuggestion (s : InputState) (index : Nat) : Option InputState :=
  match s.spellState with
  | none => some s
  | some spell => match spell.suggestions[index]? with
      | none => some s
      | some replacement => do
          let value ← replaceRange s.value spell.wordStart spell.wordEnd replacement
          some { s with
            value := value
            cursorPos := shiftedCursor s.cursorPos spell.wordStart (spell.wordEnd - spell.wordStart)
              (utf8Length replacement)
            spellState := some { spell with
              wordEnd := spell.wordStart + utf8Length replacement, index := index } }

def cycleSpellSuggestion (s : InputState) : Option InputState :=
  match s.spellState with
  | none => some s
  | some spell =>
      if spell.suggestions.isEmpty then some s
      else s.applySpellSuggestion ((spell.index + 1) % spell.suggestions.length)

/-- The text without the character at the offset, if there is one. -/
def dropCharAt (value : Str) (offset : Nat) : Option Str :=
  if offset < utf8Length value then do
    let after ← sliceFrom value offset
    drain value offset (offset + secondStart after)
  else some value

/-- Puts the punctuation in the place of the separator behind the word. -/
def acceptSpellWithPunctuation (s : InputState) (punct : Char) : Option InputState :=
  match s.spellState with
  | none => some s
  | some spell => do
      let dropped ← dropCharAt s.value spell.wordEnd
      let value ← insertAt dropped spell.wordEnd [punct]
      some { s with
        value := value, spellState := none, cursorPos := spell.wordEnd + punct.utf8Size }

def isCommand (s : InputState) : Bool := s.value.head? = some '/'

/-- Behind the last white space. -/
def lastWordStart (trimmed : Str) : Option Nat :=
  match rfind isWhitespace trimmed with
  | some i => (sliceFrom trimmed i).map fun rest => i + secondStart rest
  | none => some 0

/-- The word that ended before the cursor, and where it begins. -/
def lastCompletedWord (s : InputState) : Option (Option (Nat × Str)) := do
  let before ← sliceTo s.value s.cursorPos
  let trimmed := trimEnd before
  if trimmed.isEmpty then some none
  else
    let wordStart ← lastWordStart trimmed
    let word ← sliceFrom trimmed wordStart
    if word.isEmpty then some none else some (some (wordStart, word))

end InputState

end Repartee.Ui
