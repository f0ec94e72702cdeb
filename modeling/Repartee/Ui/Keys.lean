import Repartee.Ui.Completion

/-!
What the keys do to the input line: the unbound keys, the actions a key can be bound to, a paste,
and the two other places that write into the line.
-/

namespace Repartee.Ui

open Repartee.Text
open Repartee.Lib.Offsets

structure Checker where
  check : Str → Bool
  suggest : Str → List Str

/-- What a key finds besides the line itself. -/
structure Surroundings where
  sources : Sources
  checker : Option Checker
  alphanumeric : Char → Bool
  /-- The setting that marks a word and does not replace it. -/
  highlightOnly : Bool

/-- The word between its first and its last alphanumeric character, and where that is in it. -/
def stripWordPunctuation (alphanumeric : Char → Bool) (word : Str) : Str × Nat × Nat :=
  let tail := word.dropWhile fun c => !alphanumeric c
  if tail.isEmpty then ([], 0, 0)
  else
    let start := utf8Length (word.takeWhile fun c => !alphanumeric c)
    let stripped := (tail.reverse.dropWhile fun c => !alphanumeric c).reverse
    (stripped, start, start + utf8Length stripped)

namespace InputState

/-- Marks the word, or puts the first suggestion in its place. -/
def correct (s : InputState) (spell : SpellCorrection) : Option InputState :=
  let marked := { s with spellState := some spell }
  if spell.highlightOnly then some marked else marked.applySpellSuggestion 0

/-- Checks the word a separator has just ended, and replaces or marks it. -/
def checkSpelling (env : Surroundings) (s : InputState) : Option InputState :=
  match env.checker with
  | none => some s
  | some checker =>
      if s.isCommand then some s
      else do
        match ← s.lastCompletedWord with
        | none => some s
        | some (rawStart, rawWord) =>
            let stripped := stripWordPunctuation env.alphanumeric rawWord
            let suggestions := checker.suggest stripped.1
            if stripped.1.isEmpty || checker.check stripped.1 || suggestions.isEmpty then some s
            else
              s.correct
                { wordStart := rawStart + stripped.2.1
                  wordEnd := rawStart + stripped.2.2
                  original := stripped.1
                  suggestions := suggestions
                  index := 0
                  highlightOnly := env.highlightOnly }

def accept (s : InputState) : InputState := { s with spellState := none }

/-- A separator ends a word; a slash begins a command or a path. -/
def isSeparator (c : Char) : Bool := c = ' ' || (isAsciiPunctuation c && c != '/')

def typeChar (env : Surroundings) (s : InputState) (c : Char) : Option InputState := do
  let typed ← s.insertChar c
  if isSeparator c then typed.checkSpelling env else some typed

/-- A space takes the correction over, and is not put where one stands already. -/
def acceptWithSpace (s : InputState) (spell : SpellCorrection) : Option InputState := do
  let after ← sliceFrom s.value spell.wordEnd
  if after.head? = some ' ' then some s.accept else s.accept.insertChar ' '

def sentenceMarks : List Char := ['.', ',', '!', '?', ';', ':']

def charKey (env : Surroundings) (s : InputState) (c : Char) : Option InputState :=
  match s.spellState with
  | none => s.typeChar env c
  | some spell =>
      if spell.highlightOnly then s.accept.typeChar env c
      else if c = ' ' then s.acceptWithSpace spell
      else if c ∈ sentenceMarks then s.acceptSpellWithPunctuation c
      else s.accept.insertChar c

def tabKey (env : Surroundings) (s : InputState) : Option InputState :=
  match s.spellState with
  | none => s.tabComplete env.sources
  | some spell =>
      if spell.highlightOnly then s.accept.tabComplete env.sources else s.cycleSpellSuggestion

def enterKey (s : InputState) : InputState := s.accept.submit

/-- A line break in a message; a command has but one line. -/
def altEnterKey (s : InputState) : Option InputState :=
  if (trimStart s.value).head? = some '/' then some s.enterKey else s.accept.insertNewline

def insertText (s : InputState) (text : Str) : Option InputState := text.foldlM insertChar s

/-- Moves left while the character before the cursor has the property. -/
def backwardWhile (p : Char → Bool) : Nat → InputState → Option InputState
  | 0, s => some s
  | n + 1, s =>
      if 0 < s.cursorPos then do
        let before ← sliceTo s.value s.cursorPos
        if before.getLast?.any p then (s.moveLeft).bind (backwardWhile p n) else some s
      else some s

/-- Moves right while the character behind the cursor has the property. -/
def forwardWhile (p : Char → Bool) : Nat → InputState → Option InputState
  | 0, s => some s
  | n + 1, s => do
      let after ← sliceFrom s.value s.cursorPos
      if after.head?.any p then (s.moveRight).bind (forwardWhile p n) else some s

def backwardWord (s : InputState) : Option InputState := do
  let spaced ← backwardWhile isWhitespace s.cursorPos s
  backwardWhile (fun c => !isWhitespace c) spaced.cursorPos spaced

def forwardWord (s : InputState) : Option InputState := do
  let word ← forwardWhile (fun c => !isWhitespace c) (utf8Length s.value - s.cursorPos) s
  forwardWhile isWhitespace (utf8Length word.value - word.cursorPos) word

/-- The lines of a paste that have something in them. -/
def pastedLines (text : Str) : List Str :=
  ((text.splitOn '\n').map fun line => (line.reverse.dropWhile (· == '\r')).reverse).filter
    fun line => !line.isEmpty

/-- One line goes into the input; more of them are sent, behind what the input holds. -/
def paste (s : InputState) (text : Str) : Option InputState :=
  if (pastedLines text).length ≤ 1 then s.insertText ((pastedLines text).headD [])
  else some s.submit

def insertEmote (s : InputState) (name : Str) : Option InputState := do
  let token := ':' :: name ++ [':']
  let value ← insertAt s.value s.cursorPos token
  some { s with value := value, cursorPos := s.cursorPos + utf8Length token, tabState := none }

/-- A message that was refused comes back to an empty line. -/
def restore (s : InputState) (text : Str) : InputState :=
  if s.value.isEmpty then { s with value := text, cursorPos := utf8Length text } else s

end InputState

inductive Key where
  | esc
  | clearToStart
  | clearToEnd
  | deleteWordBack
  | home
  | left
  | right
  | toEnd
  | altEnter
  | enter
  | backspace
  | delete
  | up
  | down
  | tab
  | backTab
  | char (c : Char)
  | paste (text : Str)
  | insertText (text : Str)
  | eraseLine
  | backwardWord
  | forwardWord
  | insertEmote (name : Str)
  | restore (text : Str)

open InputState in
def press (env : Surroundings) (s : InputState) : Key → Option InputState
  | .esc => if s.spellState.isSome then s.dismissSpell else some s
  | .clearToStart => s.clearToStart
  | .clearToEnd => s.clearToEnd
  | .deleteWordBack => s.deleteWordBack
  | .home => some s.home
  | .left => s.moveLeft
  | .right => s.moveRight
  | .toEnd => some s.toEnd
  | .altEnter => s.altEnterKey
  | .enter => some s.enterKey
  | .backspace => s.dismissSpell.bind backspace
  | .delete => s.delete
  | .up => s.historyUp
  | .down => s.historyDown
  | .tab => s.tabKey env
  | .backTab => some s
  | .char c => if c = '\n' ∨ c = '\r' then some s.enterKey else s.charKey env c
  | .paste text => s.paste text
  | .insertText text => s.insertText text
  | .eraseLine => some s.clear
  | .backwardWord => s.backwardWord
  | .forwardWord => s.forwardWord
  | .insertEmote name => s.insertEmote name
  | .restore text => some (s.restore text)

/-- The keys of a session, each with what it finds. -/
def pressKeys (s : InputState) (keys : List (Surroundings × Key)) : Option InputState :=
  keys.foldlM (fun line key => press key.1 line key.2) s

end Repartee.Ui
