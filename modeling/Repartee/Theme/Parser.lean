import Repartee.Lib.Utf8

/-!
The parser of format strings. It walks the bytes of the text; the codes are ASCII, and all else is
decoded a character at a time. A slice off a character boundary ends the program.
-/

namespace Repartee.Theme

open Repartee.Text
open Repartee.Lib

structure Color where
  red : UInt8
  green : UInt8
  blue : UInt8
  deriving DecidableEq

/-- From six hexadecimal digits, with or without a number sign before them. -/
def hexToColor (hex : Str) : Option Color :=
  match hexDecode ((stripPrefix ['#'] hex).getD hex) with
  | some [red, green, blue] => some ⟨red, green, blue⟩
  | _ => none

def colorTable : List (Char × String) :=
  [('k', "#000000"), ('K', "#555555"), ('r', "#aa0000"), ('R', "#ff5555"), ('g', "#00aa00"),
    ('G', "#55ff55"), ('y', "#aa5500"), ('Y', "#ffff55"), ('b', "#0000aa"), ('B', "#5555ff"),
    ('m', "#aa00aa"), ('M', "#ff55ff"), ('c', "#00aaaa"), ('C', "#55ffff"), ('w', "#aaaaaa"),
    ('W', "#ffffff")]

def colorMap (code : Char) : Option Str := (colorTable.lookup code).map String.toList

def mircColors : List Str :=
  ["#ffffff", "#000000", "#00007f", "#009300", "#ff0000", "#7f0000", "#9c009c", "#fc7f00",
    "#ffff00", "#00fc00", "#009393", "#00ffff", "#0000fc", "#ff00ff", "#7f7f7f", "#d2d2d2",
    "#470000", "#472100", "#474700", "#324700", "#004700", "#00472c", "#004747", "#002747",
    "#000047", "#2e0047", "#470047", "#47002a", "#740000", "#743a00", "#747400", "#517400",
    "#007400", "#007449", "#007474", "#004074", "#000074", "#4b0074", "#740074", "#740045",
    "#b50000", "#b56300", "#b5b500", "#7db500", "#00b500", "#00b571", "#00b5b5", "#0063b5",
    "#0000b5", "#7500b5", "#b500b5", "#b5006b", "#ff0000", "#ff8c00", "#ffff00", "#b2ff00",
    "#00ff00", "#00ffa0", "#00ffff", "#008cff", "#0000ff", "#a500ff", "#ff00ff", "#ff0098",
    "#ff5959", "#ffb459", "#ffff71", "#cfff60", "#6fff6f", "#65ffc9", "#6dffff", "#59b4ff",
    "#5959ff", "#c459ff", "#ff66ff", "#ff59bc", "#ff9c9c", "#ffd39c", "#ffff9c", "#e2ff9c",
    "#9cff9c", "#9cffdb", "#9cffff", "#9cd3ff", "#9c9cff", "#dc9cff", "#ff9cff", "#ff94d3",
    "#000000", "#131313", "#282828", "#363636", "#4d4d4d", "#656565", "#818181", "#9f9f9f",
    "#bcbcbc", "#e2e2e2", "#ffffff"].map String.toList

structure StyleState where
  fg : Option Color
  bg : Option Color
  bold : Bool
  italic : Bool
  underline : Bool
  dim : Bool
  deriving DecidableEq

def StyleState.default : StyleState := ⟨none, none, false, false, false, false⟩

structure StyledSpan where
  text : Str
  style : StyleState
  deriving DecidableEq

/-- What has been parsed; the buffer is the text of the span to come. -/
structure Walk where
  spans : List StyledSpan
  current : StyleState
  buffer : Str
  deriving DecidableEq

def Walk.flush (w : Walk) : Walk :=
  if w.buffer.isEmpty then w else ⟨w.spans ++ [⟨w.buffer, w.current⟩], w.current, []⟩

/-- What one round of the loop does. -/
inductive Token where
  | style (change : StyleState → StyleState)
  | keep (text : Str)
  /-- The span before the text is closed. -/
  | flushKeep (text : Str)

def Walk.apply (w : Walk) : Token → Walk
  | .style change => { w.flush with current := change w.current }
  | .keep text => { w with buffer := w.buffer ++ text }
  | .flushKeep text => { w.flush with buffer := w.flush.buffer ++ text }

/-- A byte as a character, those from 128 on as in Latin-1. -/
def asChar (b : UInt8) : Char := Char.ofNat b.toNat

def hexCode (n : Nat) : Bool :=
  decide ((48 ≤ n ∧ n ≤ 57) ∨ (65 ≤ n ∧ n ≤ 70) ∨ (97 ≤ n ∧ n ≤ 102))

def digitCode (n : Nat) : Bool := decide (48 ≤ n ∧ n ≤ 57)

def readHex6Bytes (bytes : Bytes) : Option Str :=
  if 6 ≤ bytes.length ∧ (bytes.take 6).all (fun b => hexCode b.toNat) = true then
    some ((bytes.take 6).map asChar)
  else none

/-- Up to two digits. -/
def readColor : Bytes → Option (Nat × Bytes)
  | [] => none
  | a :: rest =>
      if digitCode a.toNat then
        match rest with
        | b :: more =>
            if digitCode b.toNat then some ((a.toNat - 48) * 10 + (b.toNat - 48), more)
            else some (a.toNat - 48, rest)
        | [] => some (a.toNat - 48, rest)
      else none

def mircColor (n : Nat) (before : Option Color) : Option Color :=
  match mircColors[n]? with
  | some hex => hexToColor hex
  | none => before

/-- A second operand, behind a comma. -/
def afterComma {α : Type} (operand : Bytes → Option α) : Bytes → Option α
  | [] => none
  | b :: more => if asChar b = ',' then operand more else none

/-- What follows the control character of a color. -/
def colorToken (bytes : Bytes) : Token × Bytes :=
  match readColor bytes with
  | none => (.style fun s => { s with fg := none, bg := none }, bytes)
  | some (fg, after) =>
      match afterComma readColor after with
      | some (bg, rest) =>
          (.style fun s => { s with fg := mircColor fg s.fg, bg := mircColor bg s.bg }, rest)
      | none => (.style fun s => { s with fg := mircColor fg s.fg }, after)

/-- What follows the control character of a color in hexadecimal digits. -/
def hexColorToken (bytes : Bytes) : Token × Bytes :=
  match readHex6Bytes bytes with
  | none => (.style fun s => { s with fg := none, bg := none }, bytes)
  | some fg =>
      match afterComma readHex6Bytes (bytes.drop 6) with
      | some bg =>
          (.style fun s => { s with fg := hexToColor fg, bg := hexToColor bg }, bytes.drop 13)
      | none => (.style fun s => { s with fg := hexToColor fg }, bytes.drop 6)

/-- What follows a percent sign; a code nobody knows is kept as it is. -/
def formatToken : Bytes → Token × Bytes
  | [] => (.keep ['%'], [])
  | b :: rest =>
      let code := asChar b
      if code = 'N' ∨ code = 'n' then (.style fun _ => StyleState.default, rest)
      else if code = '_' then (.style fun s => { s with bold := !s.bold }, rest)
      else if code = 'u' then (.style fun s => { s with underline := !s.underline }, rest)
      else if code = 'i' then (.style fun s => { s with italic := !s.italic }, rest)
      else if code = 'd' then (.style fun s => { s with dim := !s.dim }, rest)
      else if code = 'Z' then
        match readHex6Bytes rest with
        | some hex => (.style fun s => { s with fg := hexToColor hex }, rest.drop 6)
        | none => (.flushKeep ['%', 'Z'], rest)
      else if code = 'z' then
        match readHex6Bytes rest with
        | some hex => (.style fun s => { s with bg := hexToColor hex }, rest.drop 6)
        | none => (.flushKeep ['%', 'z'], rest)
      else if code = '|' then (.keep [], rest)
      else if code = '%' then (.keep ['%'], rest)
      else
        match colorMap code with
        | some hex => (.style fun s => { s with fg := hexToColor hex }, rest)
        | none => (.keep ['%', code], rest)

/-- The control characters that toggle a style or reset it. -/
def styleControl (c : Char) : Option (StyleState → StyleState) :=
  if c = '\x02' then some fun s => { s with bold := !s.bold }
  else if c = '\x0F' then some fun _ => StyleState.default
  else if c = '\x16' then some fun s => { s with fg := s.bg, bg := s.fg }
  else if c = '\x1D' then some fun s => { s with italic := !s.italic }
  else if c = '\x1E' then some fun s => { s with dim := !s.dim }
  else if c = '\x1F' then some fun s => { s with underline := !s.underline }
  else none

/-- One round of the loop on the bytes left; none where the text is sliced off a boundary. -/
def nextToken (b : UInt8) (rest : Bytes) : Option (Token × Bytes) :=
  if asChar b = '%' then some (formatToken rest)
  else if asChar b = '\x03' then some (colorToken rest)
  else if asChar b = '\x04' then some (hexColorToken rest)
  else if asChar b = '\x11' then some (.keep [], rest)
  else match styleControl (asChar b) with
    | some change => some (.style change, rest)
    | none => (Utf8.firstChar? (b :: rest)).map fun read => (.keep [read.1], read.2)

inductive Halt where
  | offBoundary
  | outOfFuel
  deriving DecidableEq

def walk : Nat → Bytes → Walk → Except Halt Walk
  | _, [], w => .ok w
  | 0, _ :: _, _ => .error .outOfFuel
  | fuel + 1, b :: rest, w =>
      match nextToken b rest with
      | none => .error .offBoundary
      | some (token, after) => walk fuel after (w.apply token)

def Walk.finish (w : Walk) : List StyledSpan :=
  if w.flush.spans.isEmpty then [⟨[], StyleState.default⟩] else w.flush.spans

/-- The spans of a text without parameters; every round takes a byte at least. -/
def parseFormatString (input : Str) : Except Halt (List StyledSpan) :=
  (walk (utf8 input).length (utf8 input) ⟨[], StyleState.default, []⟩).map Walk.finish

def doublePercent (text : Str) : Str := text.flatMap fun c => if c = '%' then ['%', '%'] else [c]

/-- Text that is no format string: percent signs stand for themselves. -/
def parseIrcText (text : Str) : Except Halt (List StyledSpan) := parseFormatString (doublePercent text)

end Repartee.Theme
