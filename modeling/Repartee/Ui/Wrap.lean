import Repartee.Lib.Positions
import Repartee.Text

/-!
Word wrapping: a styled line is cut into visual lines of a given width, at spaces where there are
any. What the visual lines show is the line again, and where some of it is lost.
-/

namespace Repartee.Ui

open Lib

/-- How text is cut into graphemes, and how many columns each takes. -/
structure Segmentation where
  graphemes : Str → List Str
  width : Str → Nat
  joined : ∀ text, (graphemes text).flatten = text
  /-- Spaces and line feeds are graphemes of their own. -/
  separate : ∀ text, ∀ g ∈ graphemes text, (∀ c ∈ g, c = ' ' ∨ c = '\n') → g = [' '] ∨ g = ['\n']
  width_space : width [' '] = 1

structure Span (σ : Type) where
  content : Str
  style : σ
  deriving DecidableEq

abbrev Line (σ : Type) : Type := List (Span σ)

structure StyledGrapheme (σ : Type) where
  text : Str
  width : Nat
  style : σ
  deriving DecidableEq

section Source

variable {σ : Type}

def puaBase : Nat := 0xF0000
def puaMax : Nat := 0xFFFFD

/-- The number of the emote a placeholder stands for. -/
def decodePlaceholderIndex (c : Char) : Option Nat :=
  if puaBase ≤ c.toNat ∧ c.toNat ≤ puaMax then some (c.toNat - puaBase) else none

def decodePlaceholderGrapheme : Str → Option Nat
  | [c] => decodePlaceholderIndex c
  | _ => none

def StyledGrapheme.isSpace (g : StyledGrapheme σ) : Bool := decide (g.text = [' '])

def StyledGrapheme.isNewline (g : StyledGrapheme σ) : Bool := decide (g.text = ['\n'])

def totalWidth (chars : List (StyledGrapheme σ)) : Nat := (chars.map StyledGrapheme.width).sum

def styledChars (G : Segmentation) (line : Line σ) : List (StyledGrapheme σ) :=
  line.flatMap fun span =>
    (G.graphemes span.content).map fun g => ⟨g, G.width g, span.style⟩

/-- How many graphemes from the start of a visual line fit into the room. -/
def fitting (room : Nat) : List (StyledGrapheme σ) → Nat
  | [] => 0
  | g :: rest => if room < g.width then 0 else fitting (room - g.width) rest + 1

/-- A boundary within a run of placeholders of one emote moves to where the run begins, unless that
is the start of the visual line. -/
def avoidSplittingPlaceholder (chars : List (StyledGrapheme σ)) (end_ : Nat) : Nat :=
  if end_ = 0 ∨ chars.length ≤ end_ then end_
  else match (chars[end_]?).bind fun g => decodePlaceholderGrapheme g.text with
    | none => end_
    | some idx =>
        let same := fun g : StyledGrapheme σ => decide (decodePlaceholderGrapheme g.text = some idx)
        if !(chars[end_ - 1]?).any same then end_
        else
          let e := end_ - ((chars.take end_).reverse.takeWhile same).length
          if e = 0 then end_ else e

/-- The spans of the text collected so far and of what follows. -/
def groupSpans (text : Str) (style : σ) [DecidableEq σ] : List (StyledGrapheme σ) → List (Span σ)
  | [] => if text ≠ [] then [⟨text, style⟩] else []
  | g :: rest =>
      if g.style ≠ style ∧ text ≠ [] then ⟨text, style⟩ :: groupSpans g.text g.style rest
      else groupSpans (text ++ g.text) style rest

variable [DecidableEq σ] [Inhabited σ]

def indentSpans (isContinuation : Bool) (indent : Nat) : List (Span σ) :=
  if isContinuation ∧ 0 < indent then [⟨List.replicate indent ' ', default⟩] else []

def buildLineFromStyledChars (chars : List (StyledGrapheme σ)) (isContinuation : Bool)
    (indent : Nat) : Line σ :=
  match chars with
  | [] => indentSpans isContinuation indent
  | first :: _ => indentSpans isContinuation indent ++ groupSpans [] first.style chars

section Segment

variable (width indent : Nat)

def lineWidth (firstLine : Bool) : Nat := if firstLine then width else width - indent

/-- Where a visual line that is not the last one ends: behind the last space that fits. -/
def actualEnd (chars : List (StyledGrapheme σ)) (end_ : Nat) : Nat :=
  avoidSplittingPlaceholder chars
    (match rposition StyledGrapheme.isSpace (chars.take end_) with
      | some breakPos => breakPos + 1
      | none => end_)

omit [DecidableEq σ] [Inhabited σ] in
theorem actualEnd_pos (chars : List (StyledGrapheme σ)) (end_ : Nat) (positive : 0 < end_) :
    0 < actualEnd chars end_ := by
  have avoid : ∀ n, 0 < n → 0 < avoidSplittingPlaceholder chars n := by
    intro n moved
    unfold avoidSplittingPlaceholder
    grind
  unfold actualEnd
  apply avoid
  split
  · omega
  · exact positive

/-- The visual lines of what is left of a segment. -/
def wrapSegmentFrom (firstLine : Bool) (chars : List (StyledGrapheme σ)) : List (Line σ) :=
  if chars = [] then []
  else
    let room := lineWidth width indent firstLine
    if room = 0 then []
    else
      -- a grapheme too wide for the line is shown all the same
      let end_ := max 1 (fitting room chars)
      if chars.length ≤ end_ then [buildLineFromStyledChars chars (!firstLine) indent]
      else
        buildLineFromStyledChars (chars.take (actualEnd chars end_)) (!firstLine) indent ::
          wrapSegmentFrom false
            ((chars.drop (actualEnd chars end_)).dropWhile StyledGrapheme.isSpace)
termination_by chars.length
decreasing_by
  have moved := actualEnd_pos chars (max 1 (fitting (lineWidth width indent firstLine) chars))
    (Nat.lt_of_lt_of_le Nat.one_pos (Nat.le_max_left _ _))
  have filled : 0 < chars.length := by
    rename_i some_ _ _
    exact List.length_pos_iff.mpr some_
  calc ((chars.drop _).dropWhile StyledGrapheme.isSpace).length
      ≤ (chars.drop _).length := List.length_dropWhile_le _ _
    _ < chars.length := by
        rw [List.length_drop]
        omega

def wrapSegment (chars : List (StyledGrapheme σ)) (startIndented : Bool) : List (Line σ) :=
  match wrapSegmentFrom width indent (!startIndented) chars with
  | [] => [buildLineFromStyledChars chars false indent]
  | lines => lines

/-- A segment is what stands between hard line breaks. -/
def wrapPart (startIndented : Bool) (segment : List (StyledGrapheme σ)) : List (Line σ) :=
  if segment = [] then [[]] else wrapSegment width indent segment startIndented

def wrapLine (G : Segmentation) (line : Line σ) : List (Line σ) :=
  if width = 0 then [line]
  else
    let chars := styledChars G line
    if chars.any StyledGrapheme.isNewline = false ∧ totalWidth chars ≤ width then [line]
    else match chars.splitOnP StyledGrapheme.isNewline with
      | [] => [line]
      | first :: rest => wrapPart width indent false first ++ rest.flatMap (wrapPart width indent true)

end Segment

end Source

/-! ### What visual lines show -/

section Spec

variable {σ : Type}

/-- The characters on the screen with their styles. -/
def lineChars (line : Line σ) : List (Char × σ) :=
  line.flatMap fun span => span.content.map fun c => (c, span.style)

def graphemeChars (chars : List (StyledGrapheme σ)) : List (Char × σ) :=
  chars.flatMap fun g => g.text.map fun c => (c, g.style)

/-- What one visual line shows, behind a gap. -/
structure Row (σ : Type) where
  gap : Nat
  shown : List (StyledGrapheme σ)

def Row.chars [Inhabited σ] (row : Row σ) : List (Char × σ) :=
  List.replicate row.gap (' ', default) ++ graphemeChars row.shown

/-- The text was broken into what the lines show: at hard line breaks, which are not shown, and in
between, where spaces behind a break are left out. -/
inductive Broken : List (StyledGrapheme σ) → List (List (StyledGrapheme σ)) → Prop
  | done {shown spaces} : (∀ g ∈ shown, g.isNewline = false) → (∀ g ∈ spaces, g.isSpace = true) →
      (spaces = [] ∨ shown ≠ []) → Broken (shown ++ spaces) [shown]
  | soft {shown spaces rest lines} : (∀ g ∈ shown, g.isNewline = false) →
      (∀ g ∈ spaces, g.isSpace = true) → shown ≠ [] → Broken rest lines →
      Broken (shown ++ (spaces ++ rest)) (shown :: lines)
  | hard {shown spaces newline rest lines} : (∀ g ∈ shown, g.isNewline = false) →
      (∀ g ∈ spaces, g.isSpace = true) → (spaces = [] ∨ shown ≠ []) → newline.isNewline = true →
      Broken rest lines → Broken (shown ++ (spaces ++ newline :: rest)) (shown :: lines)

/-- The row fits, or holds a single grapheme that does not. -/
def Row.Fits (width : Nat) (row : Row σ) : Prop :=
  row.gap + totalWidth row.shown ≤ width ∨ ∃ g, row.shown = [g] ∧ width < row.gap + g.width

/-- The visual lines show all of the text, each behind no gap or the indent, and where the indent
leaves room for text none is wider than the screen. -/
def ShowsAll [Inhabited σ] (width indent : Nat) (chars : List (StyledGrapheme σ))
    (lines : List (Line σ)) : Prop :=
  ∃ rows : List (Row σ), lines.map lineChars = rows.map Row.chars ∧
    (∀ row ∈ rows, row.gap = 0 ∨ row.gap = indent) ∧ Broken chars (rows.map Row.shown) ∧
    (indent < width → ∀ row ∈ rows, row.Fits width)

/-- The text takes one visual line: it fits, or it leaves room for a space behind its last word, or
it is one word that fits, or a grapheme too wide. -/
def TakesOneLine (width : Nat) (segment : List (StyledGrapheme σ)) : Prop :=
  let core := segment.rdropWhile StyledGrapheme.isSpace
  totalWidth segment ≤ width ∨ totalWidth core + 1 ≤ width ∨
    ((∀ g ∈ core, g.isSpace = false) ∧ (totalWidth core ≤ width ∨ core.length ≤ 1))

/-- The text before the first hard line break. -/
def firstSegment (chars : List (StyledGrapheme σ)) : List (StyledGrapheme σ) :=
  chars.takeWhile fun g => !g.isNewline

end Spec

/-! ### Lines and their spans -/

section Building

variable {σ : Type}

@[simp] theorem lineChars_append (a b : Line σ) : lineChars (a ++ b) = lineChars a ++ lineChars b :=
  List.flatMap_append

@[simp] theorem graphemeChars_append (a b : List (StyledGrapheme σ)) :
    graphemeChars (a ++ b) = graphemeChars a ++ graphemeChars b :=
  List.flatMap_append

@[simp] theorem graphemeChars_cons (g : StyledGrapheme σ) (rest : List (StyledGrapheme σ)) :
    graphemeChars (g :: rest) = g.text.map (fun c => (c, g.style)) ++ graphemeChars rest := rfl

@[simp] theorem totalWidth_append (a b : List (StyledGrapheme σ)) :
    totalWidth (a ++ b) = totalWidth a + totalWidth b := by
  simp [totalWidth]

@[simp] theorem totalWidth_cons (g : StyledGrapheme σ) (rest : List (StyledGrapheme σ)) :
    totalWidth (g :: rest) = g.width + totalWidth rest := by
  simp [totalWidth]

@[simp] theorem totalWidth_nil : totalWidth ([] : List (StyledGrapheme σ)) = 0 := rfl

/-- A grapheme as it comes out of a text. -/
structure Proper (g : StyledGrapheme σ) : Prop where
  space : g.isSpace = true → g.width = 1
  solid : g.isSpace = false → g.isNewline = false → ∃ c ∈ g.text, c ≠ ' ' ∧ c ≠ '\n'

theorem Proper.filled {g : StyledGrapheme σ} (proper : Proper g) : g.text ≠ [] := by
  intro empty
  have space : g.isSpace = false := by simp [StyledGrapheme.isSpace, empty]
  have newline : g.isNewline = false := by simp [StyledGrapheme.isNewline, empty]
  obtain ⟨c, member, -⟩ := proper.solid space newline
  rw [empty] at member
  cases member

theorem styledChars_proper (G : Segmentation) (line : Line σ) :
    ∀ g ∈ styledChars G line, Proper g := by
  intro g member
  obtain ⟨span, -, inside⟩ := List.mem_flatMap.mp member
  obtain ⟨text, cut, rfl⟩ := List.mem_map.mp inside
  constructor
  · intro space
    have same : text = [' '] := of_decide_eq_true space
    exact (congrArg G.width same).trans G.width_space
  · intro space newline
    by_contra none_
    push Not at none_
    have blank : ∀ c ∈ text, c = ' ' ∨ c = '\n' := by
      intro c here
      by_cases same : c = ' '
      · exact .inl same
      · exact .inr (none_ c here same)
    rcases G.separate span.content text cut blank with same | same
    · exact of_decide_eq_false space same
    · exact of_decide_eq_false newline same

theorem graphemeChars_styledChars (G : Segmentation) (line : Line σ) :
    graphemeChars (styledChars G line) = lineChars line := by
  induction line with
  | nil => rfl
  | cons span rest ih =>
      have start : graphemeChars ((G.graphemes span.content).map fun g =>
          (⟨g, G.width g, span.style⟩ : StyledGrapheme σ)) =
          span.content.map fun c => (c, span.style) := by
        calc graphemeChars ((G.graphemes span.content).map fun g => ⟨g, G.width g, span.style⟩)
            = (G.graphemes span.content).flatMap fun g => g.map fun c => (c, span.style) :=
              List.flatMap_map _ _ _
          _ = (G.graphemes span.content).flatten.map fun c => (c, span.style) := by
              rw [List.map_flatten]
              rfl
          _ = span.content.map fun c => (c, span.style) := by rw [G.joined]
      calc graphemeChars (styledChars G (span :: rest))
          = graphemeChars ((G.graphemes span.content).map fun g => ⟨g, G.width g, span.style⟩) ++
              graphemeChars (styledChars G rest) := graphemeChars_append _ _
        _ = lineChars (span :: rest) := by
            rw [start, ih]
            rfl

variable [DecidableEq σ]

/-- Grouping text into spans changes none of it. -/
theorem lineChars_groupSpans (chars : List (StyledGrapheme σ)) (proper : ∀ g ∈ chars, Proper g)
    (text : Str) (style : σ) (start : text = [] → ∀ g ∈ chars.head?, g.style = style) :
    lineChars (groupSpans text style chars) =
      text.map (fun c => (c, style)) ++ graphemeChars chars := by
  induction chars generalizing text style with
  | nil =>
      cases text with
      | nil => rfl
      | cons c rest => simp [groupSpans, lineChars, graphemeChars]
  | cons g rest ih =>
      have later := fun g' member => proper g' (List.mem_cons_of_mem g member)
      have filled := (proper g List.mem_cons_self).filled
      rw [groupSpans]
      split
      · have next := ih later g.text g.style (fun empty => absurd empty filled)
        calc lineChars (⟨text, style⟩ :: groupSpans g.text g.style rest)
            = text.map (fun c => (c, style)) ++ lineChars (groupSpans g.text g.style rest) := rfl
          _ = text.map (fun c => (c, style)) ++ graphemeChars (g :: rest) := by
              rw [next, graphemeChars_cons]
      · rename_i same
        have style_ : g.style = style := by
          by_cases empty : text = []
          · exact start empty g rfl
          · by_contra differ
            exact same ⟨differ, empty⟩
        have grown : text ++ g.text ≠ [] := fun none_ => filled (List.append_eq_nil_iff.mp none_).2
        rw [ih later _ _ (fun empty => absurd empty grown), graphemeChars_cons, style_,
          List.map_append, List.append_assoc]

variable [Inhabited σ]

/-- A visual line shows its graphemes behind its gap. -/
theorem lineChars_build (chars : List (StyledGrapheme σ)) (proper : ∀ g ∈ chars, Proper g)
    (continued : Bool) (indent : Nat) :
    lineChars (buildLineFromStyledChars chars continued indent) =
      (Row.mk (if continued then indent else 0) chars).chars := by
  have gap : lineChars (indentSpans continued indent : Line σ) =
      List.replicate (if continued then indent else 0) (' ', default) := by
    unfold indentSpans
    cases continued with
    | false => rfl
    | true =>
        by_cases room : 0 < indent
        · simp [lineChars, room]
        · have none_ : indent = 0 := by omega
          simp [none_, lineChars]
  cases chars with
  | nil =>
      rw [buildLineFromStyledChars, gap, Row.chars]
      exact (List.append_nil _).symm
  | cons g rest =>
      have spans := lineChars_groupSpans (g :: rest) proper [] g.style
        (fun _ first same => by cases same; rfl)
      rw [buildLineFromStyledChars, lineChars_append, gap, spans]
      rfl

end Building

/-! ### Where a visual line ends -/

section Ends

variable {σ : Type} {chars front spaces : List (StyledGrapheme σ)} {room n : Nat}

theorem fitting_le (room : Nat) (chars : List (StyledGrapheme σ)) :
    fitting room chars ≤ chars.length := by
  induction chars generalizing room with
  | nil => exact Nat.le_refl 0
  | cons g rest ih =>
      rw [fitting]
      split
      · exact Nat.zero_le _
      · exact Nat.succ_le_succ (ih _)

/-- As many graphemes fit as stay within the room. -/
theorem le_fitting (room : Nat) (chars : List (StyledGrapheme σ)) (n : Nat)
    (within : n ≤ chars.length) :
    n ≤ fitting room chars ↔ n = 0 ∨ totalWidth (chars.take n) ≤ room := by
  induction chars generalizing room n with
  | nil =>
      have none_ : n = 0 := Nat.le_zero.mp within
      simp [none_]
  | cons g rest ih =>
      cases n with
      | zero => simp
      | succ n =>
          have later := ih (room - g.width) n (Nat.le_of_succ_le_succ within)
          rw [fitting, List.take_succ_cons, totalWidth_cons]
          split
          · constructor
            · intro absurd
              omega
            · rintro (absurd | absurd)
              · cases absurd
              · omega
          · rename_i fits
            rw [Nat.succ_le_succ_iff, later]
            constructor
            · rintro (none_ | inside)
              · rw [none_, List.take_zero, totalWidth_nil]
                omega
              · omega
            · rintro (absurd | inside)
              · cases absurd
              · omega

theorem totalWidth_fitting (room : Nat) (chars : List (StyledGrapheme σ)) :
    totalWidth (chars.take (fitting room chars)) ≤ room := by
  rcases (le_fitting room chars _ (fitting_le room chars)).mp le_rfl with none_ | fits
  · rw [none_, List.take_zero, totalWidth_nil]
    exact Nat.zero_le room
  · exact fits

theorem totalWidth_take_mono {m : Nat} (fewer : n ≤ m) (chars : List (StyledGrapheme σ)) :
    totalWidth (chars.take n) ≤ totalWidth (chars.take m) := by
  calc totalWidth (chars.take n)
      ≤ totalWidth (chars.take n) + totalWidth ((chars.take m).drop n) := Nat.le_add_right _ _
    _ = totalWidth (chars.take m) := by
        rw [← totalWidth_append, ← Nat.min_eq_left fewer, ← List.take_take,
          Nat.min_eq_left fewer, List.take_append_drop]

theorem avoidSplittingPlaceholder_le (chars : List (StyledGrapheme σ)) (n : Nat) :
    avoidSplittingPlaceholder chars n ≤ n := by
  unfold avoidSplittingPlaceholder
  grind

/-- A boundary before something that is no placeholder stays. -/
theorem avoidSplittingPlaceholder_plain
    (plain : ∀ g ∈ chars[n]?, decodePlaceholderGrapheme g.text = none) :
    avoidSplittingPlaceholder chars n = n := by
  have none_ : ((chars[n]?).bind fun g => decodePlaceholderGrapheme g.text) = none :=
    Option.bind_eq_none_iff.mpr plain
  unfold avoidSplittingPlaceholder
  split
  · rfl
  · rw [none_]

theorem actualEnd_le (chars : List (StyledGrapheme σ)) (n : Nat) : actualEnd chars n ≤ n := by
  refine (avoidSplittingPlaceholder_le chars _).trans ?_
  cases found : rposition StyledGrapheme.isSpace (chars.take n) with
  | none => exact le_rfl
  | some i =>
      have inside := rposition_lt found
      rw [List.length_take] at inside
      show i + 1 ≤ n
      omega

/-- A visual line fits its room, or is one grapheme. -/
theorem fits_actualEnd (room : Nat) (some_ : chars ≠ []) :
    totalWidth (chars.take (actualEnd chars (max 1 (fitting room chars)))) ≤ room ∨
      ∃ g, chars.take (actualEnd chars (max 1 (fitting room chars))) = [g] ∧ room < g.width := by
  have bound := actualEnd_le chars (max 1 (fitting room chars))
  have positive := actualEnd_pos chars (max 1 (fitting room chars)) (by omega)
  by_cases fits : 1 ≤ fitting room chars
  · rw [Nat.max_eq_right fits] at bound ⊢
    exact .inl ((totalWidth_take_mono bound chars).trans (totalWidth_fitting room chars))
  · obtain ⟨g, rest, rfl⟩ := List.exists_cons_of_ne_nil some_
    have one : actualEnd (g :: rest) (max 1 (fitting room (g :: rest))) = 1 := by omega
    rw [one]
    refine .inr ⟨g, rfl, ?_⟩
    by_contra narrow
    have first := (le_fitting room (g :: rest) 1 (by simp)).mpr (.inr (by simp; omega))
    omega

end Ends

/-! ### Segments -/

section Segments

variable {σ : Type} {width indent : Nat} {shown spaces rest : List (StyledGrapheme σ)} {line : Line σ}
  {lines : List (Line σ)} {gap : Nat}

section Rows

variable [Inhabited σ]

/-- One visual line shows a text, but for the spaces at its end. -/
theorem ShowsAll.done (chars : lineChars line = (Row.mk gap shown).chars)
    (indented : gap = 0 ∨ gap = indent) (unbroken : ∀ g ∈ shown, g.isNewline = false)
    (blank : ∀ g ∈ spaces, g.isSpace = true) (some_ : spaces = [] ∨ shown ≠ [])
    (fits : indent < width → (Row.mk gap shown).Fits width) :
    ShowsAll width indent (shown ++ spaces) [line] := by
  refine ⟨[⟨gap, shown⟩], by simp [chars], ?_, .done unbroken blank some_, ?_⟩
  · intro row member
    cases List.mem_singleton.mp member
    exact indented
  · intro room row member
    cases List.mem_singleton.mp member
    exact fits room

theorem ShowsAll.soft (chars : lineChars line = (Row.mk gap shown).chars)
    (indented : gap = 0 ∨ gap = indent) (unbroken : ∀ g ∈ shown, g.isNewline = false)
    (blank : ∀ g ∈ spaces, g.isSpace = true) (some_ : shown ≠ [])
    (fits : indent < width → (Row.mk gap shown).Fits width)
    (shows_ : ShowsAll width indent rest lines) :
    ShowsAll width indent (shown ++ (spaces ++ rest)) (line :: lines) := by
  obtain ⟨rows, same, gaps, broken, bounds⟩ := shows_
  refine ⟨⟨gap, shown⟩ :: rows, by simp [chars, same], ?_, .soft unbroken blank some_ broken, ?_⟩
  · intro row member
    rcases List.mem_cons.mp member with rfl | later
    · exact indented
    · exact gaps row later
  · intro room row member
    rcases List.mem_cons.mp member with rfl | later
    · exact fits room
    · exact bounds room row later

/-- A hard line break puts the lines behind each other. -/
theorem ShowsAll.hard {front back : List (StyledGrapheme σ)} {newline : StyledGrapheme σ}
    {lines' : List (Line σ)} (first : ShowsAll width indent front lines)
    (breaks : newline.isNewline = true) (later : ShowsAll width indent back lines') :
    ShowsAll width indent (front ++ newline :: back) (lines ++ lines') := by
  obtain ⟨rows, same, gaps, broken, bounds⟩ := first
  obtain ⟨rows', same', gaps', broken', bounds'⟩ := later
  refine ⟨rows ++ rows', by simp [same, same'], ?_, ?_, ?_⟩
  · intro row member
    rcases List.mem_append.mp member with inFirst | inLater
    · exact gaps row inFirst
    · exact gaps' row inLater
  · rw [List.map_append]
    generalize rows.map Row.shown = shownFirst at broken
    induction broken with
    | done unbroken blank some_ =>
        rw [List.append_assoc]
        exact .hard unbroken blank some_ breaks broken'
    | soft unbroken blank some_ _ ih =>
        rw [List.append_assoc, List.append_assoc]
        exact .soft unbroken blank some_ ih
    | hard unbroken blank some_ breaks' _ ih =>
        rw [List.append_assoc, List.append_assoc]
        exact .hard unbroken blank some_ breaks' ih
  · intro room row member
    rcases List.mem_append.mp member with inFirst | inLater
    · exact bounds room row inFirst
    · exact bounds' room row inLater

end Rows

theorem fits_last {room : Nat} {chars : List (StyledGrapheme σ)} (some_ : chars ≠ [])
    (last : chars.length ≤ max 1 (fitting room chars)) :
    totalWidth chars ≤ room ∨ ∃ g, chars = [g] ∧ room < g.width := by
  by_cases fits : chars.length ≤ fitting room chars
  · rcases (le_fitting room chars _ le_rfl).mp fits with none_ | within
    · exact absurd (List.length_eq_zero_iff.mp none_) some_
    · rw [List.take_length] at within
      exact .inl within
  · obtain ⟨g, rest, rfl⟩ := List.exists_cons_of_ne_nil some_
    have alone : rest = [] := by
      rw [List.length_cons] at last fits
      exact List.length_eq_zero_iff.mp (by omega)
    subst alone
    refine .inr ⟨g, rfl, ?_⟩
    by_contra narrow
    exact fits ((le_fitting room [g] 1 (by simp)).mpr (.inr (by simp; omega)))

theorem fits_row {firstLine : Bool} (room : indent < width)
    (fits : totalWidth shown ≤ lineWidth width indent firstLine ∨
      ∃ g, shown = [g] ∧ lineWidth width indent firstLine < g.width) :
    (Row.mk (if !firstLine then indent else 0) shown).Fits width := by
  have whole : (if !firstLine then indent else 0) + lineWidth width indent firstLine = width := by
    cases firstLine with
    | true => exact Nat.zero_add width
    | false => exact Nat.add_sub_cancel' room.le
  rcases fits with within | ⟨g, rfl, wide⟩
  · left
    show (if !firstLine then indent else 0) + totalWidth shown ≤ width
    omega
  · refine .inr ⟨g, rfl, ?_⟩
    show width < (if !firstLine then indent else 0) + g.width
    omega

variable [DecidableEq σ] [Inhabited σ]

section Steps

variable {chars : List (StyledGrapheme σ)} {firstLine : Bool}

@[simp] theorem wrapSegmentFrom_nil : wrapSegmentFrom width indent firstLine
    ([] : List (StyledGrapheme σ)) = [] := by
  rw [wrapSegmentFrom, if_pos rfl]

/-- Without room the text is given up. -/
theorem wrapSegmentFrom_narrow (narrow : lineWidth width indent firstLine = 0) :
    wrapSegmentFrom width indent firstLine chars = [] := by
  rw [wrapSegmentFrom]
  split
  · rfl
  · exact if_pos narrow

theorem wrapSegmentFrom_last (some_ : chars ≠ []) (room : lineWidth width indent firstLine ≠ 0)
    (last : chars.length ≤ max 1 (fitting (lineWidth width indent firstLine) chars)) :
    wrapSegmentFrom width indent firstLine chars =
      [buildLineFromStyledChars chars (!firstLine) indent] := by
  rw [wrapSegmentFrom, if_neg some_]
  exact (if_neg room).trans (if_pos last)

theorem wrapSegmentFrom_more (some_ : chars ≠ []) (room : lineWidth width indent firstLine ≠ 0)
    {end_ : Nat} (ends : end_ = max 1 (fitting (lineWidth width indent firstLine) chars))
    (more : ¬chars.length ≤ end_) :
    wrapSegmentFrom width indent firstLine chars =
      buildLineFromStyledChars (chars.take (actualEnd chars end_)) (!firstLine) indent ::
        wrapSegmentFrom width indent false
          ((chars.drop (actualEnd chars end_)).dropWhile StyledGrapheme.isSpace) := by
  subst ends
  rw [wrapSegmentFrom, if_neg some_]
  exact (if_neg room).trans (if_neg more)

end Steps

/-- Where the indent leaves room, wrapping shows all of a segment. -/
theorem wrapSegmentFrom_shows (room : indent < width) (firstLine : Bool)
    (chars : List (StyledGrapheme σ)) (some_ : chars ≠ [])
    (unbroken : ∀ g ∈ chars, g.isNewline = false) (proper : ∀ g ∈ chars, Proper g) :
    ShowsAll width indent chars (wrapSegmentFrom width indent firstLine chars) := by
  induction size : chars.length using Nat.strong_induction_on generalizing chars firstLine with
  | _ length ih =>
    have positive : lineWidth width indent firstLine ≠ 0 := by
      cases firstLine with
      | true => exact Nat.ne_of_gt (Nat.zero_lt_of_lt room)
      | false => exact Nat.sub_ne_zero_of_lt room
    have indented : (if !firstLine then indent else 0) = 0 ∨
        (if !firstLine then indent else 0) = indent := by
      cases firstLine with
      | true => exact .inl rfl
      | false => exact .inr rfl
    by_cases last : chars.length ≤ max 1 (fitting (lineWidth width indent firstLine) chars)
    · rw [wrapSegmentFrom_last some_ positive last]
      have shows_ : ShowsAll width indent (chars ++ []) _ :=
        .done (lineChars_build chars proper (!firstLine) indent) indented unbroken
          (fun _ absurd => by cases absurd) (.inl rfl) fun _ => fits_row room (fits_last some_ last)
      rwa [List.append_nil] at shows_
    · have moved := actualEnd_pos chars (max 1 (fitting (lineWidth width indent firstLine) chars))
        (Nat.lt_of_lt_of_le Nat.one_pos (Nat.le_max_left _ _))
      have fits := fits_row room (fits_actualEnd (lineWidth width indent firstLine) some_)
      rw [wrapSegmentFrom_more some_ positive rfl last]
      generalize actualEnd chars _ = cut at moved fits ⊢
      have whole := List.take_append_drop cut chars
      have shownSome : chars.take cut ≠ [] := by
        intro none_
        rcases List.take_eq_nil_iff.mp none_ with zero | empty
        · omega
        · exact some_ empty
      have shorter : (chars.drop cut).length < length := by
        have filled : 0 < chars.length := List.length_pos_iff.mpr some_
        rw [List.length_drop]
        omega
      generalize chars.take cut = shown at whole shownSome fits ⊢
      generalize chars.drop cut = left at whole shorter ⊢
      have parts : left.takeWhile StyledGrapheme.isSpace ++ left.dropWhile StyledGrapheme.isSpace =
          left := List.takeWhile_append_dropWhile
      have blank : ∀ g ∈ left.takeWhile StyledGrapheme.isSpace, g.isSpace = true := fun g member =>
        List.mem_takeWhile_imp member
      have fewer := List.length_dropWhile_le StyledGrapheme.isSpace left
      generalize left.takeWhile StyledGrapheme.isSpace = spaces at parts blank
      generalize left.dropWhile StyledGrapheme.isSpace = others at parts fewer ⊢
      subst parts whole
      rw [List.forall_mem_append, List.forall_mem_append] at unbroken proper
      have chars_ := lineChars_build shown proper.1 (!firstLine) indent
      by_cases over_ : others = []
      · subst over_
        rw [wrapSegmentFrom_nil, List.append_nil]
        exact .done chars_ indented unbroken.1 blank (.inr shownSome) fun _ => fits
      · have later := ih others.length (by omega) false others over_ unbroken.2.2 proper.2.2 rfl
        exact .soft chars_ indented unbroken.1 blank shownSome (fun _ => fits) later

end Segments

/-! ### Without room for the indent -/

section Narrow

variable {σ : Type} {width indent n : Nat} {core tail : List (StyledGrapheme σ)}

/-- Where the first visual line of a segment ends. -/
def firstEnd (width : Nat) (chars : List (StyledGrapheme σ)) : Nat :=
  if chars.length ≤ max 1 (fitting width chars) then chars.length
  else actualEnd chars (max 1 (fitting width chars))

theorem placeholder_of_space {g : StyledGrapheme σ} (space : g.isSpace = true) :
    decodePlaceholderGrapheme g.text = none := by
  have text : g.text = [' '] := of_decide_eq_true space
  rw [text]
  decide

/-- What follows a place is blank when the text ends before it. -/
theorem blank_drop_iff (blank : ∀ g ∈ tail, g.isSpace = true)
    (solid : ∀ g ∈ core.getLast?, g.isSpace = false) :
    (∀ g ∈ (core ++ tail).drop n, g.isSpace = true) ↔ core.length ≤ n := by
  rw [List.drop_append]
  constructor
  · intro spaces
    by_contra inside
    have some_ : core ≠ [] := by
      rintro rfl
      exact inside (Nat.zero_le n)
    have last := List.getLast?_eq_some_getLast some_
    have member : core.getLast some_ ∈ core.drop n := by
      have short : core.drop n ≠ [] := by
        rw [ne_eq, List.drop_eq_nil_iff]
        exact inside
      have same := List.getLast_drop short
      rw [← same]
      exact List.getLast_mem short
    have space := spaces _ (List.mem_append_left _ member)
    rw [solid _ last] at space
    cases space
  · intro past g member
    rw [List.drop_eq_nil_of_le past, List.nil_append] at member
    exact blank g (List.mem_of_mem_drop member)

/-- A visual line that reaches the spaces behind the text, or has no space to end at, ends where
the room does. -/
theorem actualEnd_tail (blank : ∀ g ∈ tail, g.isSpace = true) (within : core.length ≤ n)
    (more : n < (core ++ tail).length)
    (either : core.length < n ∨ ∀ g ∈ core, g.isSpace = false) :
    actualEnd (core ++ tail) n = n := by
  have next : ∀ g ∈ (core ++ tail)[n]?, decodePlaceholderGrapheme g.text = none := by
    intro g here
    rw [List.getElem?_append_right within] at here
    exact placeholder_of_space (blank g (List.mem_of_getElem? here))
  have boundary : (match rposition StyledGrapheme.isSpace ((core ++ tail).take n) with
      | some breakPos => breakPos + 1
      | none => n) = n := by
    rw [List.take_append, List.take_of_length_le within]
    rcases Nat.lt_or_eq_of_le within with beyond | exact_
    · have size : (tail.take (n - core.length)).length = n - core.length := by
        rw [List.length_take]
        rw [List.length_append] at more
        omega
      obtain ⟨front, last, shape⟩ : ∃ front last, tail.take (n - core.length) = front ++ [last] := by
        rcases List.eq_nil_or_concat' (tail.take (n - core.length)) with none_ | found
        · rw [none_, List.length_nil] at size
          omega
        · exact found
      have space := blank last (List.mem_of_mem_take (by
        rw [shape]
        exact List.mem_append_right front (List.mem_singleton_self last)))
      have found : rposition StyledGrapheme.isSpace (core ++ tail.take (n - core.length)) =
          some (core ++ front).length :=
        rposition_eq_some.mpr ⟨core ++ front, last, [], by simp [shape], rfl, space, by simp⟩
      rw [found]
      show (core ++ front).length + 1 = n
      rw [shape, List.length_append, List.length_singleton] at size
      rw [List.length_append]
      omega
    · have none_ : rposition StyledGrapheme.isSpace (core ++ tail.take (n - core.length)) = none := by
        rw [exact_, Nat.sub_self, List.take_zero, List.append_nil]
        rcases either with beyond | words
        · omega
        · exact rposition_eq_none.mpr words
      rw [none_]
  unfold actualEnd
  rw [boundary]
  exact avoidSplittingPlaceholder_plain next

/-- The first visual line takes all of a text's words when the text takes one visual line. -/
theorem firstEnd_iff (positive : width ≠ 0) (blank : ∀ g ∈ tail, g.isSpace = true)
    (solid : ∀ g ∈ core.getLast?, g.isSpace = false) (some_ : core ++ tail ≠ [])
    (proper : ∀ g ∈ core ++ tail, Proper g) :
    core.length ≤ firstEnd width (core ++ tail) ↔
      totalWidth (core ++ tail) ≤ width ∨ totalWidth core + 1 ≤ width ∨
        ((∀ g ∈ core, g.isSpace = false) ∧ (totalWidth core ≤ width ∨ core.length ≤ 1)) := by
  unfold firstEnd
  split
  · rename_i last
    have whole : core.length ≤ (core ++ tail).length := by simp
    refine ⟨fun _ => ?_, fun _ => whole⟩
    rcases fits_last some_ last with within | ⟨g, single, -⟩
    · exact .inl within
    · have one : core.length ≤ 1 := by
        rw [single] at whole
        exact whole
      refine .inr (.inr ⟨?_, .inr one⟩)
      intro g' member
      apply solid g'
      have alone : core = [g'] := by
        obtain ⟨front, back, rfl⟩ := List.append_of_mem member
        simp only [List.length_append, List.length_cons] at one
        have none_ := List.length_eq_zero_iff.mp (show front.length = 0 by omega)
        have none' := List.length_eq_zero_iff.mp (show back.length = 0 by omega)
        rw [none_, none', List.nil_append]
      rw [alone]
      rfl
  · rename_i more
    have more' : max 1 (fitting width (core ++ tail)) < (core ++ tail).length := Nat.not_le.mp more
    have wide : width < totalWidth (core ++ tail) := by
      by_contra fits
      have all := (le_fitting width (core ++ tail) _ le_rfl).mpr
        (.inr (by rw [List.take_length]; omega))
      omega
    have reach : ∀ m ≤ (core ++ tail).length,
        m ≤ fitting width (core ++ tail) ↔ m = 0 ∨ totalWidth ((core ++ tail).take m) ≤ width :=
      fun m => le_fitting width (core ++ tail) m
    have coreReach : core.length ≤ fitting width (core ++ tail) ↔
        core.length = 0 ∨ totalWidth core ≤ width := by
      have at_ := reach core.length (by simp)
      rwa [List.take_left] at at_
    have spaceReach : tail ≠ [] → (core.length + 1 ≤ fitting width (core ++ tail) ↔
        totalWidth core + 1 ≤ width) := by
      intro trailing
      obtain ⟨space, others, rfl⟩ := List.exists_cons_of_ne_nil trailing
      have at_ := reach (core.length + 1) (by simp)
      have narrow : space.width = 1 :=
        (proper space (List.mem_append_right core List.mem_cons_self)).space
          (blank space List.mem_cons_self)
      rw [List.take_append, List.take_of_length_le (Nat.le_succ _), Nat.add_sub_cancel_left,
        List.take_succ_cons, List.take_zero, totalWidth_append, totalWidth_cons, totalWidth_nil,
        narrow] at at_
      rw [at_]
      omega
    have reaches := actualEnd_le (core ++ tail) (max 1 (fitting width (core ++ tail)))
    generalize fitting width (core ++ tail) = fit at *
    constructor
    · intro taken
      have within : core.length ≤ max 1 fit := taken.trans reaches
      have trailing : tail ≠ [] := by
        rintro rfl
        rw [List.append_nil] at more'
        omega
      rcases Nat.lt_or_eq_of_le within with beyond | exact_
      · by_cases none_ : core.length = 0
        · have empty := List.length_eq_zero_iff.mp none_
          rw [empty, totalWidth_nil]
          omega
        · exact .inr (.inl ((spaceReach trailing).mp (by omega)))
      · refine .inr (.inr ⟨?_, ?_⟩)
        · -- a space before the last word would end the line before it
          by_contra spaced
          push Not at spaced
          obtain ⟨g, member, space⟩ := spaced
          cases found : rposition StyledGrapheme.isSpace ((core ++ tail).take (max 1 fit)) with
          | none =>
              rw [← exact_, List.take_left] at found
              have none_ := rposition_eq_none.mp found g member
              exact space none_
          | some i =>
              have early : actualEnd (core ++ tail) (max 1 fit) ≤ i + 1 := by
                unfold actualEnd
                rw [found]
                exact avoidSplittingPlaceholder_le _ _
              rw [← exact_, List.take_left] at found
              obtain ⟨front, x, back, shape, rfl, isSpace, -⟩ := rposition_eq_some.mp found
              have size := congrArg List.length shape
              rw [List.length_append, List.length_cons] at size
              have ends : back = [] := List.length_eq_zero_iff.mp (by omega)
              have last := solid x (by rw [shape, ends]; simp)
              rw [last] at isSpace
              cases isSpace
        · by_cases fits : 1 ≤ fit
          · rcases coreReach.mp (by omega) with none_ | within'
            · exact .inr (by omega)
            · exact .inl within'
          · exact .inr (by omega)
    · intro shapes
      have trailing : totalWidth core + 1 ≤ width → tail ≠ [] := by
        rintro room rfl
        rw [List.append_nil] at wide
        omega
      have ended : core.length ≤ max 1 fit ∧
          (core.length < max 1 fit ∨ ∀ g ∈ core, g.isSpace = false) := by
        rcases shapes with fits | room | ⟨words, fits | single⟩
        · omega
        · have reached := (spaceReach (trailing room)).mpr room
          exact ⟨by omega, .inl (by omega)⟩
        · have reached := coreReach.mpr (.inr fits)
          exact ⟨by omega, .inr words⟩
        · exact ⟨by omega, .inr words⟩
      rw [actualEnd_tail blank ended.1 more' ended.2]
      exact ended.1

/-- The words of a text and the spaces behind them. -/
theorem takesOneLine_iff {chars : List (StyledGrapheme σ)} (positive : width ≠ 0)
    (some_ : chars ≠ []) (proper : ∀ g ∈ chars, Proper g) :
    (∀ g ∈ chars.drop (firstEnd width chars), g.isSpace = true) ↔ TakesOneLine width chars := by
  have whole := List.rdropWhile_append_rtakeWhile (p := StyledGrapheme.isSpace) (l := chars)
  have blank : ∀ g ∈ chars.rtakeWhile StyledGrapheme.isSpace, g.isSpace = true := fun g member =>
    List.mem_rtakeWhile_imp member
  have solid : ∀ g ∈ (chars.rdropWhile StyledGrapheme.isSpace).getLast?, g.isSpace = false := by
    intro g last
    have filled : chars.rdropWhile StyledGrapheme.isSpace ≠ [] := by
      intro none_
      rw [none_] at last
      cases last
    rw [List.getLast?_eq_some_getLast filled] at last
    cases last
    exact Bool.eq_false_iff.mpr (List.rdropWhile_last_not _ _ filled)
  unfold TakesOneLine
  generalize chars.rdropWhile StyledGrapheme.isSpace = core at *
  generalize chars.rtakeWhile StyledGrapheme.isSpace = tail at *
  subst whole
  rw [blank_drop_iff blank solid]
  exact firstEnd_iff positive blank solid some_ proper

variable [DecidableEq σ] [Inhabited σ]

/-- When the indent leaves no room there is no second visual line. -/
theorem wrapSegmentFrom_first (narrow : width ≤ indent) (positive : width ≠ 0)
    {chars : List (StyledGrapheme σ)} (some_ : chars ≠ []) :
    wrapSegmentFrom width indent true chars =
      [buildLineFromStyledChars (chars.take (firstEnd width chars)) false indent] := by
  have room : lineWidth width indent true ≠ 0 := positive
  by_cases last : chars.length ≤ max 1 (fitting (lineWidth width indent true) chars)
  · have whole : firstEnd width chars = chars.length := if_pos last
    rw [wrapSegmentFrom_last some_ room last, whole, List.take_length]
    rfl
  · have none_ : lineWidth width indent false = 0 := Nat.sub_eq_zero_of_le narrow
    have cut : firstEnd width chars = actualEnd chars (max 1 (fitting width chars)) := if_neg last
    rw [wrapSegmentFrom_more some_ room rfl last, wrapSegmentFrom_narrow none_, cut]
    rfl

theorem wrapPart_narrow (narrow : width ≤ indent) (segment : List (StyledGrapheme σ)) :
    wrapPart width indent true segment = [buildLineFromStyledChars segment false indent] := by
  have none_ : lineWidth width indent false = 0 := Nat.sub_eq_zero_of_le narrow
  unfold wrapPart
  split
  · rename_i empty
    subst empty
    rfl
  · unfold wrapSegment
    rw [Bool.not_true, wrapSegmentFrom_narrow none_]

end Narrow

/-! ### Whole lines -/

section Lines

variable {σ : Type} [DecidableEq σ] [Inhabited σ] {width indent : Nat}
  {chars first : List (StyledGrapheme σ)} {rest : List (List (StyledGrapheme σ))}
  {lines : List (Line σ)}

omit [DecidableEq σ] [Inhabited σ] in
/-- A text without hard line breaks, or one in front of the first of them. -/
theorem unbroken_or_split (chars : List (StyledGrapheme σ)) :
    (∀ g ∈ chars, g.isNewline = false) ∨ ∃ newline more,
      chars = firstSegment chars ++ newline :: more ∧ newline.isNewline = true ∧
        ∀ g ∈ firstSegment chars, g.isNewline = false := by
  have before : ∀ g ∈ firstSegment chars, g.isNewline = false := fun g member => by
    simpa using List.mem_takeWhile_imp member
  have whole : firstSegment chars ++ chars.dropWhile (fun g => !g.isNewline) = chars :=
    List.takeWhile_append_dropWhile
  cases behind : chars.dropWhile fun g => !g.isNewline with
  | nil =>
      rw [behind, List.append_nil] at whole
      rw [whole] at before
      exact .inl before
  | cons newline more =>
      rw [behind] at whole
      have breaks := List.head_dropWhile_not (fun g : StyledGrapheme σ => !g.isNewline)
        (show chars.dropWhile (fun g => !g.isNewline) ≠ [] by simp [behind])
      simp only [behind, List.head_cons, Bool.not_eq_false'] at breaks
      exact .inr ⟨newline, more, whole.symm, breaks, before⟩

omit [DecidableEq σ] [Inhabited σ] in
theorem firstSegment_unbroken (unbroken : ∀ g ∈ chars, g.isNewline = false) :
    firstSegment chars = chars :=
  List.takeWhile_eq_self_iff.mpr fun g member => by simp [unbroken g member]

omit [DecidableEq σ] [Inhabited σ] in
theorem splitOnP_head (split_ : chars.splitOnP StyledGrapheme.isNewline = first :: rest) :
    first = firstSegment chars := by
  rcases unbroken_or_split chars with unbroken | ⟨newline, more, whole, breaks, before⟩
  · rw [List.splitOnP_eq_singleton unbroken] at split_
    cases split_
    exact (firstSegment_unbroken unbroken).symm
  · rw [whole, List.splitOnP_append_cons_of_forall_mem before newline breaks] at split_
    exact (List.cons.inj split_).1.symm

/-- When every segment is shown, the line is. -/
theorem ShowsAll.parts
    (each : ∀ segment : List (StyledGrapheme σ), (∀ g ∈ segment, g.isNewline = false) →
      (∀ g ∈ segment, Proper g) → ShowsAll width indent segment (wrapPart width indent true segment))
    (proper : ∀ g ∈ chars, Proper g)
    (split_ : chars.splitOnP StyledGrapheme.isNewline = first :: rest)
    (start : ShowsAll width indent first lines) :
    ShowsAll width indent chars (lines ++ rest.flatMap (wrapPart width indent true)) := by
  induction size : chars.length using Nat.strong_induction_on
    generalizing chars first rest lines with
  | _ length ih =>
    rcases unbroken_or_split chars with unbroken | ⟨newline, more, whole, breaks, before⟩
    · rw [List.splitOnP_eq_singleton unbroken] at split_
      cases split_
      rwa [List.flatMap_nil, List.append_nil]
    · rw [whole, List.splitOnP_append_cons_of_forall_mem before newline breaks] at split_
      generalize firstSegment chars = segment at *
      subst whole
      cases split_
      rw [List.forall_mem_append, List.forall_mem_cons] at proper
      cases others : more.splitOnP StyledGrapheme.isNewline with
      | nil => exact absurd others (List.splitOnP_ne_nil _ _)
      | cons next others' =>
          have nextUnbroken : (∀ g ∈ next, g.isNewline = false) ∧ ∀ g ∈ next, Proper g := by
            have head := splitOnP_head others
            refine ⟨fun g member => ?_, fun g member => proper.2.2 g ?_⟩
            · rw [head] at member
              simpa using List.mem_takeWhile_imp member
            · rw [head] at member
              exact (List.takeWhile_sublist _).mem member
          have shorter : more.length < length := by
            rw [← size, List.length_append, List.length_cons]
            omega
          have later := ih _ shorter proper.2.2 others (each next nextUnbroken.1 nextUnbroken.2) rfl
          rw [List.flatMap_cons]
          exact start.hard breaks later

omit [DecidableEq σ] in
theorem ShowsAll.empty : ShowsAll width indent ([] : List (StyledGrapheme σ)) [[]] := by
  have blank : lineChars ([] : Line σ) = (Row.mk 0 []).chars := rfl
  have shows_ : ShowsAll width indent ([] ++ []) [([] : Line σ)] :=
    .done blank (.inl rfl) (fun _ absurd => by cases absurd)
      (fun _ absurd => by cases absurd) (.inl rfl) fun _ => .inl (Nat.zero_le width)
  exact shows_

theorem wrapPart_shows (room : indent < width) (continued : Bool)
    (segment : List (StyledGrapheme σ)) (unbroken : ∀ g ∈ segment, g.isNewline = false)
    (proper : ∀ g ∈ segment, Proper g) :
    ShowsAll width indent segment (wrapPart width indent continued segment) := by
  unfold wrapPart
  split
  · rename_i empty
    rw [empty]
    exact .empty
  · rename_i some_
    have shows_ := wrapSegmentFrom_shows room (!continued) segment some_ unbroken proper
    unfold wrapSegment
    cases wrapped : wrapSegmentFrom width indent (!continued) segment with
    | cons line more => rwa [wrapped] at shows_
    | nil =>
        rw [wrapped] at shows_
        obtain ⟨rows, none_, -, broken, -⟩ := shows_
        rw [List.map_nil] at none_
        rw [List.map_eq_nil_iff.mp none_.symm] at broken
        cases broken

theorem wrapPart_shows_narrow (narrow : width ≤ indent) (segment : List (StyledGrapheme σ))
    (unbroken : ∀ g ∈ segment, g.isNewline = false) (proper : ∀ g ∈ segment, Proper g) :
    ShowsAll width indent segment (wrapPart width indent true segment) := by
  rw [wrapPart_narrow narrow]
  have shows_ : ShowsAll width indent (segment ++ []) _ :=
    .done (lineChars_build segment proper false indent) (.inl rfl) unbroken
      (fun _ absurd => by cases absurd) (.inl rfl) fun room => absurd narrow (Nat.not_le.mpr room)
  rwa [List.append_nil] at shows_

theorem wrapPart_first (narrow : width ≤ indent) (positive : width ≠ 0)
    {segment : List (StyledGrapheme σ)} (some_ : segment ≠ []) :
    wrapPart width indent false segment =
      [buildLineFromStyledChars (segment.take (firstEnd width segment)) false indent] := by
  unfold wrapPart wrapSegment
  rw [if_neg some_, Bool.not_false, wrapSegmentFrom_first narrow positive some_]

theorem wrapPart_shows_first (narrow : width ≤ indent) (positive : width ≠ 0)
    {segment : List (StyledGrapheme σ)} (unbroken : ∀ g ∈ segment, g.isNewline = false)
    (proper : ∀ g ∈ segment, Proper g) (one : TakesOneLine width segment) :
    ShowsAll width indent segment (wrapPart width indent false segment) := by
  by_cases some_ : segment = []
  · rw [some_]
    exact .empty
  · have blank := (takesOneLine_iff positive some_ proper).mpr one
    have whole := List.take_append_drop (firstEnd width segment) segment
    have shownSome : segment.take (firstEnd width segment) ≠ [] := by
      intro none_
      have ends := actualEnd_pos segment (max 1 (fitting width segment)) (by omega)
      have filled : 0 < segment.length := List.length_pos_iff.mpr some_
      rcases List.take_eq_nil_iff.mp none_ with zero | empty
      · unfold firstEnd at zero
        split at zero
        · omega
        · omega
      · exact some_ empty
    rw [wrapPart_first narrow positive some_]
    have shows_ : ShowsAll width indent
        (segment.take (firstEnd width segment) ++ segment.drop (firstEnd width segment)) _ :=
      .done (lineChars_build _ (fun g member => proper g (List.mem_of_mem_take member)) false indent)
        (.inl rfl) (fun g member => unbroken g (List.mem_of_mem_take member)) blank (.inr shownSome)
        fun room => absurd narrow (Nat.not_le.mpr room)
    rwa [whole] at shows_

end Lines

/-! ### What is lost -/

section Lost

variable {σ : Type}

/-- The characters that are neither spaces nor line feeds. -/
def solid (chars : List (Char × σ)) : List (Char × σ) :=
  chars.filter fun c => decide (c.1 ≠ ' ') && decide (c.1 ≠ '\n')

@[simp] theorem solid_append (a b : List (Char × σ)) : solid (a ++ b) = solid a ++ solid b :=
  List.filter_append _ _

theorem solid_blank {g : StyledGrapheme σ} (blank : g.isSpace = true ∨ g.isNewline = true) :
    solid (g.text.map fun c => (c, g.style)) = [] := by
  rcases blank with space | newline
  · rw [show g.text = [' '] from of_decide_eq_true space]
    rfl
  · rw [show g.text = ['\n'] from of_decide_eq_true newline]
    rfl

theorem solid_spaces {spaces : List (StyledGrapheme σ)} (blank : ∀ g ∈ spaces, g.isSpace = true) :
    solid (graphemeChars spaces) = [] := by
  induction spaces with
  | nil => rfl
  | cons g rest ih =>
      rw [List.forall_mem_cons] at blank
      rw [graphemeChars_cons, solid_append, solid_blank (.inl blank.1), ih blank.2]
      rfl

/-- Breaking a text keeps all that is solid in it. -/
theorem Broken.solid {chars : List (StyledGrapheme σ)} {shown : List (List (StyledGrapheme σ))}
    (broken : Broken chars shown) :
    Ui.solid (graphemeChars chars) = Ui.solid (graphemeChars shown.flatten) := by
  induction broken with
  | done _ blank _ => simp [solid_spaces blank]
  | soft _ blank _ _ ih => simp [solid_spaces blank, ih]
  | hard _ blank _ breaks _ ih => simp [solid_spaces blank, solid_blank (.inr breaks), ih]

variable [Inhabited σ] {width indent : Nat} {chars : List (StyledGrapheme σ)} {lines : List (Line σ)}

theorem solid_rows (rows : List (Row σ)) :
    solid (rows.map Row.chars).flatten = solid (graphemeChars (rows.map Row.shown).flatten) := by
  induction rows with
  | nil => rfl
  | cons row rest ih =>
      have gap : solid (List.replicate row.gap (' ', (default : σ))) = [] := by
        simp [solid]
      simp only [List.map_cons, List.flatten_cons, solid_append, graphemeChars_append, Row.chars,
        gap, List.nil_append, ih]

theorem ShowsAll.solid (shows_ : ShowsAll width indent chars lines) :
    Ui.solid (graphemeChars chars) = Ui.solid (lines.map lineChars).flatten := by
  obtain ⟨rows, same, -, broken, -⟩ := shows_
  rw [broken.solid, same, solid_rows]

omit [Inhabited σ] in
/-- The solid characters of a text are those of its segments. -/
theorem solid_splitOnP (chars : List (StyledGrapheme σ)) :
    solid (graphemeChars chars) =
      solid (graphemeChars (chars.splitOnP StyledGrapheme.isNewline).flatten) := by
  induction chars with
  | nil => rfl
  | cons g rest ih =>
      rw [List.splitOnP_cons_eq_if_modifyHead]
      cases breaks : g.isNewline with
      | true => simpa [solid_blank (.inr breaks)] using ih
      | false =>
          cases parts : rest.splitOnP StyledGrapheme.isNewline with
          | nil => exact absurd parts (List.splitOnP_ne_nil _ _)
          | cons first others =>
              rw [parts] at ih
              simpa using ih

end Lost

theorem mem_of_mem_splitOnP {α : Type} {p : α → Bool} {xs part : List α} {x : α}
    (listed : part ∈ xs.splitOnP p) (here : x ∈ part) : x ∈ xs := by
  induction xs generalizing part with
  | nil =>
      rw [List.splitOnP_nil, List.mem_singleton] at listed
      rwa [listed] at here
  | cons y rest ih =>
      rw [List.splitOnP_cons_eq_if_modifyHead] at listed
      split at listed
      · rcases List.mem_cons.mp listed with rfl | later
        · cases here
        · exact List.mem_cons_of_mem y (ih later here)
      · cases parts : rest.splitOnP p with
        | nil => exact absurd parts (List.splitOnP_ne_nil _ _)
        | cons first others =>
            rw [parts, List.modifyHead_cons] at listed
            rw [parts] at ih
            rcases List.mem_cons.mp listed with rfl | later
            · rcases List.mem_cons.mp here with rfl | further
              · exact List.mem_cons_self
              · exact List.mem_cons_of_mem y (ih List.mem_cons_self further)
            · exact List.mem_cons_of_mem y (ih (List.mem_cons_of_mem first later) here)

section Wrapping

variable {σ : Type} [DecidableEq σ] [Inhabited σ] {width indent : Nat}

/-- A line that fits as it is. -/
theorem wrapLine_fits (G : Segmentation) (line : Line σ) (positive : width ≠ 0)
    (unbroken : (styledChars G line).any StyledGrapheme.isNewline = false)
    (fits : totalWidth (styledChars G line) ≤ width) :
    wrapLine width indent G line = [line] := by
  rw [wrapLine, if_neg positive]
  exact if_pos ⟨unbroken, fits⟩

theorem wrapLine_split (G : Segmentation) (line : Line σ) (positive : width ≠ 0)
    (long : ¬((styledChars G line).any StyledGrapheme.isNewline = false ∧
      totalWidth (styledChars G line) ≤ width)) :
    ∃ first rest, (styledChars G line).splitOnP StyledGrapheme.isNewline = first :: rest ∧
      wrapLine width indent G line =
        wrapPart width indent false first ++ rest.flatMap (wrapPart width indent true) := by
  rw [wrapLine, if_neg positive]
  cases parts : (styledChars G line).splitOnP StyledGrapheme.isNewline with
  | nil => exact absurd parts (List.splitOnP_ne_nil _ _)
  | cons first rest =>
      refine ⟨first, rest, rfl, ?_⟩
      simp only [if_neg long, parts]

theorem wrapLine_shows (G : Segmentation) (line : Line σ) (positive : width ≠ 0)
    (room : indent < width ∨ TakesOneLine width (firstSegment (styledChars G line))) :
    ShowsAll width indent (styledChars G line) (wrapLine width indent G line) := by
  have proper := styledChars_proper G line
  by_cases short : (styledChars G line).any StyledGrapheme.isNewline = false ∧
      totalWidth (styledChars G line) ≤ width
  · rw [wrapLine_fits G line positive short.1 short.2]
    have same : lineChars line = (Row.mk 0 (styledChars G line)).chars :=
      (graphemeChars_styledChars G line).symm
    have unbroken : ∀ g ∈ styledChars G line, g.isNewline = false := fun g member =>
      Bool.eq_false_iff.mpr (List.any_eq_false.mp short.1 g member)
    have shows_ : ShowsAll width indent (styledChars G line ++ []) [line] :=
      .done same (.inl rfl) unbroken (fun _ absurd => by cases absurd) (.inl rfl)
        fun _ => .inl (by rw [Nat.zero_add]; exact short.2)
    rwa [List.append_nil] at shows_
  · obtain ⟨first, rest, parts, wrapped⟩ := @wrapLine_split σ _ _ width indent G line positive short
    have head := splitOnP_head parts
    have unbroken : ∀ g ∈ first, g.isNewline = false := fun g member => by
      rw [head] at member
      simpa using List.mem_takeWhile_imp member
    have proper_ : ∀ g ∈ first, Proper g := fun g member => by
      rw [head] at member
      exact proper g ((List.takeWhile_sublist _).mem member)
    rw [← head] at room
    rw [wrapped]
    by_cases wide : indent < width
    · exact .parts (wrapPart_shows wide true) proper parts
        (wrapPart_shows wide false first unbroken proper_)
    · have narrow := Nat.not_lt.mp wide
      have one := room.resolve_left wide
      exact .parts (wrapPart_shows_narrow narrow) proper parts
        (wrapPart_shows_first narrow positive unbroken proper_ one)

/-- Without room for the indent, what the first visual line of a long text leaves over is lost. -/
theorem wrapLine_loses (G : Segmentation) (line : Line σ) (positive : width ≠ 0)
    (narrow : width ≤ indent) (long : ¬TakesOneLine width (firstSegment (styledChars G line))) :
    ¬ShowsAll width indent (styledChars G line) (wrapLine width indent G line) := by
  intro shows_
  have proper := styledChars_proper G line
  have split_ : ¬((styledChars G line).any StyledGrapheme.isNewline = false ∧
      totalWidth (styledChars G line) ≤ width) := by
    rintro ⟨unbroken, fits⟩
    apply long
    rw [firstSegment_unbroken fun g member =>
      Bool.eq_false_iff.mpr (List.any_eq_false.mp unbroken g member)]
    exact .inl fits
  obtain ⟨first, rest, parts, wrapped⟩ := @wrapLine_split σ _ _ width indent G line positive split_
  have head := splitOnP_head parts
  rw [← head] at long
  have some_ : first ≠ [] := by
    rintro rfl
    exact long (.inl (Nat.zero_le width))
  have inFirst : ∀ g ∈ first, Proper g ∧ g.isNewline = false := by
    intro g member
    rw [head] at member
    exact ⟨proper g ((List.takeWhile_sublist _).mem member), by
      simpa using List.mem_takeWhile_imp member⟩
  have left := mt (takesOneLine_iff positive some_ fun g member => (inFirst g member).1).mp long
  push Not at left
  obtain ⟨g, dropped, word⟩ := left
  have member := List.mem_of_mem_drop dropped
  obtain ⟨c, inside, solid_⟩ := (inFirst g member).1.solid (Bool.eq_false_iff.mpr word)
    (inFirst g member).2
  -- the solid characters on the screen against those of the text
  have others : ((rest.flatMap (wrapPart width indent true)).map lineChars).flatten =
      graphemeChars rest.flatten := by
    have proper_ : ∀ segment ∈ rest, ∀ g ∈ segment, Proper g := fun segment listed g here =>
      proper g (mem_of_mem_splitOnP (by rw [parts]; exact List.mem_cons_of_mem first listed) here)
    clear parts wrapped
    induction rest with
    | nil => rfl
    | cons segment rest ih =>
        rw [List.forall_mem_cons] at proper_
        have shown := lineChars_build segment proper_.1 false indent
        rw [List.flatMap_cons, wrapPart_narrow narrow, List.flatten_cons, graphemeChars_append,
          List.singleton_append, List.map_cons, List.flatten_cons, shown, ih proper_.2]
        rfl
  have kept := shows_.solid
  rw [solid_splitOnP, parts, wrapped, wrapPart_first narrow positive some_, List.map_append,
    List.flatten_append, others, List.flatten_cons, graphemeChars_append, solid_append,
    solid_append] at kept
  have start := List.append_cancel_right kept
  have shown := lineChars_build (first.take (firstEnd width first))
    (fun g member => (inFirst g (List.mem_of_mem_take member)).1) false indent
  have screen : Row.chars ⟨if false = true then indent else 0, first.take (firstEnd width first)⟩ =
      graphemeChars (first.take (firstEnd width first)) := rfl
  have whole : graphemeChars first = graphemeChars (first.take (firstEnd width first)) ++
      graphemeChars (first.drop (firstEnd width first)) := by
    rw [← graphemeChars_append, List.take_append_drop]
  rw [List.map_singleton, List.flatten_singleton, shown, screen, whole, solid_append] at start
  have none_ := List.append_right_eq_self.mp start
  have written : (c, g.style) ∈ solid (graphemeChars (first.drop (firstEnd width first))) := by
    refine List.mem_filter.mpr ⟨List.mem_flatMap.mpr ⟨g, dropped, List.mem_map_of_mem inside⟩, ?_⟩
    simpa using solid_
  rw [none_] at written
  cases written

/-- Wrapping ends with all of a line on the screen, in visual lines that fit, exactly when the
indent leaves room for text or the text before the first hard line break takes one visual line. -/
theorem wrapLine_shows_all_iff (G : Segmentation) (line : Line σ) (positive : 1 ≤ width) :
    ShowsAll width indent (styledChars G line) (wrapLine width indent G line) ↔
      indent < width ∨ TakesOneLine width (firstSegment (styledChars G line)) := by
  have some_ : width ≠ 0 := Nat.ne_of_gt positive
  constructor
  · intro shows_
    by_contra narrow
    rw [not_or] at narrow
    exact wrapLine_loses G line some_ (Nat.not_lt.mp narrow.1) narrow.2 shows_
  · exact wrapLine_shows G line some_

/-- The cut of ASCII text. -/
def charSegments : Segmentation where
  graphemes text := text.map fun c => [c]
  width := List.length
  joined text := by
    induction text with
    | nil => rfl
    | cons c rest ih => rw [List.map_cons, List.flatten_cons, ih, List.singleton_append]
  separate text g member blank := by
    obtain ⟨c, -, rfl⟩ := List.mem_map.mp member
    rcases blank c (List.mem_singleton_self c) with rfl | rfl
    · exact .inl rfl
    · exact .inr rfl
  width_space := rfl

theorem wrapLine_shows_all_iff_two_words :
    ShowsAll 3 2 (styledChars charSegments [⟨"ab cd".toList, ()⟩])
        (wrapLine 3 2 charSegments [⟨"ab cd".toList, ()⟩]) ↔
      2 < 3 ∨ TakesOneLine 3 (firstSegment (styledChars charSegments [⟨"ab cd".toList, ()⟩])) :=
  wrapLine_shows_all_iff charSegments _ (by decide)

theorem second_word_lost :
    wrapLine 3 3 charSegments [⟨"ab cd".toList, ()⟩] = [[⟨"ab ".toList, ()⟩]] ∧
      ¬ShowsAll 3 3 (styledChars charSegments [⟨"ab cd".toList, ()⟩])
        [[⟨"ab ".toList, ()⟩]] := by
  constructor
  · decide +kernel
  · intro shows_
    have kept := shows_.solid
    revert kept
    decide +kernel

end Wrapping

end Repartee.Ui
