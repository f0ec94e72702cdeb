import Repartee.App.SplitContent
import Repartee.Lib.Offsets

/-!
The rows a translated message leaves in its author's own window, beside the lines on the wire: the
rows are split again from what the lines carried, and have to break where the lines did.
-/

namespace Repartee.App

open Repartee.Text
open Repartee.Lib
open Repartee.E2e
open Repartee.Translate (WireOrigin composeDisplay)

/-- The prose of a wire text: all of it, or what stands in the frame of an action. -/
def translatableOutgoingBody (wireText : Str) : Option Str :=
  match (stripPrefix [ctcpDelimiter] wireText).bind (stripSuffix [ctcpDelimiter]) with
  | none => some wireText
  | some ctcp => stripPrefix "ACTION ".toList ctcp

inductive OutgoingEchoPlan where
  | bufferInput
  | gated (bufferId : Str) (evenWithoutEncryption : Bool)
  | none

/-- What a row shows, and the text the network carried for it. -/
structure EchoRow where
  text : Str
  wireOrigin : WireOrigin
  deriving DecidableEq

/-- The text of a row before the suffix with the original. -/
def EchoRow.withoutSuffix (row : EchoRow) : Str :=
  match row.wireOrigin.suffixAt with
  | none => row.text
  | some offset => (Offsets.sliceTo row.text offset).getD row.text

def composes : TranslateOutcome → Bool
  | .translated _ _ => true
  | .untranslated _ _ => false

/-- The row of a chunk; only the last of a message carries the original. -/
def echoRow (out : OutgoingTranslateDeliver) (showOriginal last : Bool) (body : Str) : EchoRow :=
  let display :=
    if composes out.outcome && last then composeDisplay body out.originalText showOriginal
    else (body, none)
  ⟨display.1, ⟨body, display.2⟩⟩

def echoRows (out : OutgoingTranslateDeliver) (showOriginal : Bool) (plainEcho : Str) : List EchoRow :=
  let echoBody :=
    if out.isAction then
      (((stripPrefix [ctcpDelimiter] plainEcho).bind (stripSuffix [ctcpDelimiter])).bind
        (stripPrefix "ACTION ".toList)).getD plainEcho
    else plainEcho
  let budget := outgoingBodyBudget out.isAction
  let chunks := if utf8Length echoBody ≤ budget then [echoBody] else splitIrcMessage echoBody budget
  chunks.mapIdx fun i body => echoRow out showOriginal (i == chunks.length - 1) body

def OutgoingEchoPlan.buffer (out : OutgoingTranslateDeliver) : OutgoingEchoPlan → Str
  | .gated bufferId _ => bufferId
  | _ => out.bufferId

/-- The rows that are written, unless their buffer was closed in the meantime. -/
def writeTranslatedLocalEcho (openBuffers : List Str) (echo : OutgoingEchoPlan)
    (out : OutgoingTranslateDeliver) (showOriginal : Bool) (plainEcho : Str) : Option (List EchoRow) :=
  if openBuffers.contains (echo.buffer out) then some (echoRows out showOriginal plainEcho) else none

section Plan

variable (P : Platform) (unicode : Irc.Unicode)

/-- The lines of a message, and the plain text of what they carry. -/
def planTranslatedEcho (out : OutgoingTranslateDeliver) (wireTexts : List Str) :
    Gate (List Str × Str) := do
  let plans ← Prog.collect (gateOf P unicode out) wireTexts
  return (plans.flatMap Prod.fst,
    plans.flatMap fun plan => (translatableOutgoingBody plan.2).getD plan.2)

end Plan

/-- What a line on the wire says. -/
def wireBody (line : Str) : Str := (translatableOutgoingBody line).getD line

section Bodies

variable {body line : Str}

theorem translatableOutgoingBody_plain (unframed : ctcpDelimiter ∉ line) :
    translatableOutgoingBody line = some line := by
  have front : stripPrefix [ctcpDelimiter] line = none := by
    unfold stripPrefix
    apply if_neg
    intro start
    obtain ⟨rest, rfl⟩ := List.isPrefixOf_iff_prefix.mp start
    exact unframed (by simp)
  rw [translatableOutgoingBody, front]
  rfl

theorem translatableOutgoingBody_frame (body : Str) :
    translatableOutgoingBody (actionFrame body) = some body := by
  have front : stripPrefix [ctcpDelimiter] (actionFrame body) =
      some ("ACTION ".toList ++ body ++ [ctcpDelimiter]) := by
    rw [actionFrame_eq]
    exact stripPrefix_append [ctcpDelimiter] _
  rw [translatableOutgoingBody, front, Option.bind_some, stripSuffix_append]
  exact stripPrefix_append _ body

theorem wireBody_plain (unframed : ctcpDelimiter ∉ line) : wireBody line = line := by
  rw [wireBody, translatableOutgoingBody_plain unframed, Option.getD_some]

theorem wireBody_frame (body : Str) : wireBody (actionFrame body) = body := by
  rw [wireBody, translatableOutgoingBody_frame, Option.getD_some]

end Bodies

section Rows

variable {out : OutgoingTranslateDeliver} {plainEcho : Str}

theorem echoRow_withoutSuffix (showOriginal last : Bool) (body : Str) :
    (echoRow out showOriginal last body).withoutSuffix = body := by
  unfold echoRow composeDisplay
  split
  · split
    · rfl
    · rw [EchoRow.withoutSuffix]
      simp only [List.append_assoc]
      rw [Offsets.sliceTo_append, Option.getD_some]
  · rfl

theorem stripPrefix_unframed {s : Str} (unframed : ctcpDelimiter ∉ s) :
    stripPrefix [ctcpDelimiter] s = none := by
  unfold stripPrefix
  apply if_neg
  intro start
  obtain ⟨rest, rfl⟩ := List.isPrefixOf_iff_prefix.mp start
  exact unframed (by simp)

/-- Without their suffix the rows are the chunks of what the lines carried. -/
theorem echoRows_withoutSuffix (showOriginal : Bool) (unframed : ctcpDelimiter ∉ plainEcho) :
    (echoRows out showOriginal plainEcho).map EchoRow.withoutSuffix =
      splitIrcMessage plainEcho (outgoingBodyBudget out.isAction) := by
  have chunked : (if utf8Length plainEcho ≤ outgoingBodyBudget out.isAction then [plainEcho]
      else splitIrcMessage plainEcho (outgoingBodyBudget out.isAction)) =
      splitIrcMessage plainEcho (outgoingBodyBudget out.isAction) := by
    split
    · rename_i short
      rw [splitIrcMessage_short _ plainEcho short]
    · rfl
  unfold echoRows
  simp only [stripPrefix_unframed unframed, Option.bind_none, Option.getD_none, ite_self, chunked]
  apply List.ext_getElem?
  intro i
  rw [List.getElem?_map, List.getElem?_mapIdx, Option.map_map]
  have same : (EchoRow.withoutSuffix ∘ echoRow out showOriginal
      (i == (splitIrcMessage plainEcho (outgoingBodyBudget out.isAction)).length - 1)) = id := by
    funext body
    exact echoRow_withoutSuffix showOriginal _ body
  rw [same, Option.map_id_fun, id]

end Rows

section Again

variable (maxBytes : Nat)

/-- Words that fit a line together fill one. -/
theorem layout_fits (words : List Str) (current : Str)
    (fits : utf8Length current + utf8Length words.flatten ≤ maxBytes) :
    layout maxBytes current words =
      if current ++ words.flatten ≠ [] then [current ++ words.flatten] else [] := by
  induction words generalizing current with
  | nil => simp [layout]
  | cons word rest ih =>
      rw [List.flatten_cons, utf8Length_append] at fits
      have first : utf8Length current + utf8Length word ≤ maxBytes := by omega
      have later : utf8Length (current ++ word) + utf8Length rest.flatten ≤ maxBytes := by
        rw [utf8Length_append]
        omega
      rw [layout, if_pos first, ih (current ++ word) later, List.flatten_cons, List.append_assoc]

/-- Words that begin without whitespace keep all their characters on the lines. -/
theorem layout_flatten (words : List Str) (current : Str)
    (solid : ∀ word ∈ words, trimStart word = word) :
    (layout maxBytes current words).flatten = current ++ words.flatten := by
  induction words generalizing current with
  | nil =>
      by_cases nothing : current = []
      · simp [layout, nothing]
      · simp [layout, nothing]
  | cons word rest ih =>
      have later := fun current => ih current fun word member =>
        solid word (List.mem_cons_of_mem _ member)
      by_cases fits : utf8Length current + utf8Length word ≤ maxBytes
      · rw [layout, if_pos fits, later, List.flatten_cons, List.append_assoc]
      · by_cases trimmed : utf8Length (trim word) ≤ maxBytes
        · have closed : (if current ≠ [] then [current] else []).flatten = current := by
            by_cases nothing : current = []
            · simp [nothing]
            · simp [nothing]
          rw [layout, if_neg fits, if_pos trimmed, List.flatten_append, closed, later,
            solid word (by simp), List.flatten_cons]
        · rw [layout, if_neg fits, if_neg trimmed, List.flatten_append, later, List.flatten_cons,
            ← List.append_assoc, ← List.append_assoc, charLines_flatten]

theorem splitWords_enough (fuel more : Nat) (text : Str) (enough : text.length ≤ fuel)
    (plenty : text.length ≤ more) : splitWords fuel text = splitWords more text := by
  induction fuel generalizing more text with
  | zero =>
      have nothing : text = [] := List.length_eq_zero_iff.mp (by omega)
      subst nothing
      cases more <;> rfl
  | succ fuel ih =>
      cases text with
      | nil => cases more <;> rfl
      | cons c rest =>
          cases more with
          | zero => simp at plenty
          | succ more =>
              have shorter := nextWord_shorter (List.cons_ne_nil c rest)
              rw [splitWords_cons, splitWords_cons, ih more _ (by omega) (by omega)]

theorem Words.trimStart {words : List Str} (shaped : Words words) :
    ∀ word ∈ words, trimStart word = word := by
  induction words with
  | nil => simp
  | cons first rest ih =>
      obtain ⟨⟨c, cs, rfl, solid⟩, -, later⟩ := shaped
      intro word member
      rcases List.mem_cons.mp member with rfl | member
      · exact trimStart_of_head solid
      · exact ih later word member

/-- A first word is kept from its start, or is whitespace. -/
theorem trimStart_nextWord (text : Str) :
    trimStart (nextWord text).1 = (nextWord text).1 ∨ trimStart (nextWord text).1 = [] := by
  cases text with
  | nil => exact Or.inl rfl
  | cons c rest =>
      by_cases blank : isWhitespace c
      · right
        have taken : ∀ d ∈ rest.takeWhile isWhitespace, isWhitespace d = true := fun d =>
          List.mem_takeWhile_imp
        simpa [nextWord, blank, Text.trimStart] using taken
      · left
        simp [nextWord, blank, Text.trimStart]

/-- What the lines hold is split into the same lines again; and nothing into one empty line. -/
theorem split_flatten (text : Str) :
    splitIrcMessage (splitIrcMessage text maxBytes).flatten maxBytes =
      if splitIrcMessage text maxBytes = [] then [[]] else splitIrcMessage text maxBytes := by
  by_cases short : utf8Length text ≤ maxBytes
  · simp [splitIrcMessage_short maxBytes text short]
  · have long : maxBytes < utf8Length text := by omega
    have whole := splitWords_flatten text.length text le_rfl
    cases text with
    | nil => simp at long
    | cons c rest =>
        have same : (splitIrcMessage (c :: rest) maxBytes).flatten = c :: rest →
            splitIrcMessage (splitIrcMessage (c :: rest) maxBytes).flatten maxBytes =
              if splitIrcMessage (c :: rest) maxBytes = [] then [[]]
              else splitIrcMessage (c :: rest) maxBytes := by
          intro kept
          rw [kept, if_neg]
          intro nothing
          simp [nothing] at kept
        have shorter := nextWord_shorter (List.cons_ne_nil c rest)
        have words : splitWords (c :: rest).length (c :: rest) =
            (nextWord (c :: rest)).1 :: splitWords rest.length (nextWord (c :: rest)).2 :=
          splitWords_cons rest.length c rest
        have enough : (nextWord (c :: rest)).2.length ≤ rest.length := by
          rw [List.length_cons] at shorter
          omega
        have solid := (splitWords_words rest.length (nextWord (c :: rest)).2 enough
          (nextWord_rest_head (c :: rest))).trimStart
        rw [splitIrcMessage_long maxBytes _ long, words] at same ⊢
        rw [words, List.flatten_cons] at whole
        rcases trimStart_nextWord (c :: rest) with kept | blank
        · apply same
          rw [layout_flatten maxBytes _ [] (by simpa [kept] using solid), List.nil_append,
            List.flatten_cons, whole]
        · by_cases fits : utf8Length (nextWord (c :: rest)).1 ≤ maxBytes
          · apply same
            rw [layout, if_pos (by simpa using fits), layout_flatten maxBytes _ _ solid,
              List.nil_append, whole]
          · have trimmed : utf8Length (trim (nextWord (c :: rest)).1) ≤ maxBytes := by
              rw [trim, blank]
              exact Nat.zero_le maxBytes
            have dropped : layout maxBytes [] ((nextWord (c :: rest)).1 ::
                splitWords rest.length (nextWord (c :: rest)).2) =
                layout maxBytes [] (splitWords rest.length (nextWord (c :: rest)).2) := by
              rw [layout, if_neg (by simpa using fits), if_pos trimmed, blank]
              rfl
            have later := splitWords_flatten rest.length (nextWord (c :: rest)).2 enough
            rw [dropped, layout_flatten maxBytes _ [] solid, List.nil_append, later]
            by_cases wide : utf8Length (nextWord (c :: rest)).2 ≤ maxBytes
            · rw [splitIrcMessage_short maxBytes _ wide,
                layout_fits maxBytes _ [] (by simpa [later] using wide), List.nil_append, later]
              by_cases nothing : (nextWord (c :: rest)).2 = []
              · simp [nothing]
              · simp [nothing]
            · have wider : maxBytes < utf8Length (nextWord (c :: rest)).2 := by omega
              have lines := layout_flatten maxBytes
                (splitWords rest.length (nextWord (c :: rest)).2) [] solid
              rw [List.nil_append, later] at lines
              rw [splitIrcMessage_long maxBytes _ wider,
                splitWords_enough _ rest.length _ le_rfl enough, if_neg]
              intro nothing
              rw [nothing] at lines
              rw [← lines] at wider
              simp at wider

theorem split_eq_nil (text : Str) :
    splitIrcMessage text maxBytes = [] ↔ maxBytes < utf8Length text ∧ Blank text := by
  constructor
  · intro nothing
    have spaced := split_spaced maxBytes text
    rw [nothing] at spaced
    refine ⟨?_, spaced⟩
    by_contra short
    rw [splitIrcMessage_short maxBytes text (by omega)] at nothing
    cases nothing
  · rintro ⟨long, blank⟩
    cases text with
    | nil => simp at long
    | cons c rest =>
        have first : isWhitespace c = true := blank c (by simp)
        have all : (c :: rest).takeWhile isWhitespace = c :: rest :=
          List.takeWhile_eq_self_iff.mpr blank
        have none_ : (c :: rest).dropWhile isWhitespace = [] := List.dropWhile_eq_nil_iff.mpr blank
        have word : nextWord (c :: rest) = (c :: rest, []) := by
          have solid : (c :: rest).takeWhile (fun c => !isWhitespace c) = [] := by simp [first]
          have after : (c :: rest).dropWhile (fun c => !isWhitespace c) = c :: rest := by
            simp [first]
          simp only [nextWord, solid, after, all, none_, List.nil_append]
        have words : splitWords (c :: rest).length (c :: rest) = [c :: rest] := by
          rw [List.length_cons, splitWords_cons, word]
          cases rest.length <;> rfl
        have start : trimStart (c :: rest) = [] := none_
        have trimmed : utf8Length (trim (c :: rest)) ≤ maxBytes := by
          rw [trim, start]
          exact Nat.zero_le maxBytes
        rw [splitIrcMessage_long maxBytes _ long, words, layout, if_neg (by simpa using long),
          if_pos trimmed, start]
        rfl

/-- A text that is too long for a line, and begins and ends without whitespace, fills several. -/
theorem split_several (room : 4 ≤ maxBytes) {text : Str} (long : maxBytes < utf8Length text)
    (start : ∀ c ∈ text.head?, isWhitespace c = false)
    (stop : ∀ c ∈ text.getLast?, isWhitespace c = false) :
    2 ≤ (splitIrcMessage text maxBytes).length := by
  have some_ : text ≠ [] := by
    intro nothing
    simp [nothing] at long
  have spaced := split_spaced maxBytes text
  cases lines : splitIrcMessage text maxBytes with
  | nil =>
      have blank := ((split_eq_nil maxBytes text).mp lines).2
      obtain ⟨c, rest, rfl⟩ := List.exists_cons_of_ne_nil some_
      have solid := start c rfl
      rw [blank c (by simp)] at solid
      cases solid
  | cons line others =>
      cases others with
      | cons second others => simp
      | nil =>
          rw [lines] at spaced
          obtain ⟨front, after, shape, fronts, afters⟩ := spaced
          have no_front : front = [] := by
            cases front with
            | nil => rfl
            | cons c front =>
                have solid := start c (by rw [shape]; rfl)
                rw [fronts c (by simp)] at solid
                cases solid
          have no_after : after = [] := by
            by_contra more
            have last := List.getLast?_eq_some_getLast more
            have solid := stop (after.getLast more) (by
              rw [shape, List.getLast?_append, List.getLast?_append, last]
              rfl)
            rw [afters _ (List.getLast_mem more)] at solid
            cases solid
          rw [no_front, no_after, List.nil_append, List.append_nil] at shape
          rcases split_within maxBytes room text line (by rw [lines]; simp) with short | word
          · rw [shape] at long
            omega
          · obtain ⟨solid, blank, line_shape, -, blanks, small⟩ := word
            have no_blank : blank = [] := by
              by_contra more
              have last := List.getLast?_eq_some_getLast more
              have solid_ := stop (blank.getLast more) (by
                rw [shape, line_shape, List.getLast?_append, last]
                rfl)
              rw [blanks _ (List.getLast_mem more)] at solid_
              cases solid_
            rw [shape, line_shape, no_blank, List.append_nil] at long
            omega

end Again

section Lines

/-- An action that is too long for one line has something to say, and no word of it is too long only
by the whitespace behind it. -/
def EchoesEvenly (isAction : Bool) (body : Str) : Prop :=
  isAction = true → outgoingBodyBudget true < utf8Length body →
    ¬Blank body ∧ ∀ word ∈ splitWords body.length body, ¬Overlong (outgoingBodyBudget true) word

theorem echoesEvenly_iff (body : Str) :
    EchoesEvenly true body ↔ splitIrcMessage body (outgoingBodyBudget true) ≠ [] ∧
      ∀ piece ∈ splitIrcMessage body (outgoingBodyBudget true),
        utf8Length piece ≤ outgoingBodyBudget true := by
  rw [split_fits body (outgoingBodyBudget true) (by decide), Ne, split_eq_nil]
  unfold EchoesEvenly
  tauto

theorem wireBody_lines {lines : List Str} (unframed : ∀ line ∈ lines, ctcpDelimiter ∉ line) :
    lines.map wireBody = lines := by
  calc lines.map wireBody
      = lines.map id := List.map_congr_left fun line member => wireBody_plain (unframed line member)
    _ = lines := List.map_id lines

/-- What the gate makes of a frame: one line that holds it, or several. -/
theorem frame_lines (piece : Str) :
    (utf8Length piece ≤ outgoingBodyBudget true →
        splitIrcMessage (actionFrame piece) messageMaxBytes = [actionFrame piece]) ∧
      (outgoingBodyBudget true < utf8Length piece →
        2 ≤ (splitIrcMessage (actionFrame piece) messageMaxBytes).length) := by
  have size := utf8Length_actionFrame piece
  have budget := actionBudget_eq
  have bytes : messageMaxBytes = 350 := rfl
  have solid : isWhitespace ctcpDelimiter = false := by decide
  constructor
  · intro short
    exact splitIrcMessage_short messageMaxBytes _ (by omega)
  · intro long
    apply split_several messageMaxBytes (by decide) (by omega)
    · intro c first
      rw [actionFrame_eq, List.head?_cons] at first
      rw [← Option.some.inj first]
      exact solid
    · intro c last
      rw [actionFrame, List.getLast?_concat] at last
      rw [← Option.some.inj last]
      exact solid

theorem length_flatMap_several {α β : Type} (f : α → List β) (items : List α)
    (each : ∀ x ∈ items, 1 ≤ (f x).length) {x : α} (member : x ∈ items) (more : 2 ≤ (f x).length) :
    items.length < (items.flatMap f).length := by
  induction items with
  | nil => simp at member
  | cons first rest ih =>
      have later := fun y inside => each y (List.mem_cons_of_mem first inside)
      have least : rest.length ≤ (rest.flatMap f).length := by
        clear ih member each
        induction rest with
        | nil => simp
        | cons second rest ih =>
            have one := later second (by simp)
            have others := ih fun y inside => later y (List.mem_cons_of_mem second inside)
            rw [List.flatMap_cons, List.length_append, List.length_cons]
            omega
      rw [List.flatMap_cons, List.length_append, List.length_cons]
      rcases List.mem_cons.mp member with rfl | member
      · omega
      · have one := each first (by simp)
        have others := ih later member
        omega

/-- The plain text of what the lines carry is split into what they carry, one for one, if and only
if the body echoes evenly. -/
theorem split_echo_iff (isAction : Bool) (body : Str) (unframed : ctcpDelimiter ∉ body) :
    splitIrcMessage ((wrapOutgoingBody body isAction).flatMap wireBody)
        (outgoingBodyBudget isAction) =
      (clearLines (wrapOutgoingBody body isAction)).map wireBody ↔ EchoesEvenly isAction body := by
  cases isAction with
  | false =>
      have lines : clearLines (wrapOutgoingBody body false) = splitIrcMessage body messageMaxBytes := by
        simp [clearLines, wrapOutgoingBody, plainPassthrough]
      have plain : ∀ line ∈ splitIrcMessage body messageMaxBytes, ctcpDelimiter ∉ line :=
        fun line member inside => unframed
          ((splitIrcMessage_mem messageMaxBytes body ctcpDelimiter).1
            (List.mem_flatten.mpr ⟨line, member, inside⟩))
      have echo : (wrapOutgoingBody body false).flatMap wireBody = body := by
        simp [wrapOutgoingBody, wireBody_plain unframed]
      rw [lines, wireBody_lines plain, echo]
      simp [EchoesEvenly, outgoingBodyBudget]
  | true =>
      rw [echoesEvenly_iff, wrap_action]
      generalize pieces_eq : splitIrcMessage body (outgoingBodyBudget true) = pieces
      have echo : (pieces.map actionFrame).flatMap wireBody = pieces.flatten := by
        rw [List.flatMap_map, List.flatMap_def]
        congr 1
        calc pieces.map (fun piece => wireBody (actionFrame piece))
            = pieces.map id := List.map_congr_left fun piece _ => wireBody_frame piece
          _ = pieces := List.map_id pieces
      have lines : clearLines (pieces.map actionFrame) =
          pieces.flatMap fun piece => splitIrcMessage (actionFrame piece) messageMaxBytes := by
        rw [clearLines, List.flatMap_map]
        rfl
      rw [echo, ← pieces_eq, split_flatten, pieces_eq, lines]
      by_cases nothing : pieces = []
      · simp [nothing]
      · rw [if_neg nothing]
        constructor
        · intro same
          refine ⟨nothing, fun piece member => ?_⟩
          by_contra long
          have several := (frame_lines piece).2 (by omega)
          have each : ∀ piece ∈ pieces,
              1 ≤ (splitIrcMessage (actionFrame piece) messageMaxBytes).length := by
            intro piece _
            rcases Nat.lt_or_ge (outgoingBodyBudget true) (utf8Length piece) with long | short
            · have several := (frame_lines piece).2 long
              omega
            · rw [(frame_lines piece).1 short]
              exact le_rfl
          have longer := length_flatMap_several _ pieces each member several
          have lengths := congrArg List.length same
          rw [List.length_map] at lengths
          omega
        · rintro ⟨-, short⟩
          have single : (pieces.flatMap fun piece =>
              splitIrcMessage (actionFrame piece) messageMaxBytes) = pieces.map actionFrame := by
            rw [List.flatMap_def, List.map_congr_left fun piece member =>
              (frame_lines piece).1 (short piece member), ← List.flatMap_def, List.map_eq_flatMap]
          rw [single, List.map_map]
          calc pieces = pieces.map id := (List.map_id pieces).symm
            _ = pieces.map (wireBody ∘ actionFrame) :=
                List.map_congr_left fun piece _ => (wireBody_frame piece).symm

end Lines

section Message

variable (P : Platform) (unicode : Irc.Unicode)

theorem planTranslatedEcho_inTheClear (out : OutgoingTranslateDeliver) (texts : List Str)
    (s : AppState) (clear : InTheClear P unicode out s texts) :
    (planTranslatedEcho P unicode out texts s).1 = .ok (clearLines texts, texts.flatMap wireBody) := by
  have collected : Prog.collect (gateOf P unicode out) texts s =
      (.ok (texts.map plainPassthrough), (Prog.collect (gateOf P unicode out) texts s).2) :=
    Prod.ext (collect_inTheClear P unicode out texts s clear) rfl
  rw [planTranslatedEcho, Prog.bind_of_ok collected]
  show Except.ok _ = _
  rw [clearLines, List.flatMap_map, List.flatMap_map]
  rfl

theorem planTranslatedWires_eq (out : OutgoingTranslateDeliver) (texts : List Str) (s : AppState) :
    (planTranslatedWires P unicode out texts s).1 =
      (planTranslatedEcho P unicode out texts s).1.map Prod.fst := by
  cases ran : Prog.collect (gateOf P unicode out) texts s with
  | mk result after =>
      cases result with
      | error refusal =>
          rw [planTranslatedWires, planTranslatedEcho, Prog.bind_of_error ran,
            Prog.bind_of_error ran]
          rfl
      | ok plans =>
          rw [planTranslatedWires, planTranslatedEcho, Prog.bind_of_ok ran, Prog.bind_of_ok ran]
          rfl

theorem written_rows {openBuffers : List Str} {echo : OutgoingEchoPlan}
    {out : OutgoingTranslateDeliver} {showOriginal : Bool} {plainEcho : Str} {rows : List EchoRow}
    (written : writeTranslatedLocalEcho openBuffers echo out showOriginal plainEcho = some rows) :
    rows = echoRows out showOriginal plainEcho := by
  unfold writeTranslatedLocalEcho at written
  split at written
  · exact (Option.some.inj written).symm
  · cases written

theorem unframed_echo (isAction : Bool) (body : Str) (unframed : ctcpDelimiter ∉ body) :
    ctcpDelimiter ∉ (wrapOutgoingBody body isAction).flatMap wireBody := by
  intro member
  obtain ⟨text, wrapped, inside⟩ := List.mem_flatMap.mp member
  cases isAction with
  | false =>
      have whole : text = body := by simpa [wrapOutgoingBody] using wrapped
      rw [whole, wireBody_plain unframed] at inside
      exact unframed inside
  | true =>
      rw [wrap_action] at wrapped
      obtain ⟨piece, split_, rfl⟩ := List.mem_map.mp wrapped
      rw [wireBody_frame] at inside
      exact unframed ((splitIrcMessage_mem _ body ctcpDelimiter).1
        (List.mem_flatten.mpr ⟨piece, split_, inside⟩))

/-- The rows of a message that is not encrypted are, without their suffix, one for one what its lines
say if and only if the message is plain, or an action that fits a line, or one that echoes evenly. -/
theorem echo_rows_match (s : AppState) (out : OutgoingTranslateDeliver) (body : Str)
    (published : translatedWireBody out = .ok body)
    (clear : InTheClear P unicode out s (wrapOutgoingBody body out.isAction))
    (openBuffers : List Str) (echo : OutgoingEchoPlan) (showOriginal : Bool) :
    ∃ lines plainEcho,
      (planTranslatedEcho P unicode out (wrapOutgoingBody body out.isAction) s).1 =
          .ok (lines, plainEcho) ∧
        (planTranslatedWires P unicode out (wrapOutgoingBody body out.isAction) s).1 = .ok lines ∧
        ∀ rows, writeTranslatedLocalEcho openBuffers echo out showOriginal plainEcho = some rows →
          (rows.map EchoRow.withoutSuffix = lines.map wireBody ↔ EchoesEvenly out.isAction body) := by
  have unframed := (translatedWireBody_plain out body published).2
  have planned := planTranslatedEcho_inTheClear P unicode out _ s clear
  refine ⟨_, _, planned, ?_, ?_⟩
  · rw [planTranslatedWires_eq, planned]
    rfl
  · intro rows written
    rw [written_rows written, echoRows_withoutSuffix showOriginal (unframed_echo _ body unframed)]
    exact split_echo_iff out.isAction body unframed

end Message

/-- An action in another language. -/
def translatedAction (body : Str) : OutgoingTranslateDeliver :=
  { toChannel true with outcome := .translated 7 body }

theorem echo_rows_match_greeting : ∃ lines plainEcho,
    (planTranslatedEcho .symbolic .ascii (translatedAction "hola".toList)
        (wrapOutgoingBody "hola".toList true) plainClient.state).1 = .ok (lines, plainEcho) ∧
      (planTranslatedWires .symbolic .ascii (translatedAction "hola".toList)
        (wrapOutgoingBody "hola".toList true) plainClient.state).1 = .ok lines ∧
      ∀ rows, writeTranslatedLocalEcho ["net/#c".toList] .bufferInput
        (translatedAction "hola".toList) true plainEcho = some rows →
        (rows.map EchoRow.withoutSuffix = lines.map wireBody ↔ EchoesEvenly true "hola".toList) :=
  echo_rows_match .symbolic .ascii plainClient.state (translatedAction "hola".toList) "hola".toList
    (by decide +kernel) ⟨rfl, trivial⟩ ["net/#c".toList] .bufferInput true

section Uneven

variable {body : Str}

/-- Without encryption the gate lets all pass, and a frame is no command to a bot. -/
theorem gateOf_frame (piece : Str) :
    gateOf .symbolic .ascii (translatedAction body) (actionFrame piece) plainClient.state =
      (.ok (plainPassthrough (actionFrame piece)), plainClient.state) := by
  have confirmed : confirmBouncer .ascii (translatedAction body).bufferId
      (translatedAction body).bufferName (translatedAction body).bufferType plainClient.state =
      (.ok (), plainClient.state) := rfl
  unfold gateOf e2eEncryptOrPassthrough
  rw [Prog.bind_of_ok confirmed]
  rfl

theorem inTheClear_frames (pieces : List Str) :
    InTheClear .symbolic .ascii (translatedAction body) plainClient.state
      (pieces.map actionFrame) := by
  induction pieces with
  | nil => trivial
  | cons piece rest ih =>
      rw [List.map_cons, InTheClear, gateOf_frame]
      exact ⟨rfl, ih⟩

theorem uneven_rows (unframed : ctcpDelimiter ∉ body) (uneven : ¬EchoesEvenly true body) :
    ∃ lines plainEcho rows,
      (planTranslatedWires .symbolic .ascii (translatedAction body) (wrapOutgoingBody body true)
          plainClient.state).1 = .ok lines ∧
        (planTranslatedEcho .symbolic .ascii (translatedAction body) (wrapOutgoingBody body true)
          plainClient.state).1 = .ok (lines, plainEcho) ∧
        writeTranslatedLocalEcho ["net/#c".toList] .bufferInput (translatedAction body) true
          plainEcho = some rows ∧
        rows.map EchoRow.withoutSuffix ≠ lines.map wireBody := by
  have clear : InTheClear .symbolic .ascii (translatedAction body) plainClient.state
      (wrapOutgoingBody body true) := by
    rw [wrap_action]
    exact inTheClear_frames _
  have planned := planTranslatedEcho_inTheClear .symbolic .ascii _ _ _ clear
  have opened : ["net/#c".toList].contains "net/#c".toList = true := by decide +kernel
  refine ⟨_, _, _, ?_, planned, if_pos opened, ?_⟩
  · rw [planTranslatedWires_eq, planned]
    rfl
  · rw [echoRows_withoutSuffix true (unframed_echo true body unframed)]
    exact fun same => uneven ((split_echo_iff true body unframed).mp same)

end Uneven

/-- The whitespace behind a word makes its line too long for a frame, which is split; its row is
not. -/
def wideGap : Str := "aaa".toList ++ List.replicate 400 ' ' ++ "b".toList

theorem wide_gap_uneven : ∃ lines plainEcho rows,
    (planTranslatedWires .symbolic .ascii (translatedAction wideGap) (wrapOutgoingBody wideGap true)
        plainClient.state).1 = .ok lines ∧
      (planTranslatedEcho .symbolic .ascii (translatedAction wideGap) (wrapOutgoingBody wideGap true)
        plainClient.state).1 = .ok (lines, plainEcho) ∧
      writeTranslatedLocalEcho ["net/#c".toList] .bufferInput (translatedAction wideGap) true
        plainEcho = some rows ∧
      rows.map EchoRow.withoutSuffix ≠ lines.map wireBody := by
  apply uneven_rows
  · decide +kernel
  · intro even
    have words := (even rfl (by decide +kernel)).2
    exact words ("aaa".toList ++ List.replicate 400 ' ') (by decide +kernel)
      ⟨by decide +kernel, by decide +kernel⟩

end Repartee.App
