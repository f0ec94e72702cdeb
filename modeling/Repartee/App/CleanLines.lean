import Repartee.App.TranslatedSend

/-!
What of a translated message reaches the wire in the clear, and when its lines are clean: one line
of prose or one action each, within the budget, and nothing a client would take for a protocol.
-/

namespace Repartee.App

open Repartee.Text
open Repartee.Lib
open Repartee.E2e

def nul : Char := Char.ofNat 0

/-- A line that peers read as what it is meant to be. -/
structure Clean (line : Str) : Prop where
  unbroken : ∀ c ∈ line, isLineBreak c = false
  noNul : nul ∉ line
  fits : utf8Length line ≤ messageMaxBytes
  framed : ctcpDelimiter ∉ line ∨ ∃ text, line = actionFrame text ∧ ctcpDelimiter ∉ text
  prose : readsAsRpe2eProtocol line = false

/-- The body has no NUL and no word that is too long for a line only by the whitespace behind it, and
no line of it begins where the text goes on like the protocol. -/
structure SplitsCleanly (isAction : Bool) (body : Str) : Prop where
  noNul : nul ∉ body
  even : outgoingBodyBudget isAction < utf8Length body →
    ∀ word ∈ splitWords body.length body, ¬Overlong (outgoingBodyBudget isAction) word
  prose : isAction = false →
    ∀ start ∈ lineStarts messageMaxBytes body, readsAsRpe2eProtocol start = false

/-- What the gate lets pass unencrypted. -/
def clearLines (texts : List Str) : List Str := texts.flatMap fun text => (plainPassthrough text).1

theorem reads_eq_false (text : Str) :
    readsAsRpe2eProtocol text = false ↔ ¬ctcpTag <+: text ∧ ¬wirePrefix <+: text := by
  simp [readsAsRpe2eProtocol, ← Bool.not_eq_true, List.isPrefixOf_iff_prefix]

theorem ctcpTag_solid : ∀ c ∈ ctcpTag, isWhitespace c = false := by
  have all : (ctcpTag.all fun c => !isWhitespace c) = true := by decide +kernel
  simpa using all

theorem wirePrefix_solid : ∀ c ∈ wirePrefix, isWhitespace c = false := by
  have all : (wirePrefix.all fun c => !isWhitespace c) = true := by decide +kernel
  simpa using all

/-- A line reads as the protocol exactly where the text does that it begins. -/
theorem split_prose (text : Str) :
    (∀ line ∈ splitIrcMessage text messageMaxBytes, readsAsRpe2eProtocol line = false) ↔
      ∀ start ∈ lineStarts messageMaxBytes text, readsAsRpe2eProtocol start = false := by
  have handshake := splitIrcMessage_tagged messageMaxBytes ctcpTag (by decide) ctcpTag_solid
    (by decide) text
  have sealed_ := splitIrcMessage_tagged messageMaxBytes wirePrefix (by decide) wirePrefix_solid
    (by decide) text
  have none_ := and_congr (not_congr handshake) (not_congr sealed_)
  simp only [not_exists, not_and] at none_
  simpa only [reads_eq_false, forall_and] using none_

theorem split_noNul (text : Str) (maxBytes : Nat) :
    (∀ line ∈ splitIrcMessage text maxBytes, nul ∉ line) ↔ nul ∉ text := by
  have held := splitIrcMessage_mem maxBytes text nul
  rw [List.mem_flatten] at held
  constructor
  · intro clean member
    rcases held.2 (by decide) member with ⟨line, here, inside⟩
    exact clean line here inside
  · intro clean line here inside
    exact clean (held.1 ⟨line, here, inside⟩)

/-- What holds of every character of the text holds of those of its lines. -/
theorem split_all (holds : Char → Prop) (text : Str) (maxBytes : Nat) (all : ∀ c ∈ text, holds c)
    (line : Str) (member : line ∈ splitIrcMessage text maxBytes) : ∀ c ∈ line, holds c := by
  intro c inside
  apply all
  exact (splitIrcMessage_mem maxBytes text c).1 (List.mem_flatten.mpr ⟨line, member, inside⟩)

theorem split_fits (text : Str) (maxBytes : Nat) (room : 4 ≤ maxBytes) :
    (∀ line ∈ splitIrcMessage text maxBytes, utf8Length line ≤ maxBytes) ↔
      (maxBytes < utf8Length text → ∀ word ∈ splitWords text.length text, ¬Overlong maxBytes word) := by
  have wide := not_congr (splitIrcMessage_overlong maxBytes room text)
  simpa only [not_exists, not_and, Nat.not_lt] using wide

/-- The lines of a plain message. -/
theorem plain_clean (body : Str) (unbroken : ∀ c ∈ body, isLineBreak c = false)
    (unframed : ctcpDelimiter ∉ body) :
    (∀ line ∈ clearLines (wrapOutgoingBody body false), Clean line) ↔ SplitsCleanly false body := by
  have lines : clearLines (wrapOutgoingBody body false) = splitIrcMessage body messageMaxBytes := by
    simp [clearLines, wrapOutgoingBody, plainPassthrough]
  rw [lines]
  constructor
  · intro clean
    constructor
    · exact (split_noNul body messageMaxBytes).mp fun line member => (clean line member).noNul
    · exact (split_fits body messageMaxBytes (by decide)).mp fun line member => (clean line member).fits
    · intro _
      exact (split_prose body).mp fun line member => (clean line member).prose
  · intro clean line member
    constructor
    · exact split_all _ body messageMaxBytes unbroken line member
    · exact (split_noNul body messageMaxBytes).mpr clean.noNul line member
    · exact (split_fits body messageMaxBytes (by decide)).mpr clean.even line member
    · left
      intro inside
      exact split_all (fun c => c ≠ ctcpDelimiter) body messageMaxBytes
        (fun c here same => unframed (same ▸ here)) line member _ inside rfl
    · exact (split_prose body).mpr (clean.prose rfl) line member

/-! ### Actions -/

theorem actionBudget_eq : outgoingBodyBudget true = 341 := by decide

theorem wrap_action (body : Str) :
    wrapOutgoingBody body true = (splitIrcMessage body (outgoingBodyBudget true)).map actionFrame := by
  by_cases short : utf8Length body ≤ outgoingBodyBudget true
  · simp [wrapOutgoingBody, short, splitIrcMessage_short]
  · simp [wrapOutgoingBody, short]

theorem actionFrame_eq (body : Str) :
    actionFrame body = ctcpDelimiter :: ("ACTION ".toList ++ body ++ [ctcpDelimiter]) := by
  simp [actionFrame, actionPrefix]

theorem mem_actionFrame (body : Str) (c : Char) :
    c ∈ actionFrame body ↔ c = ctcpDelimiter ∨ c ∈ "ACTION ".toList ∨ c ∈ body := by
  rw [actionFrame_eq]
  simp only [List.mem_cons, List.mem_append, List.not_mem_nil, or_false]
  tauto

/-- A frame within the budget passes as it is, and is a clean line. -/
theorem actionFrame_clean (body : Str) (short : utf8Length body ≤ outgoingBodyBudget true)
    (unbroken : ∀ c ∈ body, isLineBreak c = false) (unframed : ctcpDelimiter ∉ body)
    (noNul : nul ∉ body) : ∀ line ∈ (plainPassthrough (actionFrame body)).1, Clean line := by
  rw [actionBudget_eq] at short
  have fits : utf8Length (actionFrame body) ≤ messageMaxBytes := by
    rw [utf8Length_actionFrame, messageMaxBytes]
    omega
  rw [plainPassthrough, splitIrcMessage_short messageMaxBytes _ fits]
  intro line member
  rw [List.mem_singleton.mp member]
  constructor
  · intro c inside
    rcases (mem_actionFrame body c).mp inside with same | letter | inner
    · rw [same]
      decide
    · have letters : ("ACTION ".toList.all fun c => !isLineBreak c) = true := by decide
      simpa using List.all_eq_true.mp letters c letter
    · exact unbroken c inner
  · rw [mem_actionFrame]
    rintro (same | letter | inner)
    · exact absurd same (by decide)
    · exact absurd letter (by decide)
    · exact noNul inner
  · exact fits
  · exact Or.inr ⟨body, rfl, unframed⟩
  · rw [actionFrame_eq]
    rfl

/-- A line with a delimiter in it that ends in whitespace is neither prose nor a frame. -/
theorem unclean_of_blank (front : Str) (c : Char) (blank : isWhitespace c = true)
    (inside : ctcpDelimiter ∈ front ++ [c]) : ¬Clean (front ++ [c]) := by
  intro clean
  rcases clean.framed with unframed | ⟨text, frame, _⟩
  · exact unframed inside
  · have last := congrArg List.getLast? frame
    rw [actionFrame, List.getLast?_concat, List.getLast?_concat, Option.some.injEq] at last
    rw [last] at blank
    exact absurd blank (by decide)

theorem nextWord_of (solid blank rest : Str) (plain : ∀ c ∈ solid, isWhitespace c = false)
    (blanks : ∀ c ∈ blank, isWhitespace c = true) (some_ : blank ≠ [])
    (stops : ∀ c, rest.head? = some c → isWhitespace c = false) :
    nextWord (solid ++ blank ++ rest) = (solid ++ blank, rest) := by
  have taken : (solid ++ (blank ++ rest)).takeWhile (fun c => !isWhitespace c) = solid := by
    rw [List.takeWhile_append_of_pos (by simpa using plain)]
    cases blank with
    | nil => exact absurd rfl some_
    | cons b bs => simp [blanks b List.mem_cons_self]
  have left : (solid ++ (blank ++ rest)).dropWhile (fun c => !isWhitespace c) = blank ++ rest := by
    rw [List.dropWhile_append_of_pos (by simpa using plain)]
    cases blank with
    | nil => exact absurd rfl some_
    | cons b bs => simp [blanks b List.mem_cons_self]
  have space : (blank ++ rest).takeWhile isWhitespace = blank := by
    rw [List.takeWhile_append_of_pos blanks]
    cases rest with
    | nil => simp
    | cons c cs => simp [stops c rfl]
  have after : (blank ++ rest).dropWhile isWhitespace = rest := by
    rw [List.dropWhile_append_of_pos blanks]
    cases rest with
    | nil => rfl
    | cons c cs => simp [stops c rfl]
  simp only [nextWord, List.append_assoc, taken, left, space, after]

/-- A word is characters and then whitespace. -/
theorem splitWords_shape (fuel : Nat) (text : Str) : ∀ word ∈ splitWords fuel text,
    ∃ solid blank, word = solid ++ blank ∧ (∀ c ∈ solid, isWhitespace c = false) ∧
      ∀ c ∈ blank, isWhitespace c = true := by
  induction fuel generalizing text with
  | zero =>
      cases text with
      | nil => simp [splitWords]
      | cons c rest => simp [splitWords]
  | succ fuel ih =>
      cases text with
      | nil => simp [splitWords]
      | cons c rest =>
          rw [splitWords_cons]
          intro word member
          rcases List.mem_cons.mp member with same | later
          · refine ⟨_, _, same, ?_, ?_⟩
            · intro d inside
              simpa using List.mem_takeWhile_imp inside
            · intro d inside
              exact List.mem_takeWhile_imp inside
          · exact ih _ word later

theorem trimStart_solid (s : Str) (solid : ∀ c ∈ s, isWhitespace c = false) : trimStart s = s := by
  cases s with
  | nil => rfl
  | cons c rest => exact trimStart_of_head (solid c List.mem_cons_self)

theorem trim_solid (s : Str) (solid : ∀ c ∈ s, isWhitespace c = false) : trim s = s := by
  rw [trim, trimStart_solid s solid, trimStart_solid s.reverse (by simpa using solid),
    List.reverse_reverse]

/-- A word that is too long only by its whitespace has both characters and whitespace. -/
theorem overlong_shape (maxBytes : Nat) (solid blank : Str)
    (plain : ∀ c ∈ solid, isWhitespace c = false) (blanks : ∀ c ∈ blank, isWhitespace c = true)
    (wide : Overlong maxBytes (solid ++ blank)) :
    trimStart (solid ++ blank) = solid ++ blank ∧ ∃ front c, blank = front ++ [c] := by
  have some_ : blank ≠ [] := by
    intro nothing
    have both := wide
    rw [nothing, List.append_nil, Overlong, trim_solid solid plain, trimStart_solid solid plain] at both
    omega
  constructor
  · cases solid with
    | nil =>
        have nothing : trimStart blank = [] := List.dropWhile_eq_nil_iff.mpr blanks
        have long := wide.2
        simp [nothing] at long
    | cons c rest => exact trimStart_of_head (plain c List.mem_cons_self)
  · exact ⟨blank.dropLast, blank.getLast some_, (List.dropLast_append_getLast some_).symm⟩

theorem splitWords_step (fuel : Nat) (text word rest : Str) (some_ : text ≠ [])
    (next : nextWord text = (word, rest)) :
    splitWords (fuel + 1) text = word :: splitWords fuel rest := by
  rcases List.exists_cons_of_ne_nil some_ with ⟨c, cs, shape⟩
  rw [shape] at next ⊢
  rw [splitWords_cons, next]

theorem frame_words (solid front : Str) (c : Char) (plain : ∀ c ∈ solid, isWhitespace c = false)
    (blanks : ∀ d ∈ front ++ [c], isWhitespace d = true) (some_ : solid ≠ []) :
    splitWords (actionFrame (solid ++ (front ++ [c]))).length (actionFrame (solid ++ (front ++ [c]))) =
      [actionPrefix, solid ++ (front ++ [c]), [ctcpDelimiter]] := by
  have opens : ∀ c ∈ ctcpDelimiter :: "ACTION".toList, isWhitespace c = false := by
    have all : ((ctcpDelimiter :: "ACTION".toList).all fun c => !isWhitespace c) = true := by
      decide +kernel
    simpa using all
  have first := nextWord_of (ctcpDelimiter :: "ACTION".toList) [' ']
    (solid ++ (front ++ [c]) ++ [ctcpDelimiter]) opens (by simp [isWhitespace]) (by simp)
    (by
      intro d head
      rcases List.exists_cons_of_ne_nil some_ with ⟨e, rest, shape⟩
      rw [shape] at head plain
      simp only [List.cons_append, List.head?_cons, Option.some.injEq] at head
      rw [← head]
      exact plain e List.mem_cons_self)
  have second := nextWord_of solid (front ++ [c]) [ctcpDelimiter] plain blanks (by simp)
    (by
      intro d head
      simp only [List.head?_cons, Option.some.injEq] at head
      rw [← head]
      decide)
  have third : nextWord [ctcpDelimiter] = ([ctcpDelimiter], []) := by decide
  have frame : actionFrame (solid ++ (front ++ [c])) =
      ctcpDelimiter :: "ACTION".toList ++ [' '] ++ (solid ++ (front ++ [c]) ++ [ctcpDelimiter]) := by
    simp [actionFrame, actionPrefix]
  have enough : 3 ≤ (actionFrame (solid ++ (front ++ [c]))).length := by
    rw [frame]
    simp
  rcases Nat.exists_eq_add_of_le' enough with ⟨fuel, length⟩
  rw [length, frame, splitWords_step (fuel + 2) _ _ _ (by simp) first,
    splitWords_step (fuel + 1) _ _ _ (by simp) second, splitWords_step fuel _ _ _ (by simp) third]
  cases fuel with
  | zero => rfl
  | succ fuel => rfl

theorem overlong_frame_unclean (solid front : Str) (c : Char)
    (plain : ∀ c ∈ solid, isWhitespace c = false)
    (blanks : ∀ d ∈ front ++ [c], isWhitespace d = true) (some_ : solid ≠ [])
    (wide : Overlong (outgoingBodyBudget true) (solid ++ (front ++ [c]))) :
    ∃ line ∈ (plainPassthrough (actionFrame (solid ++ (front ++ [c])))).1, ¬Clean line := by
  have whole := (overlong_shape _ solid (front ++ [c]) plain blanks wide).1
  have long := wide.2
  have trimmed := wide.1
  rw [whole, actionBudget_eq] at long
  rw [actionBudget_eq] at trimmed
  have wider : messageMaxBytes < utf8Length (actionFrame (solid ++ (front ++ [c]))) := by
    rw [utf8Length_actionFrame, messageMaxBytes]
    omega
  have start : utf8Length [] + utf8Length actionPrefix ≤ messageMaxBytes := by
    rw [actionPrefix_length]
    decide
  have blank : isWhitespace c = true := blanks c (by simp)
  rw [plainPassthrough, splitIrcMessage_long messageMaxBytes _ wider,
    frame_words solid front c plain blanks some_]
  by_cases fits : utf8Length actionPrefix + utf8Length (solid ++ (front ++ [c])) ≤ messageMaxBytes
  · refine ⟨actionPrefix ++ solid ++ front ++ [c], ?_, unclean_of_blank _ c blank ?_⟩
    · have full : ¬utf8Length (actionPrefix ++ (solid ++ (front ++ [c]))) + utf8Length [ctcpDelimiter] ≤
          messageMaxBytes := by
        have delimiter : utf8Length [ctcpDelimiter] = 1 := by decide
        rw [utf8Length_append, actionPrefix_length, delimiter, messageMaxBytes]
        omega
      have closing : utf8Length (trim [ctcpDelimiter]) ≤ messageMaxBytes := by decide
      simp only [layout, if_pos start, List.nil_append, if_pos fits, if_neg full, if_pos closing]
      simp [actionPrefix]
    · simp [actionPrefix]
  · refine ⟨actionPrefix, ?_, ?_⟩
    · have short : utf8Length (trim (solid ++ (front ++ [c]))) ≤ messageMaxBytes := by
        rw [messageMaxBytes]
        omega
      simp only [layout, if_pos start, List.nil_append, if_neg fits, if_pos short]
      simp [actionPrefix]
    · exact unclean_of_blank (ctcpDelimiter :: "ACTION".toList) ' ' (by decide) (by simp)

/-- The lines of an action. -/
theorem action_clean (body : Str) (unbroken : ∀ c ∈ body, isLineBreak c = false)
    (unframed : ctcpDelimiter ∉ body) :
    (∀ line ∈ clearLines (wrapOutgoingBody body true), Clean line) ↔ SplitsCleanly true body := by
  have pieces : (∀ line ∈ clearLines (wrapOutgoingBody body true), Clean line) ↔
      ∀ piece ∈ splitIrcMessage body (outgoingBodyBudget true),
        ∀ line ∈ (plainPassthrough (actionFrame piece)).1, Clean line := by
    rw [wrap_action]
    simp only [clearLines, List.mem_flatMap, List.mem_map]
    constructor
    · intro clean piece member line inside
      exact clean line ⟨_, ⟨piece, member, rfl⟩, inside⟩
    · rintro clean line ⟨_, ⟨piece, member, same⟩, inside⟩
      rw [← same] at inside
      exact clean piece member line inside
  rw [pieces]
  constructor
  · intro clean
    constructor
    · apply (split_noNul body (outgoingBodyBudget true)).mp
      intro piece member inside
      have framed := (split_noNul (actionFrame piece) messageMaxBytes).mp
        fun line here => (clean piece member line here).noNul
      exact framed ((mem_actionFrame piece nul).mpr (Or.inr (Or.inr inside)))
    · intro long word member wide
      have piece : trimStart word ∈ splitIrcMessage body (outgoingBodyBudget true) := by
        rw [splitIrcMessage_long _ body long]
        exact layout_of_overlong _ _ (splitWords_ne_nil body.length body) [] word member wide
      rcases splitWords_shape body.length body word member with ⟨solid, blank, shape, plain, blanks⟩
      subst shape
      rcases overlong_shape _ solid blank plain blanks wide with ⟨whole, front, c, ends⟩
      subst ends
      have some_ : solid ≠ [] := by
        intro nothing
        have none_ : trimStart (front ++ [c]) = [] := List.dropWhile_eq_nil_iff.mpr blanks
        rw [nothing, List.nil_append, none_] at whole
        simp at whole
      rcases overlong_frame_unclean solid front c plain blanks some_ wide with ⟨line, here, unclean⟩
      rw [whole] at piece
      exact unclean (clean _ piece line here)
    · intro other
      cases other
  · intro clean piece member
    apply actionFrame_clean piece
    · exact (split_fits body _ (by decide)).mpr clean.even piece member
    · exact split_all _ body _ unbroken piece member
    · intro inside
      exact split_all (fun c => c ≠ ctcpDelimiter) body _
        (fun c here same => unframed (same ▸ here)) piece member _ inside rfl
    · exact (split_noNul body _).mpr clean.noNul piece member

/-! ### The message -/

variable (P : Platform) (unicode : Irc.Unicode)

/-- The gate lets the texts pass as they are, one after the other. -/
def InTheClear (out : OutgoingTranslateDeliver) : AppState → List Str → Prop
  | _, [] => True
  | s, text :: rest => (gateOf P unicode out text s).1 = .ok (plainPassthrough text) ∧
      InTheClear out (gateOf P unicode out text s).2 rest

theorem collect_inTheClear (out : OutgoingTranslateDeliver) (texts : List Str) (s : AppState)
    (clear : InTheClear P unicode out s texts) :
    (Prog.collect (gateOf P unicode out) texts s).1 = .ok (texts.map plainPassthrough) := by
  induction texts generalizing s with
  | nil => rfl
  | cons text rest ih =>
      have first : gateOf P unicode out text s =
          (.ok (plainPassthrough text), (gateOf P unicode out text s).2) :=
        Prod.ext clear.1 rfl
      have later : Prog.collect (gateOf P unicode out) rest (gateOf P unicode out text s).2 =
          (.ok (rest.map plainPassthrough),
            (Prog.collect (gateOf P unicode out) rest (gateOf P unicode out text s).2).2) :=
        Prod.ext (ih _ clear.2) rfl
      rw [Prog.collect, Prog.bind_of_ok first, Prog.bind_of_ok later]
      rfl

theorem plan_inTheClear (out : OutgoingTranslateDeliver) (texts : List Str) (s : AppState)
    (clear : InTheClear P unicode out s texts) :
    (planTranslatedWires P unicode out texts s).1 = .ok (clearLines texts) := by
  have collected : Prog.collect (gateOf P unicode out) texts s =
      (.ok (texts.map plainPassthrough), (Prog.collect (gateOf P unicode out) texts s).2) :=
    Prod.ext (collect_inTheClear P unicode out texts s clear) rfl
  rw [planTranslatedWires, Prog.bind_of_ok collected]
  show Except.ok _ = _
  rw [clearLines, List.flatMap_map]

/-- The answer cannot be published: it is another line's, or not one line, or empty, or too long. -/
def Unusable (expected : Nat) (outcome : TranslateOutcome) : Prop :=
  outcome.id ≠ expected ∨ ∃ id text, outcome = .translated id text ∧
    ((trimEndMatches isLineBreak text).any isLineBreak = true ∨
      (trim (trimEndMatches isLineBreak text)).isEmpty = true ∨
      maxTranslationBytes < utf8Length (trimEndMatches isLineBreak text))

theorem singleLineOrRefuse_unusable (expected : Nat) (outcome : TranslateOutcome)
    (unusable : Unusable expected outcome) :
    ∃ id reason, singleLineOrRefuse expected outcome = .untranslated id (.error reason) := by
  cases outcome with
  | untranslated id reason =>
      rcases unusable with other | ⟨id', text, same, _⟩
      · exact ⟨_, _, if_pos other⟩
      · cases same
  | translated id text =>
      by_cases other : id ≠ expected
      · exact ⟨_, _, if_pos other⟩
      · rcases unusable with wrong | ⟨id', text', same, fault⟩
        · exact absurd wrong other
        · cases same
          simp only [singleLineOrRefuse, if_neg other]
          by_cases lines : (trimEndMatches isLineBreak text).any isLineBreak = true
          · exact ⟨_, _, if_pos lines⟩
          · by_cases framed : (trimEndMatches isLineBreak text).contains ctcpDelimiter = true
            · exact ⟨_, _, by rw [if_neg lines, if_pos framed]⟩
            · by_cases reads : readsAsRpe2eProtocol (trimEndMatches isLineBreak text) = true
              · exact ⟨_, _, by rw [if_neg lines, if_neg framed, if_pos reads]⟩
              · by_cases blank : (trim (trimEndMatches isLineBreak text)).isEmpty = true
                · exact ⟨_, _, by rw [if_neg lines, if_neg framed, if_neg reads, if_pos blank]⟩
                · have long := (fault.resolve_left lines).resolve_left blank
                  exact ⟨_, _, by
                    rw [if_neg lines, if_neg framed, if_neg reads, if_neg blank, if_pos long]⟩

/-- Nothing that is published breaks a line or opens a frame. -/
theorem translatedWireBody_plain (out : OutgoingTranslateDeliver) (body : Str)
    (published : translatedWireBody out = .ok body) :
    (∀ c ∈ body, isLineBreak c = false) ∧ ctcpDelimiter ∉ body := by
  rw [translatedWireBody, bind_eq_ok] at published
  rcases published with ⟨text, _, checked⟩
  by_cases control : (text.any fun c => isLineBreak c || c = ctcpDelimiter) = true
  · simp [control] at checked
  · simp only [control, Bool.false_eq_true, if_false, Except.ok.injEq] at checked
    rw [← checked]
    simp only [List.any_eq_true, Bool.or_eq_true, decide_eq_true_eq, not_exists, not_and, not_or,
      Bool.not_eq_true] at control
    constructor
    · intro c member
      exact (control c member).1
    · intro member
      exact (control _ member).2 rfl

theorem wrapped_clean (body : Str) (isAction : Bool) (unbroken : ∀ c ∈ body, isLineBreak c = false)
    (unframed : ctcpDelimiter ∉ body) :
    (∀ line ∈ clearLines (wrapOutgoingBody body isAction), Clean line) ↔
      SplitsCleanly isAction body := by
  cases isAction with
  | true => exact action_clean body unbroken unframed
  | false => exact plain_clean body unbroken unframed

/-- What a connection writes of the lines, over every number of them, is all of them. -/
theorem forall_take {α : Type} (holds : α → Prop) (items : List α) :
    (∀ n, ∀ x ∈ items.take n, holds x) ↔ ∀ x ∈ items, holds x := by
  constructor
  · intro all x member
    exact all items.length x (by rwa [List.take_length])
  · intro all n x member
    exact all x (List.mem_of_mem_take member)

/-- Whatever the backend answers: an answer that cannot be published leaves nothing on the wire, and
of a message that is not encrypted all lines are clean, however many of them are written, exactly if
a body that is published in time has no NUL, no word too long for a line only by its whitespace, and
no line that begins where the text goes on like the protocol. -/
theorem translated_lines_are_clean (client : Client) (delivery : OutgoingTranslateDeliver)
    (expected : Nat) (run : BackendRun) :
    let out := { delivery with outcome := translateIsolated expected run }
    (∀ outcome, run = .answered outcome → Unusable expected outcome → ∀ writes,
        (sendOutgoingTranslated P unicode client out writes).1.lines = []) ∧
      ((∀ body, translatedWireBody out = .ok body →
          InTheClear P unicode out client.state (wrapOutgoingBody body out.isAction)) →
        ((∀ writes, ∀ line ∈ (sendOutgoingTranslated P unicode client out writes).1.lines, Clean line) ↔
          ∀ body, translatedWireBody out = .ok body → tooLate client out = none →
            SplitsCleanly out.isAction body)) := by
  intro out
  constructor
  · intro outcome answered unusable writes
    rcases singleLineOrRefuse_unusable expected outcome unusable with ⟨id, reason, refused⟩
    have outcomeIs : out.outcome = .untranslated id (.error reason) := by
      simp only [out, answered, translateIsolated, refused]
    have nothing : ∃ why, translatedWireBody out = .error why := by
      simp only [translatedWireBody, bodyToPublish, outcomeIs]
      exact ⟨_, rfl⟩
    rcases nothing with ⟨why, nothing⟩
    simp only [sendOutgoingTranslated, nothing]
  · intro clear
    cases published : translatedWireBody out with
    | error why => simp [sendOutgoingTranslated, published]
    | ok body =>
        cases late : tooLate client out with
        | some why => simp [sendOutgoingTranslated, published, late]
        | none =>
            have planned : planTranslatedWires P unicode out (wrapOutgoingBody body out.isAction)
                client.state = (.ok (clearLines (wrapOutgoingBody body out.isAction)),
                  (planTranslatedWires P unicode out (wrapOutgoingBody body out.isAction)
                    client.state).2) :=
              Prod.ext (plan_inTheClear P unicode out _ _ (clear body published)) rfl
            have sent (writes : Nat) : (sendOutgoingTranslated P unicode client out writes).1.lines =
                (clearLines (wrapOutgoingBody body out.isAction)).take writes := by
              simp only [sendOutgoingTranslated, published, late]
              rw [planned]
            have plain := translatedWireBody_plain out body published
            simp only [sent, forall_take, wrapped_clean body out.isAction plain.1 plain.2,
              Except.ok.injEq, forall_const, forall_eq']

/-! ### Runs -/

/-- A client without encryption, with one handle. -/
def plainClient : Client where
  state := ⟨Table.empty, Table.empty, false, World.fresh [] 300, [], []⟩
  ircHandles := ["net".toList]
  connGenerations := Map.insert Table.empty "net".toList 1
  timeoutMs := 5000
  now := 0

def toChannel (isAction : Bool) : OutgoingTranslateDeliver where
  connId := "net".toList
  bufferId := "net/#c".toList
  bufferName := "#c".toList
  bufferType := .channel
  originalText := "hello".toList
  outcome := .untranslated 0 .timeout
  peerHandle := none
  isAction := isAction
  submittedAt := 0
  connGeneration := some 1

/-- A greeting comes back in another language and is said. -/
theorem translated_lines_are_clean_greeting :
    let out := { toChannel true with
      outcome := translateIsolated 7 (.answered (.translated 7 "hola\n".toList)) }
    translatedWireBody out = .ok "hola".toList ∧ tooLate plainClient out = none ∧
      ((∀ writes, ∀ line ∈
          (sendOutgoingTranslated .symbolic .ascii plainClient out writes).1.lines, Clean line) ↔
        ∀ body, translatedWireBody out = .ok body → tooLate plainClient out = none →
          SplitsCleanly out.isAction body) := by
  intro out
  have published : translatedWireBody out = .ok "hola".toList := by decide +kernel
  refine ⟨published, by decide +kernel, ?_⟩
  apply (translated_lines_are_clean .symbolic .ascii plainClient (toChannel true) 7
    (.answered (.translated 7 "hola\n".toList))).2
  intro body same
  have whole : body = "hola".toList := Except.ok.inj (same.symm.trans published)
  rw [whole]
  exact ⟨rfl, trivial⟩

/-- Behind a word that fills a line, the second line of the answer opens like a ciphertext. -/
theorem second_line_reads_as_ciphertext :
    let body := List.replicate 349 'a' ++ " +RPE2E01 x".toList
    let out := { toChannel false with
      outcome := translateIsolated 7 (.answered (.translated 7 body)) }
    (sendOutgoingTranslated .symbolic .ascii plainClient out 2).1.lines =
        [List.replicate 349 'a' ++ " ".toList, "+RPE2E01 x".toList] ∧
      ¬Clean "+RPE2E01 x".toList := by
  intro body out
  constructor
  · decide +kernel
  · intro clean
    exact absurd clean.prose (by decide)

end Repartee.App
