import Repartee.App.Gate

/-!
Where the lines begin and end that a long message is split into, told from the lengths of its words.
-/

namespace Repartee.App

open Repartee.Text

/-! ### Words -/

theorem utf8Length_dropWhile_le (drops : Char → Bool) (s : Str) :
    utf8Length (s.dropWhile drops) ≤ utf8Length s := by
  induction s with
  | nil => simp
  | cons c rest ih =>
      by_cases dropped : drops c
      · simp only [List.dropWhile_cons, dropped, if_true, utf8Length_cons]
        omega
      · simp [dropped]

theorem utf8Length_trimStart_le (s : Str) : utf8Length (trimStart s) ≤ utf8Length s :=
  utf8Length_dropWhile_le isWhitespace s

theorem utf8Length_le_four (s : Str) : utf8Length s ≤ 4 * s.length := by
  induction s with
  | nil => simp
  | cons c rest ih =>
      have size := Char.utf8Size_le_four c
      simp only [utf8Length_cons, List.length_cons]
      omega

theorem utf8Length_eq_zero (s : Str) : utf8Length s = 0 ↔ s = [] := by
  cases s with
  | nil => simp
  | cons c rest =>
      have size := Char.utf8Size_pos c
      simp only [utf8Length_cons, reduceCtorEq, iff_false]
      omega

theorem trimStart_of_head {c : Char} {rest : Str} (solid : isWhitespace c = false) :
    trimStart (c :: rest) = c :: rest := by
  simp [trimStart, solid]

/-- What one call of the word splitter takes: characters, then all the whitespace behind them. -/
theorem nextWord_append (text : Str) : (nextWord text).1 ++ (nextWord text).2 = text := by
  simp [nextWord]

theorem nextWord_ne_nil {text : Str} (some_ : text ≠ []) : (nextWord text).1 ≠ [] := by
  cases text with
  | nil => exact absurd rfl some_
  | cons c rest =>
      by_cases blank : isWhitespace c
      · simp [nextWord, blank]
      · simp [nextWord, blank]

theorem nextWord_rest_head (text : Str) : ∀ c, (nextWord text).2.head? = some c →
    isWhitespace c = false := by
  intro c first
  have stops := List.head?_dropWhile_not isWhitespace (text.dropWhile fun c => !isWhitespace c)
  simp only [nextWord] at first
  rw [first] at stops
  simpa using stops

/-- If anything follows a word, whitespace ends it. -/
theorem nextWord_ends {text : Str} (more : (nextWord text).2 ≠ []) :
    ∃ front c, (nextWord text).1 = front ++ [c] ∧ isWhitespace c = true := by
  simp only [nextWord] at more ⊢
  generalize solid : text.takeWhile (fun c => !isWhitespace c) = word
  cases after : text.dropWhile fun c => !isWhitespace c with
  | nil => simp [after] at more
  | cons c rest =>
      have stops := List.head?_dropWhile_not (fun c => !isWhitespace c) text
      rw [after] at stops
      have blank : isWhitespace c = true := by simpa using stops
      have some_ : (c :: rest).takeWhile isWhitespace ≠ [] := by simp [blank]
      have last := List.getLast_mem some_
      refine ⟨word ++ ((c :: rest).takeWhile isWhitespace).dropLast, _, ?_,
        List.mem_takeWhile_imp last⟩
      rw [List.append_assoc, List.dropLast_append_getLast]

/-- Words that begin without whitespace; all but the last end with some. -/
def Words : List Str → Prop
  | [] => True
  | word :: rest => (∃ c cs, word = c :: cs ∧ isWhitespace c = false) ∧
      (rest ≠ [] → ∃ front c, word = front ++ [c] ∧ isWhitespace c = true) ∧ Words rest

theorem nextWord_shorter {text : Str} (some_ : text ≠ []) : (nextWord text).2.length < text.length := by
  have whole := congrArg List.length (nextWord_append text)
  have positive := List.length_pos_iff.mpr (nextWord_ne_nil some_)
  rw [List.length_append] at whole
  omega

theorem splitWords_cons (fuel : Nat) (c : Char) (rest : Str) :
    splitWords (fuel + 1) (c :: rest) =
      (nextWord (c :: rest)).1 :: splitWords fuel (nextWord (c :: rest)).2 := rfl

theorem splitWords_flatten (fuel : Nat) (text : Str) (enough : text.length ≤ fuel) :
    (splitWords fuel text).flatten = text := by
  induction fuel generalizing text with
  | zero => simp_all [splitWords]
  | succ fuel ih =>
      cases text with
      | nil => rfl
      | cons c rest =>
          have shorter := nextWord_shorter (List.cons_ne_nil c rest)
          rw [splitWords_cons, List.flatten_cons, ih _ (by omega), nextWord_append]

theorem splitWords_ne_nil (fuel : Nat) (text : Str) : ∀ word ∈ splitWords fuel text, word ≠ [] := by
  induction fuel generalizing text with
  | zero =>
      cases text with
      | nil => simp [splitWords]
      | cons c rest => simp [splitWords]
  | succ fuel ih =>
      cases text with
      | nil => simp [splitWords]
      | cons c rest =>
          rw [splitWords_cons]
          intro word member
          rcases List.mem_cons.mp member with same | later
          · rw [same]
            exact nextWord_ne_nil (List.cons_ne_nil c rest)
          · exact ih _ word later

theorem splitWords_words (fuel : Nat) (text : Str) (enough : text.length ≤ fuel)
    (solid : ∀ c, text.head? = some c → isWhitespace c = false) : Words (splitWords fuel text) := by
  induction fuel generalizing text with
  | zero =>
      cases text with
      | nil => trivial
      | cons c rest => simp at enough
  | succ fuel ih =>
      cases text with
      | nil => trivial
      | cons c rest =>
          have shorter := nextWord_shorter (List.cons_ne_nil c rest)
          have later := ih _ (by omega) (nextWord_rest_head (c :: rest))
          rw [splitWords_cons]
          refine ⟨?_, ?_, later⟩
          · have whole := nextWord_append (c :: rest)
            cases word : (nextWord (c :: rest)).1 with
            | nil => exact absurd word (nextWord_ne_nil (List.cons_ne_nil c rest))
            | cons d ds =>
                rw [word, List.cons_append, List.cons.injEq] at whole
                exact ⟨d, ds, rfl, whole.1 ▸ solid c rfl⟩
          · intro more
            apply nextWord_ends
            intro nothing
            rw [nothing] at more
            cases fuel with
            | zero => exact more rfl
            | succ _ => exact more rfl

/-! ### Lines -/

variable (maxBytes : Nat)

/-- The lines that a word too long for a line fills behind the open one, and the line it leaves
open. -/
def charLines : Str → Str → List Str × Str
  | current, [] => ([], current)
  | current, c :: rest =>
      if utf8Length current + c.utf8Size > maxBytes ∧ current ≠ [] then
        (current :: (charLines [c] rest).1, (charLines [c] rest).2)
      else charLines (current ++ [c]) rest

/-- The lines that the words fill behind the open one. -/
def layout : Str → List Str → List Str
  | current, [] => if current ≠ [] then [current] else []
  | current, word :: rest =>
      if utf8Length current + utf8Length word ≤ maxBytes then layout (current ++ word) rest
      else if utf8Length (trim word) ≤ maxBytes then
        (if current ≠ [] then [current] else []) ++ layout (trimStart word) rest
      else (charLines maxBytes current word).1 ++ layout (charLines maxBytes current word).2 rest

theorem foldl_pushChar (word : Str) (lines : List Str) (current : Str) :
    word.foldl (pushChar maxBytes) ⟨lines, current⟩ =
      ⟨lines ++ (charLines maxBytes current word).1, (charLines maxBytes current word).2⟩ := by
  induction word generalizing lines current with
  | nil => simp [charLines]
  | cons c rest ih =>
      by_cases full : utf8Length current + c.utf8Size > maxBytes ∧ current ≠ []
      · rw [List.foldl_cons, pushChar, if_pos full, ih]
        simp only [charLines, if_pos full, List.append_assoc, List.singleton_append]
      · rw [List.foldl_cons, pushChar, if_neg full, ih]
        simp only [charLines, if_neg full]

theorem foldl_pushWord (words : List Str) (lines : List Str) (current : Str) :
    let st := words.foldl (pushWord maxBytes) ⟨lines, current⟩
    (if st.current ≠ [] then st.lines ++ [st.current] else st.lines) =
      lines ++ layout maxBytes current words := by
  induction words generalizing lines current with
  | nil =>
      by_cases nothing : current = []
      · simp [layout, nothing]
      · simp [layout, nothing]
  | cons word rest ih =>
      by_cases fits : utf8Length current + utf8Length word ≤ maxBytes
      · simp only [List.foldl_cons, pushWord, if_pos fits, layout]
        exact ih lines (current ++ word)
      · by_cases trimmed : utf8Length (trim word) ≤ maxBytes
        · have step : pushWord maxBytes ⟨lines, current⟩ word =
              ⟨lines ++ if current ≠ [] then [current] else [], trimStart word⟩ := by
            by_cases nothing : current = []
            · subst nothing
              simp only [pushWord, if_neg fits, if_pos trimmed, ne_eq, not_true_eq_false, if_false,
                List.append_nil]
            · simp only [pushWord, if_neg fits, if_pos trimmed, ne_eq, nothing, not_false_eq_true,
                if_true]
          rw [List.foldl_cons, step]
          simp only [layout, if_neg fits, if_pos trimmed, ← List.append_assoc]
          exact ih _ (trimStart word)
        · simp only [List.foldl_cons, pushWord, if_neg fits, if_neg trimmed, layout, foldl_pushChar]
          simpa using ih (lines ++ (charLines maxBytes current word).1)
            (charLines maxBytes current word).2

theorem splitIrcMessage_long (text : Str) (long : maxBytes < utf8Length text) :
    splitIrcMessage text maxBytes = layout maxBytes [] (splitWords text.length text) := by
  rw [splitIrcMessage, if_neg (by omega)]
  exact foldl_pushWord maxBytes _ [] []

theorem splitIrcMessage_short (text : Str) (short : utf8Length text ≤ maxBytes) :
    splitIrcMessage text maxBytes = [text] := if_pos short

/-! ### What the lines hold -/

theorem charLines_flatten (word current : Str) :
    (charLines maxBytes current word).1.flatten ++ (charLines maxBytes current word).2 =
      current ++ word := by
  induction word generalizing current with
  | nil => simp [charLines]
  | cons c rest ih =>
      by_cases full : utf8Length current + c.utf8Size > maxBytes ∧ current ≠ []
      · simp only [charLines, if_pos full, List.flatten_cons, List.append_assoc, ih [c]]
        rfl
      · simp only [charLines, if_neg full, ih (current ++ [c]), List.append_assoc]
        rfl

/-- The lines are made of the words, and miss nothing of them but whitespace. -/
theorem layout_mem (words : List Str) (current : Str) (c : Char) :
    (c ∈ (layout maxBytes current words).flatten → c ∈ current ++ words.flatten) ∧
      (isWhitespace c = false → c ∈ current ++ words.flatten →
        c ∈ (layout maxBytes current words).flatten) := by
  induction words generalizing current with
  | nil =>
      by_cases nothing : current = []
      · simp [layout, nothing]
      · simp [layout, nothing]
  | cons word rest ih =>
      by_cases fits : utf8Length current + utf8Length word ≤ maxBytes
      · simpa only [layout, if_pos fits, List.flatten_cons, List.append_assoc] using
          ih (current ++ word)
      · by_cases trimmed : utf8Length (trim word) ≤ maxBytes
        · have open_ : (if current ≠ [] then [current] else []).flatten = current := by
            by_cases nothing : current = []
            · simp [nothing]
            · simp [nothing]
          have later := ih (trimStart word)
          simp only [layout, if_neg fits, if_pos trimmed, List.flatten_append, open_,
            List.flatten_cons, List.mem_append] at later ⊢
          have kept : isWhitespace c = false → c ∈ word → c ∈ trimStart word := by
            intro solid member
            have whole : word.takeWhile isWhitespace ++ trimStart word = word :=
              List.takeWhile_append_dropWhile
            rw [← whole, List.mem_append] at member
            rcases member with blank | here
            · rw [List.mem_takeWhile_imp blank] at solid
              cases solid
            · exact here
          have taken : c ∈ trimStart word → c ∈ word := fun here =>
            (List.dropWhile_sublist isWhitespace).subset here
          tauto
        · have later := ih (charLines maxBytes current word).2
          have whole := charLines_flatten maxBytes word current
          simp only [layout, if_neg fits, if_neg trimmed, List.flatten_append, List.flatten_cons,
            ← List.append_assoc, ← whole]
          simp only [List.mem_append] at later ⊢
          tauto

/-! ### Lines that are too long -/

/-- A word that fits on a line but for the whitespace behind it. -/
def Overlong (word : Str) : Prop :=
  utf8Length (trim word) ≤ maxBytes ∧ maxBytes < utf8Length (trimStart word)

/-- Characters never make a line too long; one that is was so before them. -/
theorem charLines_long (room : 4 ≤ maxBytes) (word current : Str) :
    (∀ line ∈ (charLines maxBytes current word).1, maxBytes < utf8Length line → line = current) ∧
      (maxBytes < utf8Length (charLines maxBytes current word).2 →
        (charLines maxBytes current word).2 = current) := by
  induction word generalizing current with
  | nil => simp [charLines]
  | cons c rest ih =>
      have size := Char.utf8Size_le_four c
      by_cases full : utf8Length current + c.utf8Size > maxBytes ∧ current ≠ []
      · have single : utf8Length [c] ≤ maxBytes := by
          simp only [utf8Length_cons, utf8Length_nil]
          omega
        have later := ih [c]
        simp only [charLines, if_pos full, List.mem_cons]
        constructor
        · rintro line (same | here) long
          · exact same
          · rw [later.1 line here long] at long
            omega
        · intro long
          rw [later.2 long] at long
          omega
      · have short : utf8Length (current ++ [c]) ≤ maxBytes := by
          simp only [utf8Length_append, utf8Length_cons, utf8Length_nil]
          by_cases nothing : current = []
          · simp only [nothing, utf8Length_nil]
            omega
          · have fits := mt (fun more => And.intro more nothing) full
            omega
        have later := ih (current ++ [c])
        simp only [charLines, if_neg full]
        constructor
        · intro line here long
          rw [later.1 line here long] at long
          omega
        · intro long
          rw [later.2 long] at long
          omega

/-- An open line that is too long is closed as it is. -/
theorem layout_closes (words : List Str) (filled : ∀ word ∈ words, word ≠ []) (current : Str)
    (long : maxBytes < utf8Length current) : current ∈ layout maxBytes current words := by
  have some_ : current ≠ [] := by
    intro nothing
    simp [nothing] at long
  cases words with
  | nil => simp [layout, some_]
  | cons word rest =>
      have fits : ¬utf8Length current + utf8Length word ≤ maxBytes := by omega
      by_cases trimmed : utf8Length (trim word) ≤ maxBytes
      · simp [layout, fits, trimmed, some_]
      · rcases List.exists_cons_of_ne_nil (filled word List.mem_cons_self) with ⟨c, cs, shape⟩
        have full : utf8Length current + c.utf8Size > maxBytes ∧ current ≠ [] := ⟨by omega, some_⟩
        subst shape
        simp only [layout, if_neg fits, if_neg trimmed, charLines, if_pos full]
        simp

/-- A word too long only by its whitespace is a line of its own, and no other line is too long. -/
theorem layout_overlong (room : 4 ≤ maxBytes) (words : List Str) (current : Str)
    (sized : utf8Length current ≤ maxBytes) (line : Str) (member : line ∈ layout maxBytes current words)
    (long : maxBytes < utf8Length line) :
    ∃ word ∈ words, Overlong maxBytes word ∧ line = trimStart word := by
  have go : ∀ current, line ∈ layout maxBytes current words →
      (∃ word ∈ words, Overlong maxBytes word ∧ line = trimStart word) ∨ line = current := by
    clear member sized current
    induction words with
    | nil =>
        intro current member
        by_cases nothing : current = []
        · simp [layout, nothing] at member
        · right
          simpa [layout, nothing] using member
    | cons word rest ih =>
        intro current member
        by_cases fits : utf8Length current + utf8Length word ≤ maxBytes
        · simp only [layout, if_pos fits] at member
          rcases ih _ member with ⟨w, here, wide, same⟩ | same
          · exact Or.inl ⟨w, List.mem_cons_of_mem _ here, wide, same⟩
          · rw [same, utf8Length_append] at long
            omega
        · by_cases trimmed : utf8Length (trim word) ≤ maxBytes
          · simp only [layout, if_neg fits, if_pos trimmed, List.mem_append] at member
            rcases member with here | later
            · right
              by_cases nothing : current = []
              · simp [nothing] at here
              · simpa [nothing] using here
            · left
              rcases ih _ later with ⟨w, here, wide, same⟩ | same
              · exact ⟨w, List.mem_cons_of_mem _ here, wide, same⟩
              · rw [same] at long
                exact ⟨word, List.mem_cons_self, ⟨trimmed, long⟩, same⟩
          · simp only [layout, if_neg fits, if_neg trimmed, List.mem_append] at member
            have pieces := charLines_long maxBytes room word current
            rcases member with here | later
            · exact Or.inr (pieces.1 line here long)
            · rcases ih _ later with ⟨w, here, wide, same⟩ | same
              · exact Or.inl ⟨w, List.mem_cons_of_mem _ here, wide, same⟩
              · right
                rw [same] at long
                rw [same, pieces.2 long]
  rcases go current member with found | same
  · exact found
  · rw [same] at long
    omega

theorem layout_of_overlong (words : List Str) (filled : ∀ word ∈ words, word ≠ []) (current : Str)
    (word : Str) (member : word ∈ words) (wide : Overlong maxBytes word) :
    trimStart word ∈ layout maxBytes current words := by
  induction words generalizing current with
  | nil => simp at member
  | cons first rest ih =>
      have filled' := fun w here => filled w (List.mem_cons_of_mem first here)
      rcases List.mem_cons.mp member with same | later
      · have shorter := utf8Length_trimStart_le word
        have fits : ¬utf8Length current + utf8Length first ≤ maxBytes := by
          rw [← same]
          have := wide.2
          omega
        have trimmed : utf8Length (trim first) ≤ maxBytes := same ▸ wide.1
        simp only [layout, if_neg fits, if_pos trimmed, List.mem_append]
        right
        rw [same]
        exact layout_closes maxBytes rest filled' _ (same ▸ wide.2)
      · by_cases fits : utf8Length current + utf8Length first ≤ maxBytes
        · simp only [layout, if_pos fits]
          exact ih filled' _ later
        · by_cases trimmed : utf8Length (trim first) ≤ maxBytes
          · simp only [layout, if_neg fits, if_pos trimmed, List.mem_append]
            exact Or.inr (ih filled' _ later)
          · simp only [layout, if_neg fits, if_neg trimmed, List.mem_append]
            exact Or.inr (ih filled' _ later)

/-! ### Where lines begin -/

/-- What is left of the text where each line begins that a too long word starts. -/
def charStarts : Nat → Str → Str → List Str
  | _, [], _ => []
  | used, c :: rest, after =>
      if used = 0 ∨ maxBytes < used + c.utf8Size then
        (c :: rest ++ after) :: charStarts c.utf8Size rest after
      else charStarts (used + c.utf8Size) rest after

/-- The room a too long word takes of the line it ends on. -/
def charsUsed : Nat → Str → Nat
  | used, [] => used
  | used, c :: rest =>
      if used = 0 ∨ maxBytes < used + c.utf8Size then charsUsed c.utf8Size rest
      else charsUsed (used + c.utf8Size) rest

/-- What is left of the text where each line begins, when so much of the open line is used. -/
def wordStarts : Nat → List Str → List Str
  | _, [] => []
  | used, word :: rest =>
      if used + utf8Length word ≤ maxBytes then
        (if used = 0 then [(word :: rest).flatten] else []) ++ wordStarts (used + utf8Length word) rest
      else if utf8Length (trim word) ≤ maxBytes then
        (trimStart word ++ rest.flatten) :: wordStarts (utf8Length (trimStart word)) rest
      else charStarts maxBytes used word rest.flatten ++ wordStarts (charsUsed maxBytes used word) rest

def lineStarts (text : Str) : List Str :=
  if utf8Length text ≤ maxBytes then [text] else wordStarts maxBytes 0 (splitWords text.length text)

theorem charsUsed_eq (word current : Str) :
    charsUsed maxBytes (utf8Length current) word =
      utf8Length (charLines maxBytes current word).2 := by
  induction word generalizing current with
  | nil => rfl
  | cons c rest ih =>
      by_cases nothing : current = []
      · subst nothing
        simpa [charsUsed, charLines] using ih [c]
      · have used : utf8Length current ≠ 0 := mt (utf8Length_eq_zero current).mp nothing
        by_cases full : maxBytes < utf8Length current + c.utf8Size
        · simpa [charsUsed, charLines, nothing, used, full] using ih [c]
        · simpa [charsUsed, charLines, nothing, used, full] using ih (current ++ [c])

variable (tag : Str)

/-- Nothing added to the line can make it begin with the tag. -/
def Settled (line : Str) : Prop := tag.length ≤ line.length ∨ ∃ c ∈ line, isWhitespace c = true

theorem prefix_of_settled (solid : ∀ c ∈ tag, isWhitespace c = false) (line more : Str)
    (settled : Settled tag line) : tag <+: line ++ more ↔ tag <+: line := by
  constructor
  · intro starts
    by_cases short : tag.length ≤ line.length
    · exact List.prefix_of_prefix_length_le starts (List.prefix_append line more) short
    · rcases settled.resolve_left short with ⟨c, member, blank⟩
      have inside : line <+: tag :=
        List.prefix_of_prefix_length_le (List.prefix_append line more) starts (by omega)
      rw [solid c (inside.subset member)] at blank
      cases blank
  · intro starts
    exact starts.trans (List.prefix_append line more)

/-- A line that is full is longer than the tag. -/
theorem settled_of_full (room : 4 * tag.length + 4 ≤ maxBytes) (line : Str) (c : Char)
    (full : maxBytes < utf8Length line + c.utf8Size) : Settled tag line := by
  left
  have size := Char.utf8Size_le_four c
  have length := utf8Length_le_four line
  omega

theorem charLines_tagged (room : 4 * tag.length + 4 ≤ maxBytes)
    (solid : ∀ c ∈ tag, isWhitespace c = false) (word after current : Str) :
    ((∃ line ∈ (charLines maxBytes current word).1, tag <+: line) ∨
        (charLines maxBytes current word).2 ≠ [] ∧
          tag <+: (charLines maxBytes current word).2 ++ after) ↔
      (current ≠ [] ∧ tag <+: current ++ (word ++ after)) ∨
        ∃ start ∈ charStarts maxBytes (utf8Length current) word after, tag <+: start := by
  induction word generalizing current with
  | nil => simp [charLines, charStarts]
  | cons c rest ih =>
      by_cases nothing : current = []
      · have later := ih [c]
        subst nothing
        simpa [charLines, charStarts] using later
      · have used : utf8Length current ≠ 0 := mt (utf8Length_eq_zero current).mp nothing
        by_cases full : maxBytes < utf8Length current + c.utf8Size
        · have later := ih [c]
          have closed := prefix_of_settled tag solid current (c :: rest ++ after)
            (settled_of_full maxBytes tag room current c full)
          simp only [charLines, charStarts, gt_iff_lt, full, ne_eq, nothing, not_false_eq_true,
            and_self, if_true, or_true, List.exists_mem_cons_iff, closed, true_and, or_assoc]
          simpa using or_congr_right later
        · have later := ih (current ++ [c])
          simpa [charLines, charStarts, nothing, used, full] using later

/-- Once words follow, a line that has some is settled: whitespace ends them. -/
def OpenLine (current : Str) (words : List Str) : Prop := words ≠ [] → current ≠ [] → Settled tag current

theorem settled_append_word (current word : Str) (rest : List Str) (solid : Words (word :: rest))
    (more : rest ≠ []) : Settled tag (current ++ word) := by
  rcases solid.2.1 more with ⟨front, c, ends, blank⟩
  right
  exact ⟨c, by simp [ends], blank⟩

theorem mem_charLines_last (word current : Str) (c : Char) :
    c ∈ (charLines maxBytes current (word ++ [c])).2 := by
  induction word generalizing current with
  | nil =>
      by_cases full : utf8Length current + c.utf8Size > maxBytes ∧ current ≠ []
      · simp [charLines, full]
      · simp only [List.nil_append, charLines, if_neg full]
        simp
  | cons d rest ih =>
      by_cases full : utf8Length current + d.utf8Size > maxBytes ∧ current ≠ []
      · simp only [List.cons_append, charLines, if_pos full]
        exact ih [d]
      · simp only [List.cons_append, charLines, if_neg full]
        exact ih (current ++ [d])

/-- A line begins with the tag exactly where the text goes on with it. -/
theorem layout_tagged (room : 4 * tag.length + 4 ≤ maxBytes)
    (solid : ∀ c ∈ tag, isWhitespace c = false) (words : List Str)
    (shaped : Words words) (current : Str) (settled : OpenLine tag current words) :
    (∃ line ∈ layout maxBytes current words, tag <+: line) ↔
      (current ≠ [] ∧ tag <+: current ++ words.flatten) ∨
        ∃ start ∈ wordStarts maxBytes (utf8Length current) words, tag <+: start := by
  induction words generalizing current with
  | nil =>
      by_cases nothing : current = []
      · simp [layout, wordStarts, nothing]
      · simp [layout, wordStarts, nothing]
  | cons word rest ih =>
      rcases shaped.1 with ⟨c, cs, shape, head⟩
      have filled : word ≠ [] := by
        rw [shape]
        exact List.cons_ne_nil c cs
      by_cases fits : utf8Length current + utf8Length word ≤ maxBytes
      · have later := ih shaped.2.2 (current ++ word)
          (fun more _ => settled_append_word tag current word rest shaped more)
        rw [utf8Length_append] at later
        simp only [layout, wordStarts, if_pos fits, later]
        by_cases nothing : current = []
        · subst nothing
          simp [filled]
        · have used : utf8Length current ≠ 0 := mt (utf8Length_eq_zero current).mp nothing
          simp [nothing, used]
      · by_cases trimmed : utf8Length (trim word) ≤ maxBytes
        · have kept : trimStart word = word := by
            rw [shape]
            exact trimStart_of_head head
          have later := ih shaped.2.2 word
            (fun more _ => settled_append_word tag [] word rest shaped more)
          simp only [layout, wordStarts, if_neg fits, if_pos trimmed, kept]
          by_cases nothing : current = []
          · subst nothing
            simpa [filled] using later
          · have closed := prefix_of_settled tag solid current (word :: rest).flatten
              (settled (List.cons_ne_nil word rest) nothing)
            simp only [ne_eq, nothing, not_false_eq_true, if_true, List.singleton_append,
              List.exists_mem_cons_iff, closed, true_and]
            simpa [filled] using or_congr_right later
        · have later := ih shaped.2.2 (charLines maxBytes current word).2 (by
            intro more _
            rcases shaped.2.1 more with ⟨front, d, ends, blank⟩
            right
            exact ⟨d, ends ▸ mem_charLines_last maxBytes front current d, blank⟩)
          have pieces := charLines_tagged maxBytes tag room solid word rest.flatten current
          rw [← charsUsed_eq] at later
          simp only [layout, wordStarts, if_neg fits, if_neg trimmed, List.mem_append, or_and_right,
            exists_or, later, List.flatten_cons, ← or_assoc, pieces]

/-! ### The split message -/

theorem wordStarts_first (words : List Str) (shaped : Words words) (some_ : words ≠ []) :
    words.flatten ∈ wordStarts maxBytes 0 words := by
  cases words with
  | nil => exact absurd rfl some_
  | cons word rest =>
      rcases shaped.1 with ⟨c, cs, shape, head⟩
      subst shape
      by_cases fits : 0 + utf8Length (c :: cs) ≤ maxBytes
      · simp only [wordStarts, if_pos fits]
        simp
      · by_cases trimmed : utf8Length (trim (c :: cs)) ≤ maxBytes
        · simp only [wordStarts, if_neg fits, if_pos trimmed, trimStart_of_head head]
          simp
        · simp only [wordStarts, if_neg fits, if_neg trimmed, charStarts, true_or, if_true]
          simp

/-- Whitespace ahead of the first word is a word of its own, with nothing in it. -/
theorem splitWords_blank (c : Char) (rest : Str) (blank : isWhitespace c = true) :
    ∃ first later, splitWords (c :: rest).length (c :: rest) = first :: later ∧ c ∈ first ∧
      trimStart first = [] ∧ Words later := by
  have first : (nextWord (c :: rest)).1 = (c :: rest).takeWhile isWhitespace := by
    simp [nextWord, blank]
  have shorter := nextWord_shorter (List.cons_ne_nil c rest)
  refine ⟨_, _, splitWords_cons rest.length c rest, ?_, ?_, ?_⟩
  · simp [first, blank]
  · rw [first, trimStart, List.dropWhile_eq_nil_iff]
    intro d member
    exact List.mem_takeWhile_imp member
  · apply splitWords_words
    · rw [List.length_cons] at shorter
      omega
    · exact nextWord_rest_head (c :: rest)

theorem splitIrcMessage_tagged (room : 4 * tag.length + 4 ≤ maxBytes)
    (solid : ∀ c ∈ tag, isWhitespace c = false) (some_ : tag ≠ []) (text : Str) :
    (∃ line ∈ splitIrcMessage text maxBytes, tag <+: line) ↔
      ∃ start ∈ lineStarts maxBytes text, tag <+: start := by
  by_cases short : utf8Length text ≤ maxBytes
  · rw [splitIrcMessage_short maxBytes text short, lineStarts, if_pos short]
  · rw [splitIrcMessage_long maxBytes text (by omega), lineStarts, if_neg short]
    by_cases leads : ∀ c, text.head? = some c → isWhitespace c = false
    · have tagged := layout_tagged maxBytes tag room solid _
        (splitWords_words text.length text (Nat.le_refl _) leads) []
        (fun _ nothing => absurd rfl nothing)
      simpa using tagged
    · cases text with
      | nil => simp at leads
      | cons c rest =>
          have blank : isWhitespace c = true := by simpa using leads
          rcases splitWords_blank c rest blank with ⟨first, later, words, member, empty, shaped⟩
          have filled : first ≠ [] := List.ne_nil_of_mem member
          rw [words]
          by_cases fits : utf8Length [] + utf8Length first ≤ maxBytes
          · have tagged := layout_tagged maxBytes tag room solid later shaped first
              (fun _ _ => Or.inr ⟨c, member, blank⟩)
            simp only [layout, if_pos fits, List.nil_append, tagged]
            simp only [utf8Length_nil] at fits
            simp only [wordStarts, if_pos fits]
            simp [filled]
          · have tagged := layout_tagged maxBytes tag room solid later shaped []
              (fun _ nothing => absurd rfl nothing)
            have trimmed : utf8Length (trim first) ≤ maxBytes := by
              rw [trim, empty]
              exact Nat.zero_le maxBytes
            have again : tag <+: later.flatten → ∃ start ∈ wordStarts maxBytes 0 later, tag <+: start := by
              intro starts
              refine ⟨later.flatten, wordStarts_first maxBytes later shaped ?_, starts⟩
              intro nothing
              simp [nothing, some_] at starts
            simp only [utf8Length_nil] at fits tagged
            simp only [layout, wordStarts, utf8Length_nil, if_neg fits, if_pos trimmed, empty]
            simp only [ne_eq, not_true_eq_false, false_and, false_or] at tagged
            simpa [tagged] using again

theorem splitIrcMessage_overlong (room : 4 ≤ maxBytes) (text : Str) :
    (∃ line ∈ splitIrcMessage text maxBytes, maxBytes < utf8Length line) ↔
      maxBytes < utf8Length text ∧
        ∃ word ∈ splitWords text.length text, Overlong maxBytes word := by
  by_cases short : utf8Length text ≤ maxBytes
  · simp [splitIrcMessage_short maxBytes text short, Nat.not_lt.mpr short]
  · have long : maxBytes < utf8Length text := by omega
    rw [splitIrcMessage_long maxBytes text long]
    constructor
    · rintro ⟨line, member, wide⟩
      rcases layout_overlong maxBytes room _ [] (by simp) line member wide with ⟨word, here, w, _⟩
      exact ⟨long, word, here, w⟩
    · rintro ⟨_, word, here, wide⟩
      have closed := layout_of_overlong maxBytes _ (splitWords_ne_nil text.length text) [] word here wide
      exact ⟨_, closed, wide.2⟩

theorem splitIrcMessage_mem (text : Str) (c : Char) :
    (c ∈ (splitIrcMessage text maxBytes).flatten → c ∈ text) ∧
      (isWhitespace c = false → c ∈ text → c ∈ (splitIrcMessage text maxBytes).flatten) := by
  by_cases short : utf8Length text ≤ maxBytes
  · simp [splitIrcMessage_short maxBytes text short]
  · rw [splitIrcMessage_long maxBytes text (by omega)]
    have held := layout_mem maxBytes (splitWords text.length text) [] c
    rwa [splitWords_flatten text.length text (Nat.le_refl _), List.nil_append] at held

end Repartee.App
