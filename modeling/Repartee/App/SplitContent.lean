import Repartee.App.CleanLines

/-!
What the lines hold that a long message is split into: the text but for whitespace between them, no
empty line of a text that is not, and no line over the limit but a word with whitespace behind it.
-/

namespace Repartee.App

open Repartee.Text

def Blank (s : Str) : Prop := ∀ c ∈ s, isWhitespace c = true

/-- The text is the lines with whitespace in front of them, between them and behind them. -/
def Spaced : List Str → Str → Prop
  | [], text => Blank text
  | line :: rest, text => ∃ blank after, text = blank ++ (line ++ after) ∧ Blank blank ∧
      Spaced rest after

/-- A single word and the whitespace behind it. -/
def WordAndBlank (maxBytes : Nat) (line : Str) : Prop :=
  ∃ solid blank, line = solid ++ blank ∧ (∀ c ∈ solid, isWhitespace c = false) ∧ Blank blank ∧
    utf8Length solid ≤ maxBytes

theorem Blank.append {s t : Str} (first : Blank s) (second : Blank t) : Blank (s ++ t) := by
  intro c member
  rcases List.mem_append.mp member with here | there
  · exact first c here
  · exact second c there

section Spaced

variable {lines more : List Str} {text blank : Str}

theorem Spaced.behind (spaced : Spaced lines text) (blanks : Blank blank) :
    Spaced lines (blank ++ text) := by
  cases lines with
  | nil => exact blanks.append spaced
  | cons line rest =>
      rcases spaced with ⟨front, after, shape, fronts, later⟩
      refine ⟨blank ++ front, after, ?_, blanks.append fronts, later⟩
      rw [shape, List.append_assoc]

theorem Spaced.cons (line : Str) (spaced : Spaced lines text) : Spaced (line :: lines) (line ++ text) :=
  ⟨[], text, rfl, by simp [Blank], spaced⟩

/-- Lines that follow each other with nothing between them. -/
theorem Spaced.joined (lines : List Str) (spaced : Spaced more text) :
    Spaced (lines ++ more) (lines.flatten ++ text) := by
  induction lines with
  | nil => exact spaced
  | cons line rest ih =>
      rw [List.flatten_cons, List.append_assoc]
      exact ih.cons line

theorem filter_blank (blanks : Blank blank) : blank.filter (fun c => !isWhitespace c) = [] := by
  rw [List.filter_eq_nil_iff]
  intro c member
  simp [blanks c member]

/-- The lines have the characters of the text, each once and in order, but for whitespace. -/
theorem Spaced.filter (spaced : Spaced lines text) :
    lines.flatten.filter (fun c => !isWhitespace c) = text.filter fun c => !isWhitespace c := by
  induction lines generalizing text with
  | nil => exact (filter_blank spaced).symm
  | cons line rest ih =>
      rcases spaced with ⟨front, after, shape, fronts, later⟩
      rw [shape, List.flatten_cons, List.filter_append, List.filter_append, List.filter_append,
        filter_blank fronts, ih later, List.nil_append]

end Spaced

section Layout

variable (maxBytes : Nat)

theorem charLines_ne_nil (word current : Str) :
    ∀ line ∈ (charLines maxBytes current word).1, line ≠ [] := by
  induction word generalizing current with
  | nil => simp [charLines]
  | cons c rest ih =>
      by_cases full : utf8Length current + c.utf8Size > maxBytes ∧ current ≠ []
      · simp only [charLines, if_pos full, List.mem_cons]
        rintro line (same | later)
        · rw [same]
          exact full.2
        · exact ih [c] line later
      · simp only [charLines, if_neg full]
        exact ih (current ++ [c])

/-- A line is closed only when something is on it. -/
theorem layout_ne_nil (words : List Str) (current : Str) :
    ∀ line ∈ layout maxBytes current words, line ≠ [] := by
  have closed : ∀ current : Str, ∀ line ∈ (if current ≠ [] then [current] else []), line ≠ [] := by
    intro current line member
    by_cases nothing : current = []
    · simp [nothing] at member
    · have same : line = current := by simpa [nothing] using member
      rw [same]
      exact nothing
  induction words generalizing current with
  | nil => exact closed current
  | cons word rest ih =>
      by_cases fits : utf8Length current + utf8Length word ≤ maxBytes
      · simp only [layout, if_pos fits]
        exact ih (current ++ word)
      · by_cases trimmed : utf8Length (trim word) ≤ maxBytes
        · simp only [layout, if_neg fits, if_pos trimmed, List.mem_append]
          rintro line (here | later)
          · exact closed current line here
          · exact ih (trimStart word) line later
        · simp only [layout, if_neg fits, if_neg trimmed, List.mem_append]
          rintro line (here | later)
          · exact charLines_ne_nil maxBytes word current line here
          · exact ih _ line later

/-- The lines are the open line and the words, but for whitespace between lines. -/
theorem layout_spaced (words : List Str) (current : Str) :
    Spaced (layout maxBytes current words) (current ++ words.flatten) := by
  have closed (current tail : Str) (lines : List Str) (later : Spaced lines tail) :
      Spaced ((if current ≠ [] then [current] else []) ++ lines) (current ++ tail) := by
    by_cases nothing : current = []
    · simpa [nothing] using later
    · simpa [nothing] using later.cons current
  induction words generalizing current with
  | nil =>
      have nothing : Spaced [] ([] : Str) := by simp [Spaced, Blank]
      simpa [layout] using closed current [] [] nothing
  | cons word rest ih =>
      by_cases fits : utf8Length current + utf8Length word ≤ maxBytes
      · simp only [layout, if_pos fits, List.flatten_cons, ← List.append_assoc]
        exact ih (current ++ word)
      · by_cases trimmed : utf8Length (trim word) ≤ maxBytes
        · simp only [layout, if_neg fits, if_pos trimmed]
          apply closed
          have whole : word.takeWhile isWhitespace ++ trimStart word = word :=
            List.takeWhile_append_dropWhile
          have blanks : Blank (word.takeWhile isWhitespace) := fun c => List.mem_takeWhile_imp
          have later := (ih (trimStart word)).behind blanks
          rwa [← List.append_assoc, whole] at later
        · have whole := charLines_flatten maxBytes word current
          simp only [layout, if_neg fits, if_neg trimmed, List.flatten_cons]
          rw [← List.append_assoc, ← whole, List.append_assoc]
          exact (ih _).joined _

theorem split_spaced (text : Str) : Spaced (splitIrcMessage text maxBytes) text := by
  by_cases short : utf8Length text ≤ maxBytes
  · rw [splitIrcMessage_short maxBytes text short]
    exact ⟨[], [], by simp, by simp [Blank], by simp [Spaced, Blank]⟩
  · rw [splitIrcMessage_long maxBytes text (by omega)]
    have spaced := layout_spaced maxBytes (splitWords text.length text) []
    rwa [List.nil_append, splitWords_flatten text.length text le_rfl] at spaced

theorem split_ne_nil (text : Str) (some_ : text ≠ []) :
    ∀ line ∈ splitIrcMessage text maxBytes, line ≠ [] := by
  by_cases short : utf8Length text ≤ maxBytes
  · rw [splitIrcMessage_short maxBytes text short]
    simpa using some_
  · rw [splitIrcMessage_long maxBytes text (by omega)]
    exact layout_ne_nil maxBytes _ []

/-- A word too long only by the whitespace behind it. -/
theorem overlong_wordAndBlank (word : Str) (wide : Overlong maxBytes word)
    (shape : ∃ solid blank, word = solid ++ blank ∧ (∀ c ∈ solid, isWhitespace c = false) ∧
      ∀ c ∈ blank, isWhitespace c = true) : WordAndBlank maxBytes (trimStart word) := by
  rcases shape with ⟨solid, blank, rfl, plain, blanks⟩
  refine ⟨solid, blank, (overlong_shape maxBytes solid blank plain blanks wide).1, plain, blanks, ?_⟩
  have fits := wide.1
  have front : trim (solid ++ blank) = solid := by
    rw [trim, (overlong_shape maxBytes solid blank plain blanks wide).1, List.reverse_append,
      trimStart, List.dropWhile_append_of_pos (by simpa using blanks)]
    exact (congrArg List.reverse (trimStart_solid solid.reverse (by simpa using plain))).trans
      solid.reverse_reverse
  rwa [front] at fits

theorem split_within (room : 4 ≤ maxBytes) (text : Str) : ∀ line ∈ splitIrcMessage text maxBytes,
    utf8Length line ≤ maxBytes ∨ WordAndBlank maxBytes line := by
  intro line member
  by_cases long : maxBytes < utf8Length line
  · right
    by_cases short : utf8Length text ≤ maxBytes
    · rw [splitIrcMessage_short maxBytes text short, List.mem_singleton] at member
      rw [member] at long
      omega
    · rw [splitIrcMessage_long maxBytes text (by omega)] at member
      rcases layout_overlong maxBytes room _ [] (by simp) line member long with ⟨word, here, wide, rfl⟩
      exact overlong_wordAndBlank maxBytes word wide (splitWords_shape text.length text word here)
  · left
    omega

end Layout

/-- The split loses nothing but whitespace between the lines, has no empty line unless the text is
empty, and keeps to the limit but for a word with whitespace behind it. -/
theorem split_keeps (text : Str) (maxBytes : Nat) (room : 4 ≤ maxBytes) :
    (text ≠ [] → ∀ line ∈ splitIrcMessage text maxBytes, line ≠ []) ∧
      Spaced (splitIrcMessage text maxBytes) text ∧
      (splitIrcMessage text maxBytes).flatten.filter (fun c => !isWhitespace c) =
        text.filter (fun c => !isWhitespace c) ∧
      ∀ line ∈ splitIrcMessage text maxBytes,
        utf8Length line ≤ maxBytes ∨ WordAndBlank maxBytes line :=
  ⟨split_ne_nil maxBytes text, split_spaced maxBytes text, (split_spaced maxBytes text).filter,
    split_within maxBytes room text⟩

theorem split_keeps_two_words :
    Spaced (splitIrcMessage "hello world".toList 10) "hello world".toList :=
  (split_keeps "hello world".toList 10 (by decide)).2.1

/-- The empty text is one empty line; and whitespace behind a word goes over the limit. -/
theorem split_empty_line :
    splitIrcMessage [] 4 = [[]] ∧
      splitIrcMessage "aaa      b".toList 4 = ["aaa      ".toList, "b".toList] ∧
      utf8Length "aaa      ".toList = 9 := by
  decide +kernel

end Repartee.App
