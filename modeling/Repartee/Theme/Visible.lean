import Repartee.Lib.Scan
import Repartee.Theme.Parser

/-!
What is left of a text when its format codes and control sequences are removed, told on characters,
and when the parser's spans are that text.
-/

namespace Repartee.Theme

open Repartee.Text
open Repartee.Lib

/-! ### The codes of a text -/

def controlCodes : Str := ['\x02', '\x03', '\x04', '\x0F', '\x11', '\x16', '\x1D', '\x1E', '\x1F']

/-- What follows one or two digits, if there are any. -/
def skipDigits : Str → Option Str
  | [] => none
  | a :: rest =>
      if digitCode a.toNat then
        match rest with
        | b :: more => if digitCode b.toNat then some more else some rest
        | [] => some rest
      else none

def skipHex6 (s : Str) : Option Str :=
  if 6 ≤ s.length ∧ (s.take 6).all (fun c => hexCode c.toNat) = true then some (s.drop 6) else none

/-- What follows an operand and, behind a comma, a second one. -/
def skipOperands (operand : Str → Option Str) (s : Str) : Str :=
  match operand s with
  | none => s
  | some after =>
      match after with
      | c :: more => if c = ',' then (operand more).getD after else after
      | [] => after

/-- What stands for the code behind a percent sign, and what follows it. -/
def formatCode : Str → Option (Str × Str)
  | [] => none
  | c :: rest =>
      if c = '%' then some (['%'], rest)
      else if c ∈ "Nn_uid|".toList ∨ (colorMap c).isSome = true then some ([], rest)
      else if c = 'Z' ∨ c = 'z' then (skipHex6 rest).map fun after => ([], after)
      else none

/-- The code or control sequence a text begins with. -/
def codeAt (c : Char) (rest : Str) : Option (Str × Str) :=
  if c = '%' then formatCode rest
  else if c = '\x03' then some ([], skipOperands skipDigits rest)
  else if c = '\x04' then some ([], skipOperands skipHex6 rest)
  else if c ∈ controlCodes then some ([], rest)
  else none

def readVisible (c : Char) (rest : Str) : Str × Str := (codeAt c rest).getD ([c], rest)

/-- The text without its codes; a doubled percent sign stands for one. -/
def visible (s : Str) : Str := (scan readVisible s).flatten

/-- A percent sign that stands for itself is not followed by a control character, nor by one that
is not ASCII. -/
def cleanAt (c : Char) (rest : Str) : Bool :=
  !(c = '%' && (formatCode rest).isNone && rest.head?.any fun d => 0x80 ≤ d.toNat || d ∈ controlCodes)

def readClean (c : Char) (rest : Str) : Bool × Str := (cleanAt c rest, (readVisible c rest).2)

def Clean (s : Str) : Prop := ∀ clean ∈ scan readClean s, clean = true

/-- The spans hold the text without its codes. -/
def Faithful (text : Str) : Prop :=
  ∃ spans, parseFormatString text = .ok spans ∧ spans.flatMap StyledSpan.text = visible text

section Advancing

theorem skipDigits_shorter (s after : Str) (found : skipDigits s = some after) :
    after.length < s.length := by
  unfold skipDigits at found
  cases s with
  | nil => cases found
  | cons a rest =>
      cases rest with
      | nil =>
          simp only [Option.ite_none_right_eq_some, Option.some.injEq] at found
          rw [← found.2]
          simp
      | cons b more =>
          simp only [Option.ite_none_right_eq_some] at found
          rcases found with ⟨_, found⟩
          split at found
          · rw [← Option.some.inj found]
            simp only [List.length_cons]
            omega
          · rw [← Option.some.inj found]
            simp

theorem skipHex6_shorter (s after : Str) (found : skipHex6 s = some after) :
    after.length < s.length := by
  simp only [skipHex6, Option.ite_none_right_eq_some, Option.some.injEq] at found
  rw [← found.2, List.length_drop]
  have := found.1.1
  omega

theorem skipOperands_le {operand : Str → Option Str}
    (shorter : ∀ s after, operand s = some after → after.length < s.length) (s : Str) :
    (skipOperands operand s).length ≤ s.length := by
  unfold skipOperands
  cases first : operand s with
  | none => exact le_rfl
  | some after =>
      have less := shorter s after first
      cases after with
      | nil => simp
      | cons c more =>
          simp only [List.length_cons] at less
          simp only
          split
          · cases second : operand more with
            | none =>
                simp only [Option.getD_none, List.length_cons]
                omega
            | some rest =>
                have := shorter more rest second
                simp only [Option.getD_some]
                omega
          · simp only [List.length_cons]
            omega

theorem formatCode_le (s : Str) (found : Str × Str) (code : formatCode s = some found) :
    found.2.length ≤ s.length := by
  cases s with
  | nil => cases code
  | cons c rest =>
      simp only [formatCode] at code
      split at code
      · rw [← Option.some.inj code]
        simp
      · split at code
        · rw [← Option.some.inj code]
          simp
        · split at code
          · rcases Option.map_eq_some_iff.mp code with ⟨after, hex, rfl⟩
            have := skipHex6_shorter rest after hex
            simp only [List.length_cons]
            omega
          · cases code

theorem codeAt_le (c : Char) (rest : Str) (found : Str × Str) (code : codeAt c rest = some found) :
    found.2.length ≤ rest.length := by
  unfold codeAt at code
  split at code
  · exact formatCode_le rest found code
  · split at code
    · rw [← Option.some.inj code]
      exact skipOperands_le skipDigits_shorter rest
    · split at code
      · rw [← Option.some.inj code]
        exact skipOperands_le skipHex6_shorter rest
      · split at code
        · rw [← Option.some.inj code]
        · cases code

theorem readVisible_advances : Advancing readVisible := by
  intro c rest
  unfold readVisible
  cases code : codeAt c rest with
  | none => exact le_rfl
  | some found => exact codeAt_le c rest found code

theorem readClean_advances : Advancing readClean := readVisible_advances

theorem visible_cons (c : Char) (rest : Str) :
    visible (c :: rest) = (readVisible c rest).1 ++ visible (readVisible c rest).2 := by
  rw [visible, scan_cons readVisible_advances, List.flatten_cons]
  rfl

theorem visible_code {c : Char} {rest : Str} {found : Str × Str} (code : codeAt c rest = some found) :
    visible (c :: rest) = found.1 ++ visible found.2 := by
  rw [visible_cons, readVisible, code]
  rfl

theorem visible_plain {c : Char} {rest : Str} (plain : codeAt c rest = none) :
    visible (c :: rest) = c :: visible rest := by
  rw [visible_cons, readVisible, plain]
  rfl

theorem clean_cons (c : Char) (rest : Str) :
    Clean (c :: rest) ↔ cleanAt c rest = true ∧ Clean (readVisible c rest).2 := by
  unfold Clean
  rw [scan_cons readClean_advances]
  simp [readClean]

end Advancing

theorem formatCode_shown (s : Str) (found : Str × Str) (code : formatCode s = some found) :
    found.1 = [] ∨ found.1 = ['%'] := by
  cases s with
  | nil => cases code
  | cons c rest =>
      simp only [formatCode] at code
      split at code
      · exact Or.inr (by rw [← Option.some.inj code])
      · split at code
        · exact Or.inl (by rw [← Option.some.inj code])
        · split at code
          · rcases Option.map_eq_some_iff.mp code with ⟨after, _, rfl⟩
            exact Or.inl rfl
          · cases code

theorem codeAt_shown (c : Char) (rest : Str) (found : Str × Str) (code : codeAt c rest = some found) :
    found.1 = [] ∨ found.1 = ['%'] := by
  unfold codeAt at code
  split at code
  · exact formatCode_shown rest found code
  · left
    split at code
    · rw [← Option.some.inj code]
    · split at code
      · rw [← Option.some.inj code]
      · split at code
        · rw [← Option.some.inj code]
        · cases code

theorem percent_not_control : '%' ∉ controlCodes := by decide

/-- A character where no code begins is no control character. -/
theorem codeAt_none {c : Char} {rest : Str} (plain : codeAt c rest = none) : c ∉ controlCodes := by
  intro control
  unfold codeAt at plain
  split at plain
  · rename_i percent
    exact percent_not_control (percent ▸ control)
  · split at plain
    · cases plain
    · split at plain
      · cases plain
      · cases plain

/-- No control character is left. -/
theorem visible_unmarked (s : Str) : ∀ c ∈ visible s, c ∉ controlCodes := by
  induction s using scan_induction readVisible_advances with
  | nil => simp [visible]
  | round c rest ih =>
      intro d member
      cases code : codeAt c rest with
      | none =>
          have later : d ∈ visible rest → d ∉ controlCodes := by
            simpa [readVisible, code] using ih d
          rw [visible_plain code] at member
          rcases List.mem_cons.mp member with rfl | there
          · exact codeAt_none code
          · exact later there
      | some found =>
          have later : d ∈ visible found.2 → d ∉ controlCodes := by
            simpa [readVisible, code] using ih d
          rw [visible_code code] at member
          rcases List.mem_append.mp member with here | there
          · rcases codeAt_shown c rest found code with none_ | percent
            · simp [none_] at here
            · rw [percent, List.mem_singleton] at here
              exact here ▸ percent_not_control
          · exact later there

/-! ### The bytes of a text -/

theorem asChar_ofNat (c : Char) (ascii : c.toNat < 0x80) : asChar (UInt8.ofNat c.toNat) = c := by
  rw [asChar, Utf8.toNat_ofNat c.toNat (by omega), Char.ofNat_toNat]

theorem asChar_toNat (b : UInt8) : (asChar b).toNat = b.toNat := by
  have small := b.toNat_lt
  have valid : b.toNat.isValidChar := by
    unfold Nat.isValidChar
    omega
  rw [asChar, Char.toNat_ofNat, if_pos valid]

theorem asChar_wide (b : UInt8) (wide : 0x80 ≤ b.toNat) (c : Char) (ascii : c.toNat < 0x80) :
    asChar b ≠ c := by
  intro same
  rw [← same, asChar_toNat] at ascii
  omega

theorem hexCode_ascii (n : Nat) (hex : hexCode n = true) : n < 0x80 := by
  simp only [hexCode, decide_eq_true_eq] at hex
  omega

theorem digitCode_ascii (n : Nat) (digit : digitCode n = true) : n < 0x80 := by
  simp only [digitCode, decide_eq_true_eq] at digit
  omega

theorem colorMap_ascii (c : Char) (known : (colorMap c).isSome = true) : c.toNat < 0x80 := by
  rw [colorMap, Option.isSome_map] at known
  rcases Option.isSome_iff_exists.mp known with ⟨hex, found⟩
  have member : (c, hex) ∈ colorTable := by
    rw [List.lookup_eq_some_iff] at found
    rcases found with ⟨before, after, shape, _⟩
    rw [shape]
    simp
  have all : ∀ entry ∈ colorTable, entry.1.toNat < 0x80 := by decide
  exact all (c, hex) member

theorem readHex6_utf8 (s : Str) :
    (skipHex6 s = none ∧ readHex6Bytes (utf8 s) = none) ∨
      ∃ hex after, skipHex6 s = some after ∧ readHex6Bytes (utf8 s) = some hex ∧
        (utf8 s).drop 6 = utf8 after := by
  have run := Utf8.ascii_run hexCode hexCode_ascii 6 s
  unfold skipHex6 readHex6Bytes
  by_cases here : 6 ≤ s.length ∧ (s.take 6).all (fun c => hexCode c.toNat) = true
  · right
    rw [if_pos here, if_pos (run.1.mpr here)]
    exact ⟨_, _, rfl, rfl, (run.2 here.1 here.2).1⟩
  · left
    rw [if_neg here, if_neg (mt run.1.mp here)]
    exact ⟨rfl, rfl⟩

/-- The first byte has a property of ASCII exactly when the first character has it. -/
theorem head_ascii (p : Nat → Bool) (ascii : ∀ n, p n = true → n < 0x80) (s : Str) :
    (∃ c rest, s = c :: rest ∧ p c.toNat = true ∧ utf8 s = UInt8.ofNat c.toNat :: utf8 rest ∧
        (UInt8.ofNat c.toNat).toNat = c.toNat) ∨
      ((∀ c rest, s = c :: rest → p c.toNat = false) ∧
        ∀ b more, utf8 s = b :: more → p b.toNat = false) := by
  cases s with
  | nil =>
      right
      constructor
      · intro c rest shape
        cases shape
      · intro b more shape
        cases shape
  | cons c rest =>
      cases held : p c.toNat with
      | true =>
          have small := ascii c.toNat held
          exact Or.inl ⟨c, rest, rfl, held, Utf8.utf8_ascii c rest small,
            Utf8.toNat_ofNat c.toNat (by omega)⟩
      | false =>
          right
          constructor
          · intro d more shape
            rw [← (List.cons.inj shape).1]
            exact held
          · intro b more shape
            rcases Utf8.utf8_head (c :: rest) b (by rw [shape]; rfl) with ⟨d, after, same, kind⟩
            rw [List.cons.injEq] at same
            rw [← same.1] at kind
            rcases kind with ⟨small, rfl⟩ | ⟨_, high⟩
            · rw [Utf8.toNat_ofNat c.toNat (by omega)]
              exact held
            · cases odd : p b.toNat with
              | false => rfl
              | true =>
                  have := ascii b.toNat odd
                  omega

theorem readColor_utf8 (s : Str) :
    (skipDigits s = none ∧ readColor (utf8 s) = none) ∨
      ∃ n after, skipDigits s = some after ∧ readColor (utf8 s) = some (n, utf8 after) := by
  rcases head_ascii digitCode digitCode_ascii s with ⟨c, rest, rfl, digit, bytes, value⟩ | ⟨none_, none'⟩
  · right
    rw [bytes]
    rcases head_ascii digitCode digitCode_ascii rest with
      ⟨d, more, rfl, digit', bytes', value'⟩ | ⟨none_, none'⟩
    · rw [bytes']
      simp only [skipDigits, readColor, value, value', digit, digit', if_true]
      exact ⟨_, _, rfl, rfl⟩
    · refine ⟨c.toNat - 48, rest, ?_, ?_⟩
      · cases rest with
        | nil => simp [skipDigits, digit]
        | cons d more => simp [skipDigits, digit, none_ d more rfl]
      · cases shape : utf8 rest with
        | nil => simp [readColor, value, digit]
        | cons b more => simp [readColor, value, digit, none' b more shape]
  · left
    constructor
    · cases s with
      | nil => rfl
      | cons c rest => simp [skipDigits, none_ c rest rfl]
    · cases shape : utf8 s with
      | nil => rfl
      | cons b more => simp [readColor, none' b more shape]

theorem comma_utf8 (s : Str) :
    (∃ more, s = ',' :: more ∧ utf8 s = UInt8.ofNat 44 :: utf8 more) ∨
      ((∀ more, s ≠ ',' :: more) ∧ ∀ b more, utf8 s = b :: more → asChar b ≠ ',') := by
  have comma : ∀ n, decide (n = 44) = true → n < 0x80 := by
    intro n same
    rw [decide_eq_true_eq] at same
    omega
  rcases head_ascii (fun n => decide (n = 44)) comma s with ⟨c, rest, rfl, here, bytes, _⟩ | ⟨none_, none'⟩
  · left
    have value : c.toNat = 44 := by simpa using here
    have same : c = ',' := Char.toNat_inj.mp value
    subst same
    exact ⟨rest, rfl, bytes⟩
  · right
    constructor
    · intro more shape
      have away := none_ ',' more shape
      revert away
      decide
    · intro b more shape same
      have away := none' b more shape
      rw [← asChar_toNat, same] at away
      revert away
      decide

theorem colorToken_utf8 (s : Str) :
    ∃ change, colorToken (utf8 s) = (.style change, utf8 (skipOperands skipDigits s)) := by
  unfold colorToken skipOperands
  rcases readColor_utf8 s with ⟨first, read⟩ | ⟨n, after, first, read⟩
  · simp only [first, read]
    exact ⟨_, rfl⟩
  · simp only [first, read]
    rcases comma_utf8 after with ⟨more, rfl, bytes⟩ | ⟨none_, none'⟩
    · have comma : asChar (UInt8.ofNat 44) = ',' := by decide
      have second : afterComma readColor (utf8 (',' :: more)) = readColor (utf8 more) := by
        rw [bytes, afterComma, if_pos comma]
      rcases readColor_utf8 more with ⟨alone, read'⟩ | ⟨m, rest, both, read'⟩
      · simp only [second, read', alone, if_true, Option.getD_none]
        exact ⟨_, rfl⟩
      · simp only [second, read', both, if_true, Option.getD_some]
        exact ⟨_, rfl⟩
    · have second : afterComma readColor (utf8 after) = none := by
        cases shape : utf8 after with
        | nil => rfl
        | cons b more => exact if_neg (none' b more shape)
      simp only [second]
      cases after with
      | nil => exact ⟨_, rfl⟩
      | cons c more =>
          have away : c ≠ ',' := fun same => none_ more (same ▸ rfl)
          simp only [if_neg away]
          exact ⟨_, rfl⟩

theorem hexColorToken_utf8 (s : Str) :
    ∃ change, hexColorToken (utf8 s) = (.style change, utf8 (skipOperands skipHex6 s)) := by
  unfold hexColorToken skipOperands
  rcases readHex6_utf8 s with ⟨first, read⟩ | ⟨hex, after, first, read, left_⟩
  · simp only [first, read]
    exact ⟨_, rfl⟩
  · simp only [first, read, left_]
    rcases comma_utf8 after with ⟨more, rfl, bytes⟩ | ⟨none_, none'⟩
    · have comma : asChar (UInt8.ofNat 44) = ',' := by decide
      have second : afterComma readHex6Bytes (utf8 (',' :: more)) = readHex6Bytes (utf8 more) := by
        rw [bytes, afterComma, if_pos comma]
      rcases readHex6_utf8 more with ⟨alone, read'⟩ | ⟨hex', rest, both, read', left'⟩
      · simp only [second, read', alone, if_true, Option.getD_none]
        exact ⟨_, rfl⟩
      · have dropped : (utf8 s).drop 13 = utf8 rest := by
          calc
            (utf8 s).drop 13 = (((utf8 s).drop 6).drop 1).drop 6 := by simp [List.drop_drop]
            _ = utf8 rest := by rw [left_, bytes, List.drop_one, List.tail_cons, left']
        simp only [second, read', both, if_true, Option.getD_some, dropped]
        exact ⟨_, rfl⟩
    · have second : afterComma readHex6Bytes (utf8 after) = none := by
        cases shape : utf8 after with
        | nil => rfl
        | cons b more => exact if_neg (none' b more shape)
      simp only [second]
      cases after with
      | nil => exact ⟨_, rfl⟩
      | cons c more =>
          have away : c ≠ ',' := fun same => none_ more (same ▸ rfl)
          simp only [if_neg away]
          exact ⟨_, rfl⟩

/-! ### The rounds of the parser -/

/-- What a round adds to the text of the spans. -/
def Token.shown : Token → Str
  | .style _ => []
  | .keep text => text
  | .flushKeep text => text

def Walk.text (w : Walk) : Str := w.spans.flatMap StyledSpan.text ++ w.buffer

theorem flush_text (w : Walk) : w.flush.text = w.text ∧ w.flush.buffer = [] := by
  unfold Walk.flush
  cases buffer : w.buffer with
  | nil => simp [buffer]
  | cons c rest => simp [Walk.text, buffer]

theorem apply_text (w : Walk) (token : Token) : (w.apply token).text = w.text ++ token.shown := by
  have flushed := flush_text w
  cases token with
  | style change =>
      rw [Token.shown, List.append_nil, ← flushed.1]
      rfl
  | keep text => simp [Walk.apply, Walk.text, Token.shown]
  | flushKeep text =>
      rw [Token.shown, ← flushed.1]
      simp [Walk.apply, Walk.text]

theorem finish_text (w : Walk) : w.finish.flatMap StyledSpan.text = w.text := by
  have flushed := flush_text w
  have whole : w.flush.spans.flatMap StyledSpan.text = w.text := by
    rw [← flushed.1, Walk.text, flushed.2, List.append_nil]
  unfold Walk.finish
  cases spans : w.flush.spans with
  | nil =>
      rw [← whole, spans]
      rfl
  | cons span rest =>
      rw [← whole, spans]
      rfl

/-- A code behind a percent sign is read as it is; what is no code is kept. -/
theorem formatToken_utf8 (d : Char) (rest : Str) (ascii : d.toNat < 0x80) :
    ∃ token, formatToken (utf8 (d :: rest)) =
        (token, utf8 ((formatCode (d :: rest)).getD (['%', d], rest)).2) ∧
      token.shown = ((formatCode (d :: rest)).getD (['%', d], rest)).1 := by
  rw [Utf8.utf8_ascii d rest ascii]
  unfold formatToken formatCode
  simp only [asChar_ofNat d ascii]
  have hex := readHex6_utf8 rest
  by_cases known : d ∈ "Nn_uid|Zz%".toList
  · have cases_ : d = 'N' ∨ d = 'n' ∨ d = '_' ∨ d = 'u' ∨ d = 'i' ∨ d = 'd' ∨ d = '|' ∨ d = 'Z' ∨
        d = 'z' ∨ d = '%' := by simpa using known
    rcases cases_ with rfl | rfl | rfl | rfl | rfl | rfl | rfl | rfl | rfl | rfl
    case inr.inr.inr.inr.inr.inr.inr.inl =>
      have unknown : (colorMap 'Z').isSome = false := by decide
      rcases hex with ⟨none_, none'⟩ | ⟨hex, after, some_, some', left_⟩
      · simp [none_, none', unknown, Token.shown]
      · simp [some_, some', left_, unknown, Token.shown]
    case inr.inr.inr.inr.inr.inr.inr.inr.inl =>
      have unknown : (colorMap 'z').isSome = false := by decide
      rcases hex with ⟨none_, none'⟩ | ⟨hex, after, some_, some', left_⟩
      · simp [none_, none', unknown, Token.shown]
      · simp [some_, some', left_, unknown, Token.shown]
    all_goals simp [Token.shown]
  · have away : d ≠ 'N' ∧ d ≠ 'n' ∧ d ≠ '_' ∧ d ≠ 'u' ∧ d ≠ 'i' ∧ d ≠ 'd' ∧ d ≠ '|' ∧ d ≠ 'Z' ∧
        d ≠ 'z' ∧ d ≠ '%' := by simpa [not_or] using known
    rcases away with ⟨n1, n2, n3, n4, n5, n6, n7, n8, n9, n10⟩
    cases colorMap d with
    | none => simp [n1, n2, n3, n4, n5, n6, n7, n8, n9, n10, Token.shown]
    | some hex => simp [n1, n2, n3, n4, n5, n6, n7, n8, n9, n10, Token.shown]

theorem formatCode_wide (d : Char) (rest : Str) (wide : 0x80 ≤ d.toNat) :
    formatCode (d :: rest) = none := by
  have away (c : Char) (ascii : c.toNat < 0x80) : d ≠ c := by
    rintro rfl
    omega
  have unknown : (colorMap d).isSome = false := by
    cases known : (colorMap d).isSome with
    | false => rfl
    | true =>
        have := colorMap_ascii d known
        omega
  have others : d ∉ "Nn_uid|".toList := by
    simp [away 'N' (by decide), away 'n' (by decide), away '_' (by decide), away 'u' (by decide),
      away 'i' (by decide), away 'd' (by decide), away '|' (by decide)]
  have neither : ¬(d ∈ "Nn_uid|".toList ∨ (colorMap d).isSome = true) := by
    rw [unknown]
    exact not_or.mpr ⟨others, Bool.false_ne_true⟩
  rw [formatCode, if_neg (away '%' (by decide)), if_neg neither,
    if_neg (not_or.mpr ⟨away 'Z' (by decide), away 'z' (by decide)⟩)]

theorem styleControl_isSome (c : Char) (control : c ∈ controlCodes) (color : c ≠ '\x03')
    (hex : c ≠ '\x04') (mono_ : c ≠ '\x11') : (styleControl c).isSome = true := by
  simp only [controlCodes, List.mem_cons, List.not_mem_nil, or_false] at control
  rcases control with rfl | rfl | rfl | rfl | rfl | rfl | rfl | rfl | rfl
  case inr.inl => exact absurd rfl color
  case inr.inr.inl => exact absurd rfl hex
  case inr.inr.inr.inr.inl => exact absurd rfl mono_
  all_goals rfl

theorem styleControl_eq_none (c : Char) (plain : c ∉ controlCodes) : styleControl c = none := by
  have away (d : Char) (control : d ∈ controlCodes) : c ≠ d := by
    rintro rfl
    exact plain control
  simp [styleControl, away '\x02' (by decide), away '\x0F' (by decide), away '\x16' (by decide),
    away '\x1D' (by decide), away '\x1E' (by decide), away '\x1F' (by decide)]

theorem controlCodes_ascii (c : Char) (control : c ∈ controlCodes) : c.toNat < 0x80 := by
  simp only [controlCodes, List.mem_cons, List.not_mem_nil, or_false] at control
  rcases control with rfl | rfl | rfl | rfl | rfl | rfl | rfl | rfl | rfl
  all_goals decide

/-- A round where no code begins takes one character. -/
theorem nextToken_plain (c : Char) (rest : Str) (percent : c ≠ '%') (plain : c ∉ controlCodes)
    (b : UInt8) (more : Bytes) (bytes : utf8 (c :: rest) = b :: more) :
    nextToken b more = some (.keep [c], utf8 rest) := by
  have kind : (c.toNat < 0x80 ∧ asChar b = c) ∨ 0x80 ≤ b.toNat := by
    rcases Utf8.utf8_head (c :: rest) b (by rw [bytes]; rfl) with ⟨d, after, same, ⟨small, rfl⟩ | ⟨_, high⟩⟩
    · rw [List.cons.injEq] at same
      rw [same.1]
      exact Or.inl ⟨small, asChar_ofNat d small⟩
    · exact Or.inr (by omega)
  have away (d : Char) (ascii : d.toNat < 0x80) (other : c ≠ d) : asChar b ≠ d := by
    rcases kind with ⟨_, same⟩ | high
    · rwa [same]
    · exact asChar_wide b high d ascii
  have unstyled : styleControl (asChar b) = none := by
    apply styleControl_eq_none
    intro control
    exact away (asChar b) (controlCodes_ascii _ control) (fun same => plain (same ▸ control)) rfl
  have distinct (d : Char) (control : d ∈ controlCodes) : asChar b ≠ d :=
    away d (controlCodes_ascii d control) fun same => plain (same ▸ control)
  have read := Utf8.firstChar?_utf8 c rest
  rw [bytes] at read
  simp only [nextToken, if_neg (away '%' (by decide) percent), if_neg (distinct '\x03' (by decide)),
    if_neg (distinct '\x04' (by decide)), if_neg (distinct '\x11' (by decide)), unstyled, read,
    Option.map_some]

/-- What a round does to a text that is clean at its front. -/
structure Round (c : Char) (rest : Str) (b : UInt8) (more : Bytes) : Prop where
  reads : ∃ token after, nextToken b more = some (token, utf8 after) ∧
    after.length ≤ rest.length ∧ visible (c :: rest) = token.shown ++ visible after ∧
    (Clean after ↔ Clean (readVisible c rest).2)

theorem round_code {c : Char} {rest : Str} {b : UInt8} {more : Bytes} {token : Token}
    {found : Str × Str} (code : codeAt c rest = some found) (shown : token.shown = found.1)
    (next : nextToken b more = some (token, utf8 found.2)) : Round c rest b more where
  reads := by
    refine ⟨token, found.2, next, codeAt_le c rest found code, ?_, ?_⟩
    · rw [shown, visible_code code]
    · rw [readVisible, code]
      rfl

theorem round_percent (rest : Str) (clean : cleanAt '%' rest = true) :
    Round '%' rest (UInt8.ofNat 37) (utf8 rest) where
  reads := by
    have percent : asChar (UInt8.ofNat 37) = '%' := by decide
    have next : nextToken (UInt8.ofNat 37) (utf8 rest) = some (formatToken (utf8 rest)) := by
      rw [nextToken, if_pos percent]
    cases rest with
    | nil =>
        refine ⟨.keep ['%'], [], next, le_rfl, ?_, Iff.rfl⟩
        rw [visible_plain rfl]
        rfl
    | cons d after =>
        by_cases ascii : d.toNat < 0x80
        · rcases formatToken_utf8 d after ascii with ⟨token, format, shown⟩
          rw [format] at next
          cases code : formatCode (d :: after) with
          | some found =>
              have here : codeAt '%' (d :: after) = some found := code
              rw [code] at next shown
              exact (round_code here shown next).reads
          | none =>
              have plain : d ∉ controlCodes ∧ d ≠ '%' := by
                constructor
                · intro control
                  simp [cleanAt, code, control] at clean
                · rintro rfl
                  cases code
              have inert : codeAt d after = none := by
                have away (e : Char) (control : e ∈ controlCodes) : d ≠ e := by
                  rintro rfl
                  exact plain.1 control
                simp [codeAt, plain, away '\x03' (by decide), away '\x04' (by decide)]
              have unread : codeAt '%' (d :: after) = none := code
              refine ⟨token, after, ?_, by simp, ?_, ?_⟩
              · rw [next, code]
                rfl
              · rw [shown, code, visible_plain unread, visible_plain inert]
                rfl
              · rw [readVisible, unread, Option.getD_none, clean_cons, readVisible, inert]
                simp [cleanAt, plain.2]
        · have wide : 0x80 ≤ d.toNat := by omega
          simp [cleanAt, formatCode_wide d after wide, wide] at clean

theorem round_clean (c : Char) (rest : Str) (clean : cleanAt c rest = true) (b : UInt8) (more : Bytes)
    (bytes : utf8 (c :: rest) = b :: more) : Round c rest b more := by
  by_cases special : c = '%' ∨ c ∈ controlCodes
  · have ascii : c.toNat < 0x80 := by
      rcases special with rfl | control
      · decide
      · exact controlCodes_ascii c control
    rw [Utf8.utf8_ascii c rest ascii, List.cons.injEq] at bytes
    rcases bytes with ⟨rfl, rfl⟩
    have same := asChar_ofNat c ascii
    by_cases percent : c = '%'
    · subst percent
      exact round_percent rest clean
    · have control := special.resolve_left percent
      by_cases color : c = '\x03'
      · rcases colorToken_utf8 rest with ⟨change, token⟩
        exact round_code (by rw [codeAt, if_neg percent, if_pos color]) rfl
          (by rw [nextToken, same, if_neg percent, if_pos color, token])
      · by_cases hex : c = '\x04'
        · rcases hexColorToken_utf8 rest with ⟨change, token⟩
          exact round_code (by rw [codeAt, if_neg percent, if_neg color, if_pos hex]) rfl
            (by rw [nextToken, same, if_neg percent, if_neg color, if_pos hex, token])
        · have code : codeAt c rest = some ([], rest) := by
            rw [codeAt, if_neg percent, if_neg color, if_neg hex, if_pos control]
          by_cases mono_ : c = '\x11'
          · exact round_code code rfl
              (by rw [nextToken, same, if_neg percent, if_neg color, if_neg hex, if_pos mono_])
          · rcases Option.isSome_iff_exists.mp (styleControl_isSome c control color hex mono_) with
              ⟨change, styled⟩
            have next : nextToken (UInt8.ofNat c.toNat) (utf8 rest) =
                some (.style change, utf8 rest) := by
              simp only [nextToken, same, if_neg percent, if_neg color, if_neg hex, if_neg mono_, styled]
            exact round_code code rfl next
  · rw [not_or] at special
    have inert : codeAt c rest = none := by
      have away (e : Char) (control : e ∈ controlCodes) : c ≠ e := by
        rintro rfl
        exact special.2 control
      simp [codeAt, special, away '\x03' (by decide), away '\x04' (by decide)]
    refine ⟨.keep [c], rest, nextToken_plain c rest special.1 special.2 b more bytes, le_rfl, ?_, ?_⟩
    · rw [visible_plain inert]
      rfl
    · rw [readVisible, inert]
      rfl

/-! ### The loop -/

theorem readColor_shorter (bytes : Bytes) (n : Nat) (after : Bytes)
    (read : readColor bytes = some (n, after)) : after.length < bytes.length := by
  unfold readColor at read
  cases bytes with
  | nil => cases read
  | cons a rest =>
      simp only [Option.ite_none_right_eq_some] at read
      rcases read with ⟨_, read⟩
      cases rest with
      | nil =>
          rw [← (Prod.mk.inj (Option.some.inj read)).2]
          simp
      | cons b more =>
          simp only at read
          split at read
          · rw [← (Prod.mk.inj (Option.some.inj read)).2]
            simp only [List.length_cons]
            omega
          · rw [← (Prod.mk.inj (Option.some.inj read)).2]
            simp

theorem colorToken_le (bytes : Bytes) : (colorToken bytes).2.length ≤ bytes.length := by
  unfold colorToken
  cases first : readColor bytes with
  | none => exact le_rfl
  | some read =>
      have less := readColor_shorter bytes read.1 read.2 first
      simp only
      cases second : afterComma readColor read.2 with
      | none => exact less.le
      | some read' =>
          unfold afterComma at second
          cases shape : read.2 with
          | nil => simp [shape] at second
          | cons b more =>
              simp only [shape, Option.ite_none_right_eq_some] at second
              have less' := readColor_shorter more read'.1 read'.2 second.2
              rw [shape, List.length_cons] at less
              simp only
              omega

theorem hexColorToken_le (bytes : Bytes) : (hexColorToken bytes).2.length ≤ bytes.length := by
  unfold hexColorToken
  cases readHex6Bytes bytes with
  | none => exact le_rfl
  | some hex =>
      simp only
      cases afterComma readHex6Bytes (bytes.drop 6) with
      | none => simp
      | some hex' => simp

theorem formatToken_le (bytes : Bytes) : (formatToken bytes).2.length ≤ bytes.length := by
  unfold formatToken
  cases bytes with
  | nil => exact le_rfl
  | cons b rest =>
      have tail : rest.length ≤ (b :: rest).length := by simp
      have deep : (rest.drop 6).length ≤ (b :: rest).length := by
        simp only [List.length_drop, List.length_cons]
        omega
      simp only
      repeat' split
      all_goals first | exact tail | exact deep

theorem nextToken_le (b : UInt8) (rest : Bytes) (token : Token) (after : Bytes)
    (next : nextToken b rest = some (token, after)) : after.length ≤ rest.length := by
  unfold nextToken at next
  split at next
  · rw [Option.some.injEq] at next
    have fits := formatToken_le rest
    rwa [next] at fits
  · split at next
    · rw [Option.some.injEq] at next
      have fits := colorToken_le rest
      rwa [next] at fits
    · split at next
      · rw [Option.some.injEq] at next
        have fits := hexColorToken_le rest
        rwa [next] at fits
      · split at next
        · rw [← (Prod.mk.inj (Option.some.inj next)).2]
        · cases styled : styleControl (asChar b) with
          | some change =>
              rw [styled] at next
              rw [← (Prod.mk.inj (Option.some.inj next)).2]
          | none =>
              rw [styled] at next
              rcases Option.map_eq_some_iff.mp next with ⟨read, first, same⟩
              rw [← (Prod.mk.inj same).2]
              unfold Utf8.firstChar? at first
              simp only at first
              split at first
              · rw [← Option.some.inj first]
                exact (List.dropWhile_sublist _).length_le
              · cases first

/-- The loop ends: every round takes a byte. -/
theorem walk_ends (fuel : Nat) (bytes : Bytes) (enough : bytes.length ≤ fuel) (w : Walk) :
    walk fuel bytes w ≠ .error .outOfFuel := by
  induction fuel generalizing bytes w with
  | zero =>
      have nothing : bytes = [] := List.length_eq_zero_iff.mp (by omega)
      simp [nothing, walk]
  | succ fuel ih =>
      cases bytes with
      | nil => simp [walk]
      | cons b rest =>
          simp only [List.length_cons] at enough
          rw [walk]
          cases next : nextToken b rest with
          | none => simp
          | some read =>
              have shorter := nextToken_le b rest read.1 read.2 next
              exact ih read.2 (by omega) _

theorem parse_ends (text : Str) : parseFormatString text ≠ .error .outOfFuel := by
  have ends := walk_ends _ (utf8 text) le_rfl ⟨[], StyleState.default, []⟩
  unfold parseFormatString
  cases done : walk (utf8 text).length (utf8 text) ⟨[], StyleState.default, []⟩ with
  | ok w => simp [Except.map]
  | error halt =>
      rw [done] at ends
      simpa [Except.map] using ends

/-- The text of the spans only grows. -/
theorem walk_grows (fuel : Nat) (bytes : Bytes) (w w' : Walk) (done : walk fuel bytes w = .ok w') :
    ∃ more, w'.text = w.text ++ more := by
  induction fuel generalizing bytes w with
  | zero =>
      cases bytes with
      | nil =>
          rw [walk, Except.ok.injEq] at done
          exact ⟨[], by rw [← done, List.append_nil]⟩
      | cons b rest => cases done
  | succ fuel ih =>
      cases bytes with
      | nil =>
          rw [walk, Except.ok.injEq] at done
          exact ⟨[], by rw [← done, List.append_nil]⟩
      | cons b rest =>
          rw [walk] at done
          cases next : nextToken b rest with
          | none =>
              rw [next] at done
              cases done
          | some read =>
              rw [next] at done
              rcases ih read.2 _ done with ⟨more, grown⟩
              exact ⟨read.1.shown ++ more, by rw [grown, apply_text, List.append_assoc]⟩

theorem walk_clean (s : Str) (clean : Clean s) (fuel : Nat) (enough : (utf8 s).length ≤ fuel)
    (w : Walk) : ∃ w', walk fuel (utf8 s) w = .ok w' ∧ w'.text = w.text ++ visible s := by
  induction fuel generalizing s w with
  | zero =>
      cases s with
      | nil => exact ⟨w, rfl, by simp [visible]⟩
      | cons c rest =>
          have size := Char.utf8Size_pos c
          rw [utf8_length, utf8Length_cons] at enough
          omega
  | succ fuel ih =>
      cases s with
      | nil => exact ⟨w, rfl, by simp [visible]⟩
      | cons c rest =>
          have both := (clean_cons c rest).mp clean
          rcases Utf8.utf8_shape c rest with ⟨b, more, bytes⟩
          rcases (round_clean c rest both.1 b more bytes).reads with
            ⟨token, after, next, _, seen, still⟩
          have shorter := nextToken_le b more token _ next
          rw [bytes, List.length_cons] at enough
          rcases ih after (still.mpr both.2) (by omega) (w.apply token) with ⟨w', done, text⟩
          refine ⟨w', ?_, ?_⟩
          · rw [bytes, walk, next]
            exact done
          · rw [text, apply_text, seen, List.append_assoc]

/-- A percent sign before a character that is not ASCII leaves the loop off a boundary; one before a
control character keeps it. -/
theorem walk_dirty_front (rest : Str) (dirty : cleanAt '%' rest = false) (fuel : Nat) (w w' : Walk)
    (done : walk (fuel + 1) (UInt8.ofNat 37 :: utf8 rest) w = .ok w') :
    ∃ c ∈ w'.text, c ∈ controlCodes := by
  have percent : asChar (UInt8.ofNat 37) = '%' := by decide
  have next : nextToken (UInt8.ofNat 37) (utf8 rest) = some (formatToken (utf8 rest)) := by
    rw [nextToken, if_pos percent]
  rw [walk, next] at done
  cases rest with
  | nil => simp [cleanAt] at dirty
  | cons d after =>
      have kind : formatCode (d :: after) = none ∧ (d.toNat < 0x80 → d ∈ controlCodes) := by
        simpa [cleanAt] using dirty
      by_cases wide : 0x80 ≤ d.toNat
      · -- the first byte is taken for a character, and the next round begins behind it
        rcases Utf8.encode_wide d wide with ⟨lead, x, tail, shape, high, conts⟩
        have bytes : utf8 (d :: after) = lead :: x :: (tail ++ utf8 after) := by
          rw [Utf8.utf8_cons, shape]
          rfl
        have cont := conts x List.mem_cons_self
        have middle : 0x80 ≤ x.toNat := by
          simp only [Utf8.isContinuation, decide_eq_true_eq] at cont
          exact cont.1
        have unread : nextToken x (tail ++ utf8 after) = none := by
          have away (c : Char) (ascii : c.toNat < 0x80) := asChar_wide x middle c ascii
          have unstyled : styleControl (asChar x) = none := by
            apply styleControl_eq_none
            intro control
            exact away (asChar x) (controlCodes_ascii _ control) rfl
          simp only [nextToken, if_neg (away '%' (by decide)), if_neg (away '\x03' (by decide)),
            if_neg (away '\x04' (by decide)), if_neg (away '\x11' (by decide)), unstyled,
            Utf8.firstChar?_continuation x _ cont, Option.map_none]
        have kept : (formatToken (utf8 (d :: after))).2 = x :: (tail ++ utf8 after) := by
          have away (c : Char) (ascii : c.toNat < 0x80) :=
            asChar_wide lead (by omega) c ascii
          have unknown : colorMap (asChar lead) = none := by
            cases known : colorMap (asChar lead) with
            | none => rfl
            | some hex =>
                have ascii := colorMap_ascii (asChar lead) (by rw [known]; rfl)
                exact absurd rfl (away (asChar lead) ascii)
          rw [bytes]
          simp [formatToken, away 'N' (by decide), away 'n' (by decide), away '_' (by decide),
            away 'u' (by decide), away 'i' (by decide), away 'd' (by decide), away 'Z' (by decide),
            away 'z' (by decide), away '|' (by decide), away '%' (by decide), unknown]
        simp only [kept] at done
        cases fuel with
        | zero => cases done
        | succ fuel =>
            rw [walk, unread] at done
            cases done
      · have control := kind.2 (by omega)
        rcases formatToken_utf8 d after (by omega) with ⟨token, format, shown⟩
        rw [kind.1, Option.getD_none] at shown
        rw [format] at done
        rcases walk_grows fuel _ _ w' done with ⟨more, grown⟩
        refine ⟨d, ?_, control⟩
        rw [grown, apply_text, shown]
        simp

theorem walk_dirty (s : Str) (dirty : ¬Clean s) (fuel : Nat) (w w' : Walk)
    (done : walk fuel (utf8 s) w = .ok w') : ∃ c ∈ w'.text, c ∈ controlCodes := by
  induction fuel generalizing s w with
  | zero =>
      cases s with
      | nil => exact absurd (by simp [Clean]) dirty
      | cons c rest =>
          rcases Utf8.utf8_shape c rest with ⟨b, more, bytes⟩
          rw [bytes] at done
          cases done
  | succ fuel ih =>
      cases s with
      | nil => exact absurd (by simp [Clean]) dirty
      | cons c rest =>
          by_cases front : cleanAt c rest = true
          · have later : ¬Clean (readVisible c rest).2 := fun clean =>
              dirty ((clean_cons c rest).mpr ⟨front, clean⟩)
            rcases Utf8.utf8_shape c rest with ⟨b, more, bytes⟩
            rcases (round_clean c rest front b more bytes).reads with
              ⟨token, after, next, _, _, still⟩
            rw [bytes, walk, next] at done
            exact ih after (mt still.mp later) _ done
          · have percent : c = '%' := by
              by_contra other
              simp [cleanAt, other] at front
            subst percent
            rw [Utf8.utf8_ascii '%' rest (by decide)] at done
            exact walk_dirty_front rest (by simpa using front) fuel w w' done

/-- The parser never fails and alters no text, exactly when no percent sign that stands for itself is
followed by a character that is not ASCII or by a control character. -/
theorem parse_faithful_iff (text : Str) : Faithful text ↔ Clean text := by
  have start : Walk.text ⟨[], StyleState.default, []⟩ = [] := rfl
  constructor
  · rintro ⟨spans, parsed, shown⟩
    by_contra dirty
    unfold parseFormatString at parsed
    cases done : walk (utf8 text).length (utf8 text) ⟨[], StyleState.default, []⟩ with
    | error halt =>
        rw [done] at parsed
        cases parsed
    | ok w =>
        rw [done] at parsed
        have same : w.finish = spans := Except.ok.inj parsed
        rcases walk_dirty text dirty _ _ w done with ⟨c, member, control⟩
        rw [← finish_text, same, shown] at member
        exact visible_unmarked text c member control
  · intro clean
    rcases walk_clean text clean _ le_rfl ⟨[], StyleState.default, []⟩ with ⟨w, done, seen⟩
    refine ⟨w.finish, ?_, ?_⟩
    · rw [parseFormatString, done]
      rfl
    · rw [finish_text, seen, start, List.nil_append]

/-- A percent sign before a letter with an accent. -/
theorem parse_slices_off_boundary :
    parseFormatString "50%é".toList = .error .offBoundary ∧ ¬Faithful "50%é".toList := by
  have fails : parseFormatString "50%é".toList = .error .offBoundary := by decide +kernel
  refine ⟨fails, ?_⟩
  rintro ⟨spans, parsed, _⟩
  rw [fails] at parsed
  cases parsed

end Repartee.Theme
