import Repartee.Text

/-!
The fields of a line read back as what was written: numbers, hexadecimal digits, and words with
spaces between them.
-/

namespace Repartee.Text

section Numbers

theorem digit?_of_isDigit (c : Char) (digit : c.isDigit = true) : digit? c = some (c.toNat - 48) := by
  have bounds : '0' ≤ c ∧ c ≤ '9' := by
    simpa [Char.isDigit, Char.le_def] using digit
  rw [digit?, if_pos bounds]

theorem natText_digits (n : Nat) : ∀ c ∈ natText n, c.isDigit = true := fun _ member =>
  Nat.isDigit_of_mem_toDigits (by decide) (by decide) member

theorem natText_ne_nil (n : Nat) : natText n ≠ [] := Nat.toDigits_ne_nil

/-- Digits are read to the number they spell, when it fits. -/
theorem parseDigits_digits (max : Nat) (overflow : Str) (digits : Str) (acc : Nat)
    (all : ∀ c ∈ digits, c.isDigit = true) (fits : Nat.ofDigitChars 10 digits acc ≤ max) :
    parseDigits max acc overflow digits = .ok (Nat.ofDigitChars 10 digits acc) := by
  induction digits generalizing acc with
  | nil => rfl
  | cons c rest ih =>
      have head := digit?_of_isDigit c (all c List.mem_cons_self)
      have grows : 10 * acc + (c.toNat - 48) ≤ Nat.ofDigitChars 10 (c :: rest) acc := by
        rw [Nat.ofDigitChars_cons, Nat.ofDigitChars_eq_ofDigitChars_zero]
        have power : 1 ≤ 10 ^ rest.length := Nat.one_le_pow _ _ (by decide)
        exact Nat.le_add_right_of_le (Nat.le_mul_of_pos_left _ power)
      have step : acc * 10 + (c.toNat - 48) ≤ max := by omega
      have tail := ih (10 * acc + (c.toNat - 48))
        (fun d member => all d (List.mem_cons_of_mem c member)) (by
          rwa [Nat.ofDigitChars_cons] at fits)
      simp only [parseDigits, head, if_pos step]
      rw [Nat.mul_comm acc 10, tail, Nat.ofDigitChars_cons]
      rfl

theorem parseDigits_natText (max n : Nat) (overflow : Str) (fits : n ≤ max) :
    parseDigits max 0 overflow (natText n) = .ok n := by
  have spelled : Nat.ofDigitChars 10 (natText n) 0 = n := Nat.ofDigitChars_ten_toDigits
  have read := parseDigits_digits max overflow (natText n) 0 (natText_digits n)
    (by rw [spelled]; exact fits)
  rw [read, spelled]

theorem parseDigits_le (max : Nat) (overflow digits : Str) (acc n : Nat) (start : acc ≤ max)
    (parsed : parseDigits max acc overflow digits = .ok n) : n ≤ max := by
  induction digits generalizing acc with
  | nil =>
      cases parsed
      exact start
  | cons c rest ih =>
      simp only [parseDigits] at parsed
      split at parsed
      · cases parsed
      · split at parsed
        · rename_i fits
          exact ih _ fits parsed
        · cases parsed

theorem digit_ne (c d : Char) (digit : c.isDigit = true) (other : d.isDigit = false) : c ≠ d := by
  intro same
  rw [same, other] at digit
  cases digit

/-- A written number starts with a digit. -/
theorem natText_head (n : Nat) : ∃ c rest, natText n = c :: rest ∧ c.isDigit = true := by
  cases text : natText n with
  | nil => exact absurd text (natText_ne_nil n)
  | cons c rest => exact ⟨c, rest, rfl, natText_digits n c (by rw [text]; exact List.mem_cons_self)⟩

theorem parseUnsigned_natText (max n : Nat) (fits : n ≤ max) :
    parseUnsigned max (natText n) = .ok n := by
  have read := parseDigits_natText max n tooLarge fits
  obtain ⟨c, rest, text, digit⟩ := natText_head n
  have plain := digit_ne c '+' digit (by decide)
  rw [text] at read ⊢
  unfold parseUnsigned
  split
  · rename_i same
    cases same
  · rename_i same
    cases same
    exact absurd rfl plain
  · rename_i same
    cases same
    exact absurd rfl plain
  · exact read

theorem natText_injective {m n : Nat} (same : natText m = natText n) : m = n := by
  have first := parseUnsigned_natText (max m n) m (Nat.le_max_left m n)
  have second := parseUnsigned_natText (max m n) n (Nat.le_max_right m n)
  rw [same, second] at first
  exact (Except.ok.inj first).symm

theorem parseU8_natText (n : Nat) (fits : n ≤ 255) : parseU8 (natText n) = .ok n :=
  parseUnsigned_natText _ n fits

/-- The range of a signed 64-bit integer. -/
def FitsI64 (t : Int) : Prop := -2 ^ 63 ≤ t ∧ t < 2 ^ 63

theorem parseI64_intText (t : Int) (fits : FitsI64 t) : parseI64 (intText t) = .ok t := by
  cases t with
  | ofNat n =>
      have small : n ≤ 2 ^ 63 - 1 := by
        have upper := fits.2
        simp only [Int.ofNat_eq_natCast] at upper
        omega
      have read := parseDigits_natText (2 ^ 63 - 1) n tooLarge small
      obtain ⟨c, rest, text, digit⟩ := natText_head n
      have plus := digit_ne c '+' digit (by decide)
      have minus := digit_ne c '-' digit (by decide)
      rw [intText, text]
      rw [text] at read
      unfold parseI64
      split
      · rename_i same
        cases same
      · rename_i same
        cases same
        exact absurd rfl plus
      · rename_i same
        cases same
        exact absurd rfl minus
      · rename_i same
        cases same
        exact absurd rfl minus
      · rename_i same
        cases same
        exact absurd rfl plus
      · rw [read]
        rfl
  | negSucc n =>
      have small : n + 1 ≤ 2 ^ 63 := by
        have lower := fits.1
        omega
      have read := parseDigits_natText (2 ^ 63) (n + 1) tooSmall small
      obtain ⟨c, rest, text, digit⟩ := natText_head (n + 1)
      rw [intText, text]
      rw [text] at read
      simp only [parseI64, read, Except.map]
      rfl

theorem parseI64_fits (s : Str) (t : Int) (parsed : parseI64 s = .ok t) : FitsI64 t := by
  unfold FitsI64
  have bounded (max : Nat) (overflow digits : Str) (n : Nat)
      (read : parseDigits max 0 overflow digits = .ok n) : n ≤ max :=
    parseDigits_le max overflow digits 0 n (Nat.zero_le max) read
  unfold parseI64 at parsed
  split at parsed
  · cases parsed
  · cases parsed
  · cases parsed
  · rename_i rest _
    cases read : parseDigits (2 ^ 63) 0 tooSmall rest with
    | error e =>
        rw [read] at parsed
        cases parsed
    | ok n =>
        have bound := bounded _ _ _ n read
        rw [read] at parsed
        cases parsed
        show -2 ^ 63 ≤ -(n : Int) ∧ -(n : Int) < 2 ^ 63
        omega
  · rename_i rest _
    cases read : parseDigits (2 ^ 63 - 1) 0 tooLarge rest with
    | error e =>
        rw [read] at parsed
        cases parsed
    | ok n =>
        have bound := bounded _ _ _ n read
        rw [read] at parsed
        cases parsed
        simp only [Int.ofNat_eq_natCast]
        omega
  · cases read : parseDigits (2 ^ 63 - 1) 0 tooLarge s with
    | error e =>
        rw [read] at parsed
        cases parsed
    | ok n =>
        have bound := bounded _ _ _ n read
        rw [read] at parsed
        cases parsed
        simp only [Int.ofNat_eq_natCast]
        omega

theorem intText_ne_nil (t : Int) : intText t ≠ [] := by
  cases t with
  | ofNat n => exact natText_ne_nil n
  | negSucc n => exact List.cons_ne_nil _ _

end Numbers

section Hex

theorem hexValue?_hexDigit (n : Nat) (small : n < 16) : hexValue? (hexDigit n) = some n := by
  interval_cases n <;> rfl

theorem hexDecode_hexEncode (bytes : Bytes) : hexDecode (hexEncode bytes) = some bytes := by
  induction bytes with
  | nil => rfl
  | cons b rest ih =>
      have bound := b.toNat_lt
      have byte : UInt8.ofNat (b.toNat / 16 * 16 + b.toNat % 16) = b := by
        rw [show b.toNat / 16 * 16 + b.toNat % 16 = b.toNat by omega]
        exact UInt8.ofNat_toNat
      have text : hexEncode (b :: rest) =
          hexDigit (b.toNat / 16) :: hexDigit (b.toNat % 16) :: hexEncode rest := rfl
      rw [text, hexDecode, hexValue?_hexDigit _ (by omega), hexValue?_hexDigit _ (by omega), ih]
      simp only [Option.bind_eq_bind, Option.bind_some, byte]
      rfl

theorem hexValue?_ascii (c : Char) (n : Nat) (value : hexValue? c = some n) : c.utf8Size = 1 := by
  have ascii : c.toNat < 128 := by
    unfold hexValue? at value
    split at value
    · rename_i digit
      have upper : c.toNat ≤ 57 := digit.2
      omega
    · split at value
      · rename_i digit
        have upper : c.toNat ≤ 102 := digit.2
        omega
      · split at value
        · rename_i digit
          have upper : c.toNat ≤ 70 := digit.2
          omega
        · cases value
  rw [Char.utf8Size_eq_one_iff]
  exact Nat.le_of_lt_succ ascii

/-- Every byte is read from two ASCII characters. -/
theorem hexDecode_length (s : Str) (bytes : Bytes) (decoded : hexDecode s = some bytes) :
    utf8Length s = 2 * bytes.length := by
  fun_induction hexDecode s generalizing bytes with
  | case1 =>
      cases decoded
      rfl
  | case2 c => cases decoded
  | case3 a b rest ih =>
      simp only [Option.bind_eq_bind, Option.bind_eq_some_iff] at decoded
      obtain ⟨high, first, low, second, tail, later, made⟩ := decoded
      cases made
      have size := ih tail later
      simp only [utf8Length_cons, hexValue?_ascii a high first, hexValue?_ascii b low second,
        List.length_cons, size]
      omega

theorem hexDigit_plain (n : Nat) (small : n < 16) :
    isWhitespace (hexDigit n) = false ∧ (hexDigit n).utf8Size = 1 := by
  interval_cases n <;> decide

theorem hexEncode_plain (bytes : Bytes) : ∀ c ∈ hexEncode bytes, isWhitespace c = false := by
  intro c member
  simp only [hexEncode, List.mem_flatMap, List.mem_cons, List.not_mem_nil, or_false] at member
  obtain ⟨b, _, rfl | rfl⟩ := member
  · exact (hexDigit_plain _ (by have bound := b.toNat_lt; omega)).1
  · exact (hexDigit_plain _ (by omega)).1

theorem utf8Length_hexEncode (bytes : Bytes) : utf8Length (hexEncode bytes) = 2 * bytes.length := by
  induction bytes with
  | nil => rfl
  | cons b rest ih =>
      have bound := b.toNat_lt
      have text : hexEncode (b :: rest) =
          hexDigit (b.toNat / 16) :: hexDigit (b.toNat % 16) :: hexEncode rest := rfl
      rw [text, utf8Length_cons, utf8Length_cons, ih, (hexDigit_plain _ (by omega)).2,
        (hexDigit_plain _ (by omega)).2, List.length_cons]
      omega

end Hex

section Words

theorem isWhitespace_of_isDigit (c : Char) (digit : c.isDigit = true) : isWhitespace c = false := by
  have bounds : 48 ≤ c.toNat ∧ c.toNat ≤ 57 := by
    simpa [Char.isDigit, Char.le_def, UInt32.le_iff_toNat_le] using digit
  simp only [isWhitespace, Bool.or_eq_false_iff, Bool.and_eq_false_iff, decide_eq_false_iff_not,
    beq_eq_false_iff_ne]
  omega

theorem natText_plain (n : Nat) : ∀ c ∈ natText n, isWhitespace c = false := fun c member =>
  isWhitespace_of_isDigit c (natText_digits n c member)

theorem intText_plain (t : Int) : ∀ c ∈ intText t, isWhitespace c = false := by
  cases t with
  | ofNat n => exact natText_plain n
  | negSucc n =>
      intro c member
      cases member with
      | head => decide
      | tail _ member => exact natText_plain (n + 1) c member

/-- A word, and whatever words the rest holds. -/
theorem splitWhitespace_word (word rest : Str) (some_ : word ≠ [])
    (plain : ∀ c ∈ word, isWhitespace c = false)
    (ends : rest = [] ∨ ∃ gap more, rest = gap :: more ∧ isWhitespace gap = true) :
    splitWhitespace (word ++ rest) = word :: splitWhitespace rest := by
  induction word with
  | nil => exact absurd rfl some_
  | cons c word ih =>
      have head := plain c List.mem_cons_self
      cases word with
      | nil =>
          rcases ends with rfl | ⟨gap, more, rfl, white⟩
          · simp [splitWhitespace, head]
          · simp [splitWhitespace, head, white]
      | cons d word =>
          have next := plain d (List.mem_cons_of_mem c List.mem_cons_self)
          have tail := ih (List.cons_ne_nil d word)
            fun e member => plain e (List.mem_cons_of_mem c member)
          rw [List.cons_append] at tail
          rw [List.cons_append, List.cons_append]
          conv_lhs => unfold splitWhitespace
          simp [head, next, tail]

theorem splitWhitespace_space (rest : Str) :
    splitWhitespace (' ' :: rest) = splitWhitespace rest := by
  conv_lhs => unfold splitWhitespace
  simp [show isWhitespace ' ' = true by decide]

/-- Words behind spaces are read back. -/
theorem splitWhitespace_words (words : List Str)
    (plain : ∀ word ∈ words, word ≠ [] ∧ ∀ c ∈ word, isWhitespace c = false) :
    splitWhitespace (words.flatMap fun word => ' ' :: word) = words := by
  induction words with
  | nil => rfl
  | cons word rest ih =>
      have tail := ih fun other member => plain other (List.mem_cons_of_mem word member)
      have head := plain word List.mem_cons_self
      have ends : (rest.flatMap fun word => ' ' :: word) = [] ∨
          ∃ gap more, (rest.flatMap fun word => ' ' :: word) = gap :: more ∧
            isWhitespace gap = true := by
        cases rest with
        | nil => exact Or.inl rfl
        | cons next rest => exact Or.inr ⟨' ', _, rfl, by decide⟩
      have read := splitWhitespace_word word (rest.flatMap fun word => ' ' :: word) head.1 head.2 ends
      rw [List.flatMap_cons, List.cons_append, splitWhitespace_space, read, tail]

end Words

theorem stripPrefix_append (start rest : Str) : stripPrefix start (start ++ rest) = some rest := by
  simp [stripPrefix]

theorem stripSuffix_append (front tail : Str) : stripSuffix tail (front ++ tail) = some front := by
  simp [stripSuffix]

end Repartee.Text
