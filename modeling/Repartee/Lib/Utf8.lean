import Repartee.Text

/-!
Encoded text read byte by byte: where characters begin, the first character of what is left, and runs
of ASCII.
-/

namespace Repartee.Lib.Utf8

open Repartee.Text

/-- Not the first byte of a character. -/
def isContinuation (b : UInt8) : Bool := decide (0x80 ≤ b.toNat ∧ b.toNat < 0xC0)

/-- The character at the front and what follows it; none off a character boundary. -/
def firstChar? : Bytes → Option (Char × Bytes)
  | [] => none
  | b :: rest =>
      match fromUtf8 (b :: rest.takeWhile isContinuation) with
      | some [c] => some (c, rest.dropWhile isContinuation)
      | _ => none

section Encode

theorem toNat_ofNat (n : Nat) (small : n < 256) : (UInt8.ofNat n).toNat = n :=
  toNat_ofNat_lt n small

theorem encode_ascii (c : Char) (ascii : c.toNat < 0x80) :
    String.utf8EncodeChar c = [UInt8.ofNat c.toNat] := by
  have value : c.val.toNat = c.toNat := rfl
  simp only [String.utf8EncodeChar, value]
  rw [if_pos (by omega)]

theorem isContinuation_ofNat (n : Nat) (small : n < 64) :
    isContinuation (UInt8.ofNat (n + 128)) = true := by
  simp only [isContinuation, toNat_ofNat (n + 128) (by omega), decide_eq_true_eq]
  omega

/-- A character that is not ASCII is a first byte and continuation bytes. -/
theorem encode_wide (c : Char) (wide : 0x80 ≤ c.toNat) :
    ∃ b x tail, String.utf8EncodeChar c = b :: x :: tail ∧ 0xC0 ≤ b.toNat ∧
      ∀ t ∈ x :: tail, isContinuation t = true := by
  have value : c.val.toNat = c.toNat := rfl
  simp only [String.utf8EncodeChar, value]
  rw [if_neg (by omega)]
  have cont (n : Nat) : isContinuation (UInt8.ofNat (n % 64 + 128)) = true :=
    isContinuation_ofNat (n % 64) (Nat.mod_lt n (by decide))
  split
  · refine ⟨_, _, _, rfl, ?_, ?_⟩
    · rw [toNat_ofNat _ (by omega)]
      omega
    · intro t member
      rw [List.mem_singleton.mp member]
      exact cont _
  · split
    · refine ⟨_, _, _, rfl, ?_, ?_⟩
      · rw [toNat_ofNat _ (by omega)]
        omega
      · intro t member
        simp only [List.mem_cons, List.not_mem_nil, or_false] at member
        rcases member with rfl | rfl
        · exact cont _
        · exact cont _
    · have valid : c.toNat.isValidChar := c.valid
      unfold Nat.isValidChar at valid
      refine ⟨_, _, _, rfl, ?_, ?_⟩
      · rw [toNat_ofNat _ (by omega)]
        omega
      · intro t member
        simp only [List.mem_cons, List.not_mem_nil, or_false] at member
        rcases member with rfl | rfl | rfl
        · exact cont _
        · exact cont _
        · exact cont _

theorem utf8_cons (c : Char) (rest : Str) : utf8 (c :: rest) = String.utf8EncodeChar c ++ utf8 rest := rfl

theorem utf8_ascii (c : Char) (rest : Str) (ascii : c.toNat < 0x80) :
    utf8 (c :: rest) = UInt8.ofNat c.toNat :: utf8 rest := by
  rw [utf8_cons, encode_ascii c ascii, List.singleton_append]

theorem utf8_shape (c : Char) (rest : Str) : ∃ b more, utf8 (c :: rest) = b :: more := by
  by_cases ascii : c.toNat < 0x80
  · exact ⟨_, _, utf8_ascii c rest ascii⟩
  · rcases encode_wide c (by omega) with ⟨b, x, tail, shape, _⟩
    exact ⟨b, x :: (tail ++ utf8 rest), by rw [utf8_cons, shape]; rfl⟩

/-- The bytes of a text are empty, an ASCII byte and the rest, or a wider character and the rest. -/
theorem utf8_head (s : Str) (b : UInt8) (first : (utf8 s).head? = some b) :
    ∃ c rest, s = c :: rest ∧
      ((c.toNat < 0x80 ∧ b = UInt8.ofNat c.toNat) ∨ (0x80 ≤ c.toNat ∧ 0xC0 ≤ b.toNat)) := by
  cases s with
  | nil => cases first
  | cons c rest =>
      refine ⟨c, rest, rfl, ?_⟩
      by_cases ascii : c.toNat < 0x80
      · rw [utf8_ascii c rest ascii] at first
        exact Or.inl ⟨ascii, (Option.some.inj first).symm⟩
      · rcases encode_wide c (by omega) with ⟨lead, x, tail, shape, high, _⟩
        rw [utf8_cons, shape] at first
        have same : lead = b := Option.some.inj first
        exact Or.inr ⟨by omega, same ▸ high⟩

theorem head_not_continuation (s : Str) (b : UInt8) (first : (utf8 s).head? = some b) :
    isContinuation b = false := by
  rcases utf8_head s b first with ⟨c, rest, _, ⟨ascii, rfl⟩ | ⟨_, high⟩⟩
  · simp only [isContinuation, toNat_ofNat c.toNat (by omega), decide_eq_false_iff_not]
    omega
  · simp only [isContinuation, decide_eq_false_iff_not]
    omega

theorem takeWhile_utf8 (tail : Bytes) (rest : Str) (conts : ∀ t ∈ tail, isContinuation t = true) :
    (tail ++ utf8 rest).takeWhile isContinuation = tail ∧
      (tail ++ utf8 rest).dropWhile isContinuation = utf8 rest := by
  have stops : (utf8 rest).takeWhile isContinuation = [] ∧
      (utf8 rest).dropWhile isContinuation = utf8 rest := by
    cases first : utf8 rest with
    | nil => simp
    | cons b more =>
        have solid := head_not_continuation rest b (by rw [first]; rfl)
        simp [solid]
  rw [List.takeWhile_append_of_pos conts, List.dropWhile_append_of_pos conts, stops.1, stops.2]
  simp

theorem firstChar?_utf8 (c : Char) (rest : Str) : firstChar? (utf8 (c :: rest)) = some (c, utf8 rest) := by
  have single : fromUtf8 (String.utf8EncodeChar c) = some [c] := by
    simpa [utf8] using fromUtf8_utf8 [c]
  have split : ∃ b tail, String.utf8EncodeChar c = b :: tail ∧
      ∀ t ∈ tail, isContinuation t = true := by
    by_cases ascii : c.toNat < 0x80
    · exact ⟨_, [], encode_ascii c ascii, by simp⟩
    · rcases encode_wide c (by omega) with ⟨b, x, tail, shape, _, conts⟩
      exact ⟨b, x :: tail, shape, conts⟩
  rcases split with ⟨b, tail, shape, conts⟩
  have both := takeWhile_utf8 tail rest conts
  rw [utf8_cons, shape, List.cons_append, firstChar?]
  rw [both.1, both.2, ← shape, single]

/-- Nothing is read off a character boundary. -/
theorem firstChar?_continuation (b : UInt8) (rest : Bytes) (cont : isContinuation b = true) :
    firstChar? (b :: rest) = none := by
  simp only [isContinuation, decide_eq_true_eq] at cont
  have nothing : fromUtf8 (b :: rest.takeWhile isContinuation) = none := by
    unfold fromUtf8
    simp only [if_neg (show ¬b.toNat < 0x80 by omega), if_pos (show b.toNat < 0xC0 by omega)]
  simp only [firstChar?, nothing]

end Encode

section Ascii

variable (p : Nat → Bool)

/-- The first `n` characters all have the property, which only ASCII has: so have the bytes. -/
theorem ascii_run (ascii : ∀ n, p n = true → n < 0x80) (n : Nat) (s : Str) :
    ((n ≤ (utf8 s).length ∧ ((utf8 s).take n).all (fun b => p b.toNat) = true) ↔
        n ≤ s.length ∧ (s.take n).all (fun c => p c.toNat) = true) ∧
      (n ≤ s.length → (s.take n).all (fun c => p c.toNat) = true →
        (utf8 s).drop n = utf8 (s.drop n) ∧
          ((utf8 s).take n).map (fun b => Char.ofNat b.toNat) = s.take n) := by
  induction n generalizing s with
  | zero => simp
  | succ n ih =>
      cases s with
      | nil => simp [utf8]
      | cons c rest =>
          by_cases narrow : c.toNat < 0x80
          · have later := ih rest
            have value := toNat_ofNat c.toNat (by omega)
            rw [utf8_ascii c rest narrow]
            simp only [List.length_cons, List.take_succ_cons, List.all_cons, value, List.drop_succ_cons,
              List.map_cons, Char.ofNat_toNat, Nat.add_le_add_iff_right, Bool.and_eq_true,
              List.cons.injEq, true_and]
            constructor
            · constructor
              · rintro ⟨long, here, all⟩
                have back := later.1.mp ⟨long, all⟩
                exact ⟨back.1, here, back.2⟩
              · rintro ⟨long, here, all⟩
                have forth := later.1.mpr ⟨long, all⟩
                exact ⟨forth.1, here, forth.2⟩
            · rintro long ⟨_, all⟩
              exact later.2 long all
          · have none_ : p c.toNat = false := by
              cases held : p c.toNat with
              | false => rfl
              | true => exact absurd (ascii c.toNat held) narrow
            rcases encode_wide c (by omega) with ⟨b, x, tail, shape, high, _⟩
            have none' : p b.toNat = false := by
              cases held : p b.toNat with
              | false => rfl
              | true =>
                  have small := ascii b.toNat held
                  omega
            rw [utf8_cons, shape]
            simp [none_, none']

end Ascii

end Repartee.Lib.Utf8
