import Repartee.Text

/-!
Base64 with the standard alphabet and padding: groups of three bytes as four letters.
-/

namespace Repartee.Lib.Base64

def alphabet : Str :=
  "ABCDEFGHIJKLMNOPQRSTUVWXYZabcdefghijklmnopqrstuvwxyz0123456789+/".toList

def letter (n : Nat) : Char := alphabet.getD n '='

def value? (c : Char) : Option Nat := alphabet.idxOf? c

/-- The four letters of three bytes. -/
def quantum (a b c : Nat) : Str :=
  [letter (a / 4), letter (a % 4 * 16 + b / 16), letter (b % 16 * 4 + c / 64), letter (c % 64)]

def encode : Bytes → Str
  | [] => []
  | [a] => (quantum a.toNat 0 0).take 2 ++ "==".toList
  | [a, b] => (quantum a.toNat b.toNat 0).take 3 ++ "=".toList
  | a :: b :: c :: rest => quantum a.toNat b.toNat c.toNat ++ encode rest

/-- The bytes of a last group; bits left over are zero. -/
def decodeLast (p q r s : Char) : Option Bytes := do
  let w ← value? p
  let x ← value? q
  if s = '=' then
    if r = '=' then
      if x % 16 = 0 then some [UInt8.ofNat (w * 4 + x / 16)] else none
    else
      let y ← value? r
      if y % 4 = 0 then
        some [UInt8.ofNat (w * 4 + x / 16), UInt8.ofNat (x % 16 * 16 + y / 4)]
      else none
  else
    let y ← value? r
    let z ← value? s
    some [UInt8.ofNat (w * 4 + x / 16), UInt8.ofNat (x % 16 * 16 + y / 4),
      UInt8.ofNat (y % 4 * 64 + z)]

def decode : Str → Option Bytes
  | [] => some []
  | [p, q, r, s] => decodeLast p q r s
  | p :: q :: r :: s :: rest =>
      if s = '=' then none
      else do
        let bytes ← decodeLast p q r s
        let later ← decode rest
        some (bytes ++ later)
  | _ => none

theorem value?_letter (n : Nat) (small : n < 64) : value? (letter n) = some n := by
  have all : ∀ n < 64, value? (letter n) = some n := by decide +kernel
  exact all n small

theorem letter_plain (n : Nat) (small : n < 64) :
    letter n ≠ '=' ∧ (letter n).utf8Size = 1 := by
  have all : ∀ n < 64, letter n ≠ '=' ∧ (letter n).utf8Size = 1 := by decide +kernel
  exact all n small

theorem ofNat_toNat_eq (a : UInt8) (n : Nat) (same : n = a.toNat) : UInt8.ofNat n = a := by
  rw [same]
  exact UInt8.ofNat_toNat

theorem decodeLast_quantum (a b c : UInt8) :
    decodeLast (letter (a.toNat / 4)) (letter (a.toNat % 4 * 16 + b.toNat / 16))
      (letter (b.toNat % 16 * 4 + c.toNat / 64)) (letter (c.toNat % 64)) = some [a, b, c] := by
  have := a.toNat_lt
  have := b.toNat_lt
  have := c.toNat_lt
  simp only [decodeLast, value?_letter _ (show a.toNat / 4 < 64 by omega),
    value?_letter _ (show a.toNat % 4 * 16 + b.toNat / 16 < 64 by omega),
    value?_letter _ (show b.toNat % 16 * 4 + c.toNat / 64 < 64 by omega),
    value?_letter _ (show c.toNat % 64 < 64 by omega),
    (letter_plain _ (show c.toNat % 64 < 64 by omega)).1, if_false, Option.bind_eq_bind,
    Option.bind_some, Option.some.injEq, List.cons.injEq, and_true]
  refine ⟨ofNat_toNat_eq a _ ?_, ofNat_toNat_eq b _ ?_, ofNat_toNat_eq c _ ?_⟩ <;> omega

theorem decodeLast_two (a b : UInt8) :
    decodeLast (letter (a.toNat / 4)) (letter (a.toNat % 4 * 16 + b.toNat / 16))
      (letter (b.toNat % 16 * 4)) '=' = some [a, b] := by
  have := a.toNat_lt
  have := b.toNat_lt
  simp only [decodeLast, value?_letter _ (show a.toNat / 4 < 64 by omega),
    value?_letter _ (show a.toNat % 4 * 16 + b.toNat / 16 < 64 by omega),
    value?_letter _ (show b.toNat % 16 * 4 < 64 by omega),
    (letter_plain _ (show b.toNat % 16 * 4 < 64 by omega)).1, if_false, if_true, Option.bind_eq_bind,
    Option.bind_some, show b.toNat % 16 * 4 % 4 = 0 by omega, Option.some.injEq, List.cons.injEq,
    and_true]
  refine ⟨ofNat_toNat_eq a _ ?_, ofNat_toNat_eq b _ ?_⟩ <;> omega

theorem decodeLast_one (a : UInt8) :
    decodeLast (letter (a.toNat / 4)) (letter (a.toNat % 4 * 16)) '=' '=' = some [a] := by
  have := a.toNat_lt
  simp only [decodeLast, value?_letter _ (show a.toNat / 4 < 64 by omega),
    value?_letter _ (show a.toNat % 4 * 16 < 64 by omega), if_true, Option.bind_eq_bind,
    Option.bind_some, show a.toNat % 4 * 16 % 16 = 0 by omega, Option.some.injEq, List.cons.injEq,
    and_true]
  exact ofNat_toNat_eq a _ (by omega)

theorem decode_encode (bytes : Bytes) : decode (encode bytes) = some bytes := by
  fun_induction encode bytes with
  | case1 => rfl
  | case2 a =>
      have last := decodeLast_one a
      simpa [quantum, decode] using last
  | case3 a b =>
      have last := decodeLast_two a b
      simpa [quantum, decode] using last
  | case4 a b c rest ih =>
      have last := decodeLast_quantum a b c
      have plain := (letter_plain (c.toNat % 64) (by omega)).1
      cases later : encode rest with
      | nil =>
          have empty : rest = [] := by
            rw [later] at ih
            exact (Option.some.inj ih).symm
          simpa [quantum, decode, empty] using last
      | cons d ds =>
          rw [later] at ih
          simp [quantum, decode, plain, last, ih]

theorem length_encode (bytes : Bytes) : (encode bytes).length = (bytes.length + 2) / 3 * 4 := by
  fun_induction encode bytes with
  | case1 => rfl
  | case2 a => simp [quantum]
  | case3 a b => simp [quantum]
  | case4 a b c rest ih =>
      simp only [quantum, List.length_append, List.length_cons, List.length_nil, ih]
      omega

theorem quantum_all (p : Char → Prop) (letters : ∀ n < 64, p (letter n)) (a b c : UInt8) :
    ∀ l ∈ quantum a.toNat b.toNat c.toNat, p l := by
  have := a.toNat_lt
  have := b.toNat_lt
  have := c.toNat_lt
  simp only [quantum, List.mem_cons, List.not_mem_nil, or_false, forall_eq_or_imp, forall_eq]
  refine ⟨?_, ?_, ?_, ?_⟩ <;> exact letters _ (by omega)

/-- What holds of the letters and of the padding holds of every encoded text. -/
theorem encode_all (p : Char → Prop) (letters : ∀ n < 64, p (letter n)) (pad : p '=')
    (bytes : Bytes) : ∀ l ∈ encode bytes, p l := by
  have padded (s : Str) (n : Nat) (plain : ∀ l ∈ s, p l) (tail : Str)
      (equals : ∀ l ∈ tail, l = '=') : ∀ l ∈ s.take n ++ tail, p l := by
    intro l member
    rcases List.mem_append.mp member with front | back
    · exact plain l (List.mem_of_mem_take front)
    · exact equals l back ▸ pad
  fun_induction encode bytes with
  | case1 => simp
  | case2 a => exact padded _ 2 (quantum_all p letters a 0 0) _ (by simp)
  | case3 a b => exact padded _ 3 (quantum_all p letters a b 0) _ (by simp)
  | case4 a b c rest ih =>
      intro l member
      rcases List.mem_append.mp member with front | back
      · exact quantum_all p letters a b c l front
      · exact ih l back

theorem encode_ascii (bytes : Bytes) : ∀ l ∈ encode bytes, l.utf8Size = 1 :=
  encode_all (·.utf8Size = 1) (fun n small => (letter_plain n small).2) rfl bytes

section Url

/-! The variant for addresses: two other letters, and no padding. -/

def toUrl (c : Char) : Char := if c = '+' then '-' else if c = '/' then '_' else c

def fromUrl (c : Char) : Char := if c = '-' then '+' else if c = '_' then '/' else c

def encodeUrl (bytes : Bytes) : Str := ((encode bytes).filter (· ≠ '=')).map toUrl

def decodeUrl (s : Str) : Option Bytes :=
  if s.any fun c => c = '+' ∨ c = '/' ∨ c = '=' then none
  else decode (s.map fromUrl ++ List.replicate ((4 - s.length % 4) % 4) '=')

theorem letter_url (n : Nat) (small : n < 64) :
    fromUrl (toUrl (letter n)) = letter n ∧ toUrl (letter n) ≠ '+' ∧ toUrl (letter n) ≠ '/' ∧
      toUrl (letter n) ≠ '=' := by
  have all : ∀ n < 64, fromUrl (toUrl (letter n)) = letter n ∧ toUrl (letter n) ≠ '+' ∧
      toUrl (letter n) ≠ '/' ∧ toUrl (letter n) ≠ '=' := by decide +kernel
  exact all n small

theorem quantum_letters (a b c : UInt8) :
    ∀ l ∈ quantum a.toNat b.toNat c.toNat, ∃ n < 64, l = letter n := by
  have letters : ∀ n < 64, ∃ m < 64, letter n = letter m := fun n small => ⟨n, small, rfl⟩
  exact quantum_all (fun l => ∃ n < 64, l = letter n) letters a b c

/-- An encoded text is letters and then padding to a whole group. -/
theorem encode_shape (bytes : Bytes) : ∃ front k, encode bytes = front ++ List.replicate k '=' ∧
    (∀ l ∈ front, ∃ n < 64, l = letter n) ∧ (front.length + k) % 4 = 0 ∧ k < 4 := by
  fun_induction encode bytes with
  | case1 => exact ⟨[], 0, rfl, by simp, rfl, by decide⟩
  | case2 a =>
      exact ⟨(quantum a.toNat 0 0).take 2, 2, rfl,
        fun l member => quantum_letters a 0 0 l (List.mem_of_mem_take member), by simp [quantum],
        by decide⟩
  | case3 a b =>
      exact ⟨(quantum a.toNat b.toNat 0).take 3, 1, rfl,
        fun l member => quantum_letters a b 0 l (List.mem_of_mem_take member), by simp [quantum],
        by decide⟩
  | case4 a b c rest ih =>
      obtain ⟨front, k, spelled, letters, whole, few⟩ := ih
      refine ⟨quantum a.toNat b.toNat c.toNat ++ front, k, ?_, ?_, ?_, few⟩
      · rw [spelled, List.append_assoc]
      · intro l member
        rcases List.mem_append.mp member with first | later
        · exact quantum_letters a b c l first
        · exact letters l later
      · have four : (quantum a.toNat b.toNat c.toNat).length = 4 := rfl
        rw [List.length_append, four]
        omega

theorem encodeUrl_letters (bytes : Bytes) :
    ∃ front k, encode bytes = front ++ List.replicate k '=' ∧ encodeUrl bytes = front.map toUrl ∧
      (∀ l ∈ front, ∃ n < 64, l = letter n) ∧ k = (4 - front.length % 4) % 4 := by
  obtain ⟨front, k, spelled, letters, whole, few⟩ := encode_shape bytes
  have stays : front.filter (· ≠ '=') = front := by
    apply List.filter_eq_self.mpr
    intro l member
    obtain ⟨n, small, rfl⟩ := letters l member
    exact decide_eq_true (letter_plain n small).1
  have goes : (List.replicate k '=').filter (· ≠ '=') = [] := by simp
  refine ⟨front, k, spelled, ?_, letters, by omega⟩
  rw [encodeUrl, spelled, List.filter_append, stays, goes, List.append_nil]

theorem encodeUrl_all (p : Char → Prop) (all : ∀ n < 64, p (toUrl (letter n))) (bytes : Bytes) :
    ∀ l ∈ encodeUrl bytes, p l := by
  obtain ⟨front, k, -, spelled, letters, -⟩ := encodeUrl_letters bytes
  intro l member
  rw [spelled] at member
  obtain ⟨c, inside, rfl⟩ := List.mem_map.mp member
  obtain ⟨n, small, rfl⟩ := letters c inside
  exact all n small

theorem decodeUrl_encodeUrl (bytes : Bytes) : decodeUrl (encodeUrl bytes) = some bytes := by
  have plain := encodeUrl_all (fun l => l ≠ '+' ∧ l ≠ '/' ∧ l ≠ '=')
    (fun n small => (letter_url n small).2) bytes
  have clean : ¬((encodeUrl bytes).any fun c => c = '+' ∨ c = '/' ∨ c = '=') = true := by
    simp only [List.any_eq_true, decide_eq_true_eq, not_exists, not_and, not_or]
    exact plain
  obtain ⟨front, k, spelled, url, letters, padding⟩ := encodeUrl_letters bytes
  have back : (front.map toUrl).map fromUrl = front := by
    have each : ∀ l ∈ front, (fromUrl ∘ toUrl) l = id l := by
      intro l member
      obtain ⟨n, small, rfl⟩ := letters l member
      exact (letter_url n small).1
    rw [List.map_map, List.map_congr_left each, List.map_id]
  rw [decodeUrl, if_neg clean, url, back, List.length_map, ← padding, ← spelled, decode_encode]

end Url

end Repartee.Lib.Base64
