import Mathlib

/-!
Strings as lists of characters, with the parts of the Rust string library the code calls.
-/

namespace Repartee

abbrev Str : Type := List Char
abbrev Bytes : Type := List UInt8

/-- Named, so that every definition that asks for a text in a list mentions the same instance. -/
instance decidableMem (s : Str) (texts : List Str) : Decidable (s ∈ texts) := inferInstance

namespace Text

/-- The text before and after the first occurrence of the separator. -/
def splitOnce (separator : Char) : Str → Option (Str × Str)
  | [] => none
  | c :: rest =>
      if c = separator then some ([], rest)
      else (splitOnce separator rest).map fun parts => (c :: parts.1, parts.2)

def stripPrefix (start : Str) (s : Str) : Option Str :=
  if start.isPrefixOf s then some (s.drop start.length) else none

def stripSuffix (tail : Str) (s : Str) : Option Str :=
  if tail.isSuffixOf s then some (s.take (s.length - tail.length)) else none

def toAsciiLowercase (c : Char) : Char :=
  if 'A' ≤ c ∧ c ≤ 'Z' then Char.ofNat (c.toNat + 32) else c

def asciiLower (s : Str) : Str := s.map toAsciiLowercase

def toAsciiUppercase (c : Char) : Char :=
  if 'a' ≤ c ∧ c ≤ 'z' then Char.ofNat (c.toNat - 32) else c

def asciiUpper (s : Str) : Str := s.map toAsciiUppercase

/-- Equality under the NOCASE collation, which folds ASCII letters only. -/
def eqNocase (a b : Str) : Bool := decide (asciiLower a = asciiLower b)

def isWhitespace (c : Char) : Bool :=
  let n := c.toNat
  (9 ≤ n && n ≤ 13) || n == 0x20 || n == 0x85 || n == 0xA0 || n == 0x1680 ||
    (0x2000 ≤ n && n ≤ 0x200A) || n == 0x2028 || n == 0x2029 || n == 0x202F || n == 0x205F ||
    n == 0x3000

def isControl (c : Char) : Bool := c.toNat < 0x20 || (0x7F ≤ c.toNat && c.toNat ≤ 0x9F)

def trimStart (s : Str) : Str := s.dropWhile isWhitespace

def trim (s : Str) : Str := (trimStart (trimStart s).reverse).reverse

/-- The maximal runs of characters that are not white space. -/
def splitWhitespace : Str → List Str
  | [] => []
  | c :: rest =>
      if isWhitespace c then splitWhitespace rest
      else match rest with
        | [] => [[c]]
        | d :: _ =>
            if isWhitespace d then [c] :: splitWhitespace rest
            else match splitWhitespace rest with
              | [] => [[c]]
              | word :: words => (c :: word) :: words

def natText (n : Nat) : Str := Nat.toDigits 10 n

def intText : Int → Str
  | .ofNat n => natText n
  | .negSucc n => '-' :: natText (n + 1)

def digit? (c : Char) : Option Nat := if '0' ≤ c ∧ c ≤ '9' then some (c.toNat - 48) else none

def emptyInteger : Str := "cannot parse integer from empty string".toList
def invalidDigit : Str := "invalid digit found in string".toList
def tooLarge : Str := "number too large to fit in target type".toList
def tooSmall : Str := "number too small to fit in target type".toList

/-- Digits read left to right; the error is the first one met, a bad digit or the overflow. -/
def parseDigits (max acc : Nat) (overflow : Str) : Str → Except Str Nat
  | [] => .ok acc
  | c :: rest => match digit? c with
      | none => .error invalidDigit
      | some d =>
          if acc * 10 + d ≤ max then parseDigits max (acc * 10 + d) overflow rest
          else .error overflow

/-- Parsing an unsigned integer no larger than max; a lone sign is not a number. -/
def parseUnsigned (max : Nat) : Str → Except Str Nat
  | [] => .error emptyInteger
  | ['+'] => .error invalidDigit
  | '+' :: rest => parseDigits max 0 tooLarge rest
  | s => parseDigits max 0 tooLarge s

def parseU8 : Str → Except Str Nat := parseUnsigned (2 ^ 8 - 1)
def parseU64 : Str → Except Str Nat := parseUnsigned (2 ^ 64 - 1)

def parseI64 : Str → Except Str Int
  | [] => .error emptyInteger
  | ['+'] => .error invalidDigit
  | ['-'] => .error invalidDigit
  | '-' :: rest => (parseDigits (2 ^ 63) 0 tooSmall rest).map fun n => -(n : Int)
  | '+' :: rest => (parseDigits (2 ^ 63 - 1) 0 tooLarge rest).map Int.ofNat
  | s => (parseDigits (2 ^ 63 - 1) 0 tooLarge s).map Int.ofNat

/-- The signed 64-bit integer with the low bits of a number. -/
@[irreducible] def wrapI64 (n : Int) : Int := Int.bmod n (2 ^ 64)

def hexDigit (n : Nat) : Char := if n < 10 then Char.ofNat (48 + n) else Char.ofNat (87 + n)

def hexEncode (bytes : Bytes) : Str :=
  bytes.flatMap fun b => [hexDigit (b.toNat / 16), hexDigit (b.toNat % 16)]

def hexValue? (c : Char) : Option Nat :=
  if '0' ≤ c ∧ c ≤ '9' then some (c.toNat - 48)
  else if 'a' ≤ c ∧ c ≤ 'f' then some (c.toNat - 87)
  else if 'A' ≤ c ∧ c ≤ 'F' then some (c.toNat - 55)
  else none

def hexDecode : Str → Option Bytes
  | [] => some []
  | [_] => none
  | a :: b :: rest => do
      let high ← hexValue? a
      let low ← hexValue? b
      let tail ← hexDecode rest
      return UInt8.ofNat (high * 16 + low) :: tail

def utf8 (s : Str) : Bytes := s.flatMap String.utf8EncodeChar

def utf8Length (s : Str) : Nat := (s.map Char.utf8Size).sum

def continuation? (b : UInt8) : Option Nat :=
  if 0x80 ≤ b.toNat ∧ b.toNat < 0xC0 then some (b.toNat - 0x80) else none

/-- The character of a decoded sequence, when it is a scalar value and not overlong. -/
def scalar? (least n : Nat) : Option Char :=
  if least ≤ n ∧ n.isValidChar then some (Char.ofNat n) else none

/-- The text of well-formed UTF-8, or nothing. -/
def fromUtf8 : Bytes → Option Str
  | [] => some []
  | a :: rest =>
      let n := a.toNat
      if n < 0x80 then (fromUtf8 rest).map (Char.ofNat n :: ·)
      else if n < 0xC0 then none
      else if n < 0xE0 then match rest with
        | b :: rest => do
            let x ← continuation? b
            let c ← scalar? 0x80 ((n - 0xC0) * 64 + x)
            let tail ← fromUtf8 rest
            return c :: tail
        | _ => none
      else if n < 0xF0 then match rest with
        | b :: c :: rest => do
            let x ← continuation? b
            let y ← continuation? c
            let c ← scalar? 0x800 (((n - 0xE0) * 64 + x) * 64 + y)
            let tail ← fromUtf8 rest
            return c :: tail
        | _ => none
      else if n < 0xF8 then match rest with
        | b :: c :: d :: rest => do
            let x ← continuation? b
            let y ← continuation? c
            let z ← continuation? d
            let c ← scalar? 0x10000 ((((n - 0xF0) * 64 + x) * 64 + y) * 64 + z)
            let tail ← fromUtf8 rest
            return c :: tail
        | _ => none
      else none

theorem toAsciiLowercase_toAsciiLowercase (c : Char) :
    toAsciiLowercase (toAsciiLowercase c) = toAsciiLowercase c := by
  unfold toAsciiLowercase
  by_cases upper : 'A' ≤ c ∧ c ≤ 'Z'
  · have low : 65 ≤ c.toNat := upper.1
    have high : c.toNat ≤ 90 := upper.2
    have valid : (c.toNat + 32).isValidChar := by
      unfold Nat.isValidChar
      omega
    have lower : ¬('A' ≤ Char.ofNat (c.toNat + 32) ∧ Char.ofNat (c.toNat + 32) ≤ 'Z') := by
      intro still
      have bound : (Char.ofNat (c.toNat + 32)).toNat ≤ 90 := still.2
      rw [Char.toNat_ofNat, if_pos valid] at bound
      omega
    rw [if_pos upper, if_neg lower]
  · rw [if_neg upper, if_neg upper]

theorem asciiLower_asciiLower (s : Str) : asciiLower (asciiLower s) = asciiLower s := by
  simp [asciiLower, toAsciiLowercase_toAsciiLowercase]

@[simp] theorem utf8Length_nil : utf8Length [] = 0 := rfl

@[simp] theorem utf8Length_cons (c : Char) (s : Str) :
    utf8Length (c :: s) = c.utf8Size + utf8Length s := rfl

@[simp] theorem utf8Length_append (a b : Str) :
    utf8Length (a ++ b) = utf8Length a + utf8Length b := by
  simp [utf8Length]

theorem utf8_length (s : Str) : (utf8 s).length = utf8Length s := by
  simp [utf8, utf8Length, List.length_flatMap]

theorem utf8_append (a b : Str) : utf8 (a ++ b) = utf8 a ++ utf8 b := by
  simp [utf8]

theorem toNat_ofNat_lt (n : Nat) (small : n < 256) : (UInt8.ofNat n).toNat = n := by
  simp [Nat.mod_eq_of_lt small]

theorem continuation?_ofNat (n : Nat) (small : n < 64) :
    continuation? (UInt8.ofNat (n + 128)) = some n := by
  unfold continuation?
  rw [toNat_ofNat_lt (n + 128) (by omega)]
  simp only [Nat.add_sub_cancel, ite_eq_left_iff]
  omega

theorem scalar?_toNat (c : Char) (least : Nat) (large : least ≤ c.toNat) :
    scalar? least c.toNat = some c := by
  have valid : c.toNat.isValidChar := c.valid
  simp [scalar?, large, valid]

section Decode

variable (c : Char) (n x y z : Nat) (rest : Bytes)

theorem fromUtf8_one (ascii : c.toNat < 0x80) :
    fromUtf8 (UInt8.ofNat c.toNat :: rest) = (fromUtf8 rest).map (c :: ·) := by
  conv_lhs => unfold fromUtf8
  simp only [toNat_ofNat_lt c.toNat (by omega), if_pos ascii, Char.ofNat_toNat]

theorem fromUtf8_two (lead : n < 0x20) (cont : x < 64) (spells : n * 64 + x = c.toNat)
    (long : 0x80 ≤ c.toNat) :
    fromUtf8 (UInt8.ofNat (n + 192) :: UInt8.ofNat (x + 128) :: rest) =
      (fromUtf8 rest).map (c :: ·) := by
  conv_lhs => unfold fromUtf8
  have shape : (n + 192 - 0xC0) * 64 + x = c.toNat := by omega
  simp only [toNat_ofNat_lt (n + 192) (by omega), continuation?_ofNat x cont,
    if_neg (show ¬n + 192 < 0x80 by omega), if_neg (show ¬n + 192 < 0xC0 by omega),
    if_pos (show n + 192 < 0xE0 by omega), Option.bind_eq_bind, Option.bind_some, shape,
    scalar?_toNat c 0x80 long]
  cases fromUtf8 rest <;> rfl

theorem fromUtf8_three (lead : n < 0x10) (cont : x < 64) (cont' : y < 64)
    (spells : (n * 64 + x) * 64 + y = c.toNat) (long : 0x800 ≤ c.toNat) :
    fromUtf8 (UInt8.ofNat (n + 224) :: UInt8.ofNat (x + 128) :: UInt8.ofNat (y + 128) :: rest) =
      (fromUtf8 rest).map (c :: ·) := by
  conv_lhs => unfold fromUtf8
  have shape : ((n + 224 - 0xE0) * 64 + x) * 64 + y = c.toNat := by omega
  simp only [toNat_ofNat_lt (n + 224) (by omega), continuation?_ofNat x cont,
    continuation?_ofNat y cont', if_neg (show ¬n + 224 < 0x80 by omega),
    if_neg (show ¬n + 224 < 0xC0 by omega), if_neg (show ¬n + 224 < 0xE0 by omega),
    if_pos (show n + 224 < 0xF0 by omega), Option.bind_eq_bind, Option.bind_some, shape,
    scalar?_toNat c 0x800 long]
  cases fromUtf8 rest <;> rfl

theorem fromUtf8_four (lead : n < 8) (cont : x < 64) (cont' : y < 64) (cont'' : z < 64)
    (spells : ((n * 64 + x) * 64 + y) * 64 + z = c.toNat) (long : 0x10000 ≤ c.toNat) :
    fromUtf8 (UInt8.ofNat (n + 240) :: UInt8.ofNat (x + 128) :: UInt8.ofNat (y + 128) ::
      UInt8.ofNat (z + 128) :: rest) = (fromUtf8 rest).map (c :: ·) := by
  conv_lhs => unfold fromUtf8
  have shape : (((n + 240 - 0xF0) * 64 + x) * 64 + y) * 64 + z = c.toNat := by omega
  simp only [toNat_ofNat_lt (n + 240) (by omega), continuation?_ofNat x cont,
    continuation?_ofNat y cont', continuation?_ofNat z cont'',
    if_neg (show ¬n + 240 < 0x80 by omega), if_neg (show ¬n + 240 < 0xC0 by omega),
    if_neg (show ¬n + 240 < 0xE0 by omega), if_neg (show ¬n + 240 < 0xF0 by omega),
    if_pos (show n + 240 < 0xF8 by omega), Option.bind_eq_bind, Option.bind_some, shape,
    scalar?_toNat c 0x10000 long]
  cases fromUtf8 rest <;> rfl

theorem fromUtf8_encodeChar :
    fromUtf8 (String.utf8EncodeChar c ++ rest) = (fromUtf8 rest).map (c :: ·) := by
  have bound : c.toNat < 0x110000 := by
    have valid : c.toNat.isValidChar := c.valid
    unfold Nat.isValidChar at valid
    omega
  have value : c.val.toNat = c.toNat := rfl
  simp only [String.utf8EncodeChar, value]
  split
  · apply fromUtf8_one
    omega
  · split
    · apply fromUtf8_two <;> omega
    · split
      · apply fromUtf8_three <;> omega
      · apply fromUtf8_four <;> omega

end Decode

theorem fromUtf8_utf8 (s : Str) : fromUtf8 (utf8 s) = some s := by
  induction s with
  | nil => rfl
  | cons c rest ih =>
      calc
        fromUtf8 (utf8 (c :: rest)) = fromUtf8 (String.utf8EncodeChar c ++ utf8 rest) := rfl
        _ = (fromUtf8 (utf8 rest)).map (c :: ·) := fromUtf8_encodeChar c (utf8 rest)
        _ = some (c :: rest) := by rw [ih]; rfl

theorem utf8_injective (a b : Str) (same : utf8 a = utf8 b) : a = b := by
  have bytes : a.utf8Encode = b.utf8Encode := congrArg List.toByteArray same
  refine String.ofList_injective (String.toByteArray_inj.mp ?_)
  simpa using bytes

theorem splitOnce_eq_none (separator : Char) (s : Str) :
    splitOnce separator s = none ↔ separator ∉ s := by
  induction s with
  | nil => simp [splitOnce]
  | cons c rest ih =>
      by_cases same : c = separator
      · simp [splitOnce, same]
      · simp [splitOnce, same, ih, Ne.symm same]

theorem splitOnce_append (separator : Char) (front back : Str) (clean : separator ∉ front) :
    splitOnce separator (front ++ separator :: back) = some (front, back) := by
  induction front with
  | nil => simp [splitOnce]
  | cons c rest ih =>
      simp only [List.mem_cons, not_or] at clean
      simp [splitOnce, Ne.symm clean.1, ih clean.2]

theorem splitOnce_eq_some (separator : Char) (s front back : Str) :
    splitOnce separator s = some (front, back) ↔
      s = front ++ separator :: back ∧ separator ∉ front := by
  constructor
  · intro split
    induction s generalizing front with
    | nil => simp [splitOnce] at split
    | cons c rest ih =>
        by_cases same : c = separator
        · simp only [splitOnce, same, if_true, Option.some.injEq, Prod.mk.injEq] at split
          obtain ⟨rfl, rfl⟩ := split
          simp [same]
        · simp only [splitOnce, same, if_false, Option.map_eq_some_iff, Prod.mk.injEq] at split
          obtain ⟨⟨a, b⟩, found, rfl, rfl⟩ := split
          obtain ⟨rfl, clean⟩ := ih a found
          exact ⟨rfl, by simp [clean, Ne.symm same]⟩
  · rintro ⟨rfl, clean⟩
    exact splitOnce_append separator front back clean

end Text

end Repartee
