import Repartee.Lib.Glob
import Repartee.E2e.Symbolic

/-!
The handle patterns of autotrust rules: what the matcher accepts, and where that is the declared
language of the pattern.
-/

namespace Repartee.E2e

open Text Lib Glob

namespace Keyring

abbrev GlobMatches : Str → Str → Prop := Matches '*' '?'
abbrev GlobNarrow : Str → Str → Prop := Narrow '*' '?'

/-- The matcher may still start again behind its last star, further on in the input. -/
def Retries (star : Option (Str × Str)) : Prop :=
  ∃ after first retry rest, star = some (after, first :: retry) ∧ rest <:+ retry ∧
    GlobNarrow after rest

/-- Since its last star the matcher has compared one symbol against one. -/
def Kept (star : Option (Str × Str)) (pattern input : Str) : Prop :=
  ∀ after held, star = some (after, held) → Abreast '?' after held pattern input

theorem star_ne_any : ('*' : Char) ≠ '?' := by decide

theorem kept_fresh (pattern input : Str) : Kept (some (pattern, input)) pattern input := by
  intro after held same
  cases same
  exact .start

/-- Two symbols that differ, the pattern's no wildcard, are not read as one. -/
theorem narrow_differs {p c : Char} {pattern input : Str} (differ : ¬(p = '?' ∨ p = c))
    (plain : ¬p = '*') : ¬GlobNarrow (p :: pattern) (c :: input) := by
  intro narrow
  have other : p ≠ '?' := fun wild => differ (.inl wild)
  exact differ (.inr ((narrow_same plain other).mp narrow).1)

theorem onlyStars_iff (pattern : Str) : onlyStars pattern = true ↔ GlobNarrow pattern [] := by
  rw [GlobNarrow, narrow_nil, onlyStars, List.all_eq_true]
  simp only [decide_eq_true_eq]

theorem retries_held (after retry : Str) (first : Char) :
    Retries (some (after, first :: retry)) ↔ ∃ rest, rest <:+ retry ∧ GlobNarrow after rest := by
  constructor
  · intro retries
    obtain ⟨after', first', retry', rest, same, suffix, narrow⟩ := retries
    cases same
    exact ⟨rest, suffix, narrow⟩
  · intro found
    obtain ⟨rest, suffix, narrow⟩ := found
    exact ⟨after, first, retry, rest, rfl, suffix, narrow⟩

/-- A start behind a star is the place it was met at or one further on. -/
theorem starts_or_retries (after held : Str) :
    (∃ rest, rest <:+ held ∧ GlobNarrow after rest) ↔
      GlobNarrow after held ∨ Retries (some (after, held)) := by
  constructor
  · intro found
    obtain ⟨rest, suffix, narrow⟩ := found
    cases held with
    | nil =>
        have none : rest = [] := List.suffix_nil.mp suffix
        exact .inl (none ▸ narrow)
    | cons first retry =>
        rcases List.suffix_cons_iff.mp suffix with whole | behind
        · exact .inl (whole ▸ narrow)
        · exact .inr ((retries_held after retry first).mpr ⟨rest, behind, narrow⟩)
  · intro either
    rcases either with narrow | retries
    · exact ⟨held, List.suffix_rfl, narrow⟩
    · obtain ⟨after', first, retry, rest, same, suffix, narrow⟩ := retries
      cases same
      exact ⟨rest, suffix.trans (List.suffix_cons first retry), narrow⟩

/-- Starting again further on cannot do what going on from here cannot. -/
theorem retries_overtaken {star : Option (Str × Str)} {pattern input : Str}
    (kept : Kept star pattern input) (retries : Retries star) :
    ∃ later, later <:+ input ∧ GlobNarrow pattern later := by
  obtain ⟨after, first, retry, rest, same, suffix, narrow⟩ := retries
  exact (kept after (first :: retry) same).overtaken star_ne_any
    (suffix.trans (List.suffix_cons first retry)) narrow

/-- The matcher accepts what the narrow reading accepts, from here or behind its last star. -/
theorem globLoop_iff (pattern input : Str) (star : Option (Str × Str))
    (kept : Kept star pattern input) :
    globLoop pattern input star = true ↔ GlobNarrow pattern input ∨ Retries star := by
  fun_induction globLoop pattern input star with
  | case1 pattern star =>
      rw [onlyStars_iff]
      constructor
      · exact .inl
      · intro either
        rcases either with narrow | retries
        · exact narrow
        · obtain ⟨later, ended, narrow⟩ := retries_overtaken kept retries
          exact List.suffix_nil.mp ended ▸ narrow
  | case2 p pattern c input star agree ih =>
      have further : Kept star pattern input := fun after held same =>
        .step agree (kept after held same)
      exact (ih further).trans (or_congr_left (narrow_step star_ne_any agree).symm)
  | case3 pattern c input star differ ih =>
      have plain : c ≠ '*' := fun same => differ (.inr same.symm)
      have spans : GlobNarrow ('*' :: pattern) (c :: input) ↔
          GlobNarrow pattern (c :: input) ∨ Retries (some (pattern, c :: input)) :=
        (narrow_star_cons star_ne_any plain).trans (starts_or_retries pattern (c :: input))
      rw [ih (kept_fresh pattern (c :: input)), ← spans]
      constructor
      · exact .inl
      · intro either
        rcases either with narrow | retries
        · exact narrow
        · obtain ⟨later, suffix, narrow⟩ := retries_overtaken kept retries
          obtain ⟨rest, cut, inner⟩ := narrow.star_inv star_ne_any
          exact .span plain (cut.trans suffix) inner
  | case4 p pattern c input differ plain after first retry ih =>
      rw [ih (kept_fresh after retry), ← starts_or_retries, ← retries_held after retry first]
      exact (or_iff_right (narrow_differs differ plain)).symm
  | case5 p pattern c input star differ plain stuck =>
      apply iff_of_false Bool.false_ne_true
      intro either
      rcases either with narrow | retries
      · exact narrow_differs differ plain narrow
      · obtain ⟨after, first, retry, rest, same, -, -⟩ := retries
        exact stuck after first retry same
  | case6 c input after first retry ih =>
      rw [ih (kept_fresh after retry), ← starts_or_retries, ← retries_held after retry first]
      exact (or_iff_right nofun).symm
  | case7 c input star stuck =>
      apply iff_of_false Bool.false_ne_true
      intro either
      rcases either with narrow | retries
      · cases narrow
      · obtain ⟨after, first, retry, rest, same, -, -⟩ := retries
        exact stuck after first retry same

section Declared

variable (lower : Char → List Char) (pattern input : Str)

/-- The declared language: letters are folded as ASCII has them. -/
def Declared : Prop := GlobMatches (asciiLower pattern) (asciiLower input)

/-- The narrow reading of the two texts, their letters folded by the library. -/
def NarrowLower : Prop := GlobNarrow (pattern.flatMap lower) (input.flatMap lower)

theorem globMatchesCi_iff :
    globMatchesCi lower pattern input = true ↔ NarrowLower lower pattern input := by
  have start : Kept none (pattern.flatMap lower) (input.flatMap lower) := by
    intro after held same
    cases same
  apply (globLoop_iff _ _ none start).trans
  apply or_iff_left
  intro retries
  obtain ⟨after, first, retry, rest, same, -, -⟩ := retries
  cases same

variable {lower pattern input}

theorem flatMap_asciiLower (text : Str) (ascii : ∀ c ∈ text, lower c = [toAsciiLowercase c]) :
    text.flatMap lower = asciiLower text := by
  induction text with
  | nil => rfl
  | cons c rest ih =>
      rw [List.flatMap_cons, ascii c List.mem_cons_self,
        ih fun d member => ascii d (List.mem_cons_of_mem c member)]
      rfl

theorem narrowLower_declared (ascii : ∀ c ∈ pattern ++ input, lower c = [toAsciiLowercase c])
    (narrow : NarrowLower lower pattern input) : Declared pattern input := by
  have matched := narrow.matches
  rwa [flatMap_asciiLower pattern fun c member => ascii c (List.mem_append_left input member),
    flatMap_asciiLower input fun c member => ascii c (List.mem_append_right pattern member)]
    at matched

theorem toAsciiLowercase_star (c : Char) (star : toAsciiLowercase c = '*') : c = '*' := by
  unfold toAsciiLowercase at star
  split at star
  · rename_i letter
    have least : 65 ≤ c.toNat := letter.1
    have most : c.toNat ≤ 90 := letter.2
    have code : (Char.ofNat (c.toNat + 32)).toNat = 42 := congrArg Char.toNat star
    rw [Char.toNat_ofNat, if_pos (by left; omega)] at code
    omega
  · exact star

theorem declared_narrowLower (ascii : ∀ c ∈ pattern ++ input, lower c = [toAsciiLowercase c])
    (clean : '*' ∉ input) (declared : Declared pattern input) :
    NarrowLower lower pattern input := by
  have folded : '*' ∉ asciiLower input := by
    intro member
    obtain ⟨c, here, star⟩ := List.mem_map.mp member
    exact clean (toAsciiLowercase_star c star ▸ here)
  have narrow := Matches.narrow star_ne_any folded declared
  rwa [← flatMap_asciiLower pattern fun c member => ascii c (List.mem_append_left input member),
    ← flatMap_asciiLower input fun c member => ascii c (List.mem_append_right pattern member)]
    at narrow

end Declared

end Keyring

end Repartee.E2e
