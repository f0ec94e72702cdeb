import Mathlib

/-!
Glob patterns as languages. Beside the usual reading there is a narrow one, in which a star that
meets the star symbol in the input stands for that symbol alone; it is what a matcher reads that
compares symbols before it looks for wildcards.
-/

namespace Repartee.Lib.Glob

variable {α : Type} (star any : α)

/-- The texts of a pattern: a star stands for any text, the other wildcard for any one symbol. -/
inductive Matches : List α → List α → Prop
  | done : Matches [] []
  | skip {pattern input} : Matches pattern input → Matches (star :: pattern) input
  | take {c pattern input} : Matches (star :: pattern) input →
      Matches (star :: pattern) (c :: input)
  | one {c pattern input} : Matches pattern input → Matches (any :: pattern) (c :: input)
  | same {c pattern input} : c ≠ star → c ≠ any → Matches pattern input →
      Matches (c :: pattern) (c :: input)

/-- The narrow reading: a star that meets a star symbol stands for it alone. -/
inductive Narrow : List α → List α → Prop
  | done : Narrow [] []
  | finish {pattern} : Narrow pattern [] → Narrow (star :: pattern) []
  | face {pattern input} : Narrow pattern input → Narrow (star :: pattern) (star :: input)
  | span {c pattern input rest} : c ≠ star → rest <:+ c :: input → Narrow pattern rest →
      Narrow (star :: pattern) (c :: input)
  | one {c pattern input} : Narrow pattern input → Narrow (any :: pattern) (c :: input)
  | same {c pattern input} : c ≠ star → c ≠ any → Narrow pattern input →
      Narrow (c :: pattern) (c :: input)

variable {star any} {c d : α} {pattern input rest : List α}

section Usual

theorem Matches.span (suffix : rest <:+ input) (matched : Matches star any pattern rest) :
    Matches star any (star :: pattern) input := by
  obtain ⟨front, rfl⟩ := suffix
  induction front with
  | nil => exact .skip matched
  | cons c front ih => exact .take ih

/-- The narrow reading is one way to read a pattern. -/
theorem Narrow.matches (narrow : Narrow star any pattern input) :
    Matches star any pattern input := by
  induction narrow with
  | done => exact .done
  | finish _ ih => exact .skip ih
  | face _ ih => exact .take (.skip ih)
  | span _ suffix _ ih => exact ih.span suffix
  | one _ ih => exact .one ih
  | same plain other _ ih => exact .same plain other ih

/-- Behind a star the rest of the pattern reads an end of the input. -/
theorem Matches.star_inv (matched : Matches star any (star :: pattern) input)
    (distinct : star ≠ any) : ∃ rest, rest <:+ input ∧ Matches star any pattern rest := by
  generalize whole : star :: pattern = starred at matched
  induction matched with
  | done => cases whole
  | @skip pattern' input' inner _ =>
      cases whole
      exact ⟨input', List.suffix_rfl, inner⟩
  | @take c pattern' input' _ ih =>
      obtain ⟨rest, suffix, inner⟩ := ih whole
      exact ⟨rest, suffix.trans (List.suffix_cons c input'), inner⟩
  | one _ _ =>
      cases whole
      exact absurd rfl distinct
  | same plain _ _ _ =>
      cases whole
      exact absurd rfl plain

/-- Without the star symbol in the input the two readings agree. -/
theorem Matches.narrow (distinct : star ≠ any) (clean : star ∉ input)
    (matched : Matches star any pattern input) : Narrow star any pattern input := by
  induction matched with
  | done => exact .done
  | @skip pattern' input' inner ih =>
      cases input' with
      | nil => exact .finish (ih clean)
      | cons c rest =>
          have plain : c ≠ star := fun same => clean (same ▸ List.mem_cons_self)
          exact .span plain List.suffix_rfl (ih clean)
  | @take c pattern' input' inner ih =>
      have plain : c ≠ star := fun same => clean (same ▸ List.mem_cons_self)
      have later := ih fun member => clean (List.mem_cons_of_mem c member)
      cases later with
      | finish ended => exact .span plain (List.suffix_cons c []) ended
      | face _ => exact absurd (List.mem_cons_of_mem c List.mem_cons_self) clean
      | span _ suffix tail => exact .span plain (suffix.trans (List.suffix_cons c _)) tail
      | one _ => exact absurd rfl distinct
      | same plain' _ _ => exact absurd rfl plain'
  | one _ ih => exact .one (ih fun member => clean (List.mem_cons_of_mem _ member))
  | same plain other _ ih =>
      exact .same plain other (ih fun member => clean (List.mem_cons_of_mem _ member))

end Usual

section Inversion

variable (distinct : star ≠ any)
include distinct

theorem narrow_star_nil : Narrow star any (star :: pattern) [] ↔ Narrow star any pattern [] := by
  constructor
  · intro narrow
    cases narrow with
    | finish ended => exact ended
  · exact .finish

theorem narrow_star_star :
    Narrow star any (star :: pattern) (star :: input) ↔ Narrow star any pattern input := by
  constructor
  · intro narrow
    cases narrow with
    | face inner => exact inner
    | span plain _ _ => exact absurd rfl plain
    | one _ => exact absurd rfl distinct
    | same plain _ _ => exact absurd rfl plain
  · exact .face

theorem narrow_star_cons (plain : c ≠ star) :
    Narrow star any (star :: pattern) (c :: input) ↔
      ∃ rest, rest <:+ c :: input ∧ Narrow star any pattern rest := by
  constructor
  · intro narrow
    cases narrow with
    | face _ => exact absurd rfl plain
    | span _ suffix inner => exact ⟨_, suffix, inner⟩
    | one _ => exact absurd rfl distinct
    | same other _ _ => exact absurd rfl other
  · intro found
    obtain ⟨rest, suffix, inner⟩ := found
    exact .span plain suffix inner

theorem narrow_one :
    Narrow star any (any :: pattern) (c :: input) ↔ Narrow star any pattern input := by
  constructor
  · intro narrow
    cases narrow with
    | face _ => exact absurd rfl distinct
    | span _ _ _ => exact absurd rfl distinct
    | one inner => exact inner
    | same _ other _ => exact absurd rfl other
  · exact .one

omit distinct

theorem narrow_same (plain : c ≠ star) (other : c ≠ any) :
    Narrow star any (c :: pattern) (d :: input) ↔ c = d ∧ Narrow star any pattern input := by
  constructor
  · intro narrow
    cases narrow with
    | face _ => exact absurd rfl plain
    | span _ _ _ => exact absurd rfl plain
    | one _ => exact absurd rfl other
    | same _ _ inner => exact ⟨rfl, inner⟩
  · intro both
    obtain ⟨rfl, inner⟩ := both
    exact .same plain other inner

theorem narrow_nil : Narrow star any pattern [] ↔ ∀ c ∈ pattern, c = star := by
  induction pattern with
  | nil => exact iff_of_true .done (by simp)
  | cons c pattern ih =>
      constructor
      · intro narrow
        cases narrow with
        | finish ended => simpa using ih.mp ended
      · intro stars
        have first := stars c List.mem_cons_self
        subst first
        exact .finish (ih.mpr fun d member => stars d (List.mem_cons_of_mem c member))

theorem Narrow.star_inv (distinct : star ≠ any) (narrow : Narrow star any (star :: pattern) input) :
    ∃ rest, rest <:+ input ∧ Narrow star any pattern rest := by
  cases narrow with
  | finish ended => exact ⟨[], List.suffix_rfl, ended⟩
  | face inner => exact ⟨_, List.suffix_cons _ _, inner⟩
  | span _ suffix inner => exact ⟨_, suffix, inner⟩
  | one _ => exact absurd rfl distinct
  | same plain _ _ => exact absurd rfl plain

end Inversion

section Abreast

/-- The symbols of the pattern and of the input are compared one against one, a star like any other
symbol, and so far they agree. -/
inductive Abreast (any : α) (after held : List α) : List α → List α → Prop
  | start : Abreast any after held after held
  | step {p c pattern input} : p = any ∨ p = c →
      Abreast any after held (p :: pattern) (c :: input) → Abreast any after held pattern input

variable {p : α} {after held : List α}

theorem narrow_step (distinct : star ≠ any) (agree : p = any ∨ p = c) :
    Narrow star any (p :: pattern) (c :: input) ↔ Narrow star any pattern input := by
  by_cases wild : p = any
  · rw [wild]
    exact narrow_one distinct
  · obtain rfl := agree.resolve_left wild
    by_cases starred : p = star
    · rw [starred]
      exact narrow_star_star distinct
    · exact (narrow_same starred wild).trans (and_iff_right rfl)

/-- A reading that starts later in the input never falls behind. -/
theorem step_overtaken (distinct : star ≠ any) (agree : p = any ∨ p = c)
    (suffix : rest <:+ c :: input) (narrow : Narrow star any (p :: pattern) rest) :
    ∃ later, later <:+ input ∧ Narrow star any pattern later := by
  have shorter (d : α) (tail : List α) (cut : d :: tail <:+ c :: input) : tail <:+ input := by
    rcases List.suffix_cons_iff.mp cut with whole | inner
    · cases whole
      exact List.suffix_rfl
    · exact (List.suffix_cons d tail).trans inner
  cases narrow with
  | finish ended => exact ⟨[], List.nil_suffix, ended⟩
  | face inner => exact ⟨_, shorter _ _ suffix, inner⟩
  | @span d _ tail rest' plain cut inner =>
      have starred := agree.resolve_left distinct
      rcases List.suffix_cons_iff.mp suffix with whole | behind
      · cases whole
        exact absurd starred.symm plain
      · exact ⟨rest', cut.trans behind, inner⟩
  | one inner => exact ⟨_, shorter _ _ suffix, inner⟩
  | same _ _ inner => exact ⟨_, shorter _ _ suffix, inner⟩

theorem Abreast.overtaken (distinct : star ≠ any) (abreast : Abreast any after held pattern input)
    (suffix : rest <:+ held) (narrow : Narrow star any after rest) :
    ∃ later, later <:+ input ∧ Narrow star any pattern later := by
  induction abreast with
  | start => exact ⟨rest, suffix, narrow⟩
  | step agree _ ih =>
      obtain ⟨later, behind, inner⟩ := ih
      exact step_overtaken distinct agree behind inner

end Abreast

end Repartee.Lib.Glob
