import Mathlib

/-!
Keyset pagination: pages of the rows below a cursor, newest first, each next cursor being the key
of the last row of the page before.
-/

namespace Repartee.Lib

variable {ε ρ β κ : Type} [LinearOrder κ]

/-- The rows by descending key. -/
def newestFirst (key : ρ → κ) (rows : List ρ) : List ρ :=
  rows.insertionSort fun a b => key b ≤ key a

/-- No cursor lets every row through, a cursor the rows strictly below it. -/
def below (key : ρ → κ) (before : Option κ) (row : ρ) : Bool :=
  before.elim true fun cursor => decide (key row < cursor)

/-- Pages read one after the other until one is empty; `none` when the pages outnumber the fuel. -/
def follow (page : Option κ → Except ε (List β)) (cursor : β → κ) :
    Nat → Option κ → Option (Except ε (List β))
  | 0, _ => none
  | fuel + 1, before =>
      match page before with
      | .error e => some (.error e)
      | .ok rows =>
          match rows.getLast? with
          | none => some (.ok [])
          | some last =>
              (follow page cursor fuel (some (cursor last))).map fun rest =>
                rest.map fun later => rows ++ later

variable (key : ρ → κ)

theorem newestFirst_perm (rows : List ρ) : (newestFirst key rows).Perm rows :=
  List.perm_insertionSort _ rows

theorem newestFirst_sorted (rows : List ρ) :
    (newestFirst key rows).Pairwise fun a b => key b ≤ key a := by
  have total : Std.Total fun a b : ρ => key b ≤ key a := ⟨fun a b => le_total (key b) (key a)⟩
  have trans : IsTrans ρ fun a b => key b ≤ key a := ⟨fun a b c first second => second.trans first⟩
  exact List.pairwise_insertionSort _ rows

/-- With no key twice the order is strict. -/
theorem newestFirst_strict (rows : List ρ) (distinct : (rows.map key).Nodup) :
    (newestFirst key rows).Pairwise fun a b => key b < key a := by
  have different : (newestFirst key rows).Pairwise fun a b => key a ≠ key b := by
    apply List.pairwise_map.mp
    exact ((newestFirst_perm key rows).map key).nodup_iff.mpr distinct
  apply ((newestFirst_sorted key rows).and different).imp
  intro a b both
  exact lt_of_le_of_ne both.1 both.2.symm

/-- A list in strictly descending order is what its rows sort to. -/
theorem newestFirst_eq (rows sorted : List ρ) (perm : sorted.Perm rows)
    (strict : sorted.Pairwise fun a b => key b < key a) : newestFirst key rows = sorted := by
  apply @List.Perm.eq_of_pairwise ρ (fun a b => key b ≤ key a) _ _ ?_ (newestFirst_sorted key rows)
    (strict.imp fun lower => le_of_lt lower) ((newestFirst_perm key rows).trans perm.symm)
  intro a b inRows inSorted ab ba
  have same : key a = key b := le_antisymm ba ab
  have inSortedToo : a ∈ sorted :=
    perm.mem_iff.mpr ((newestFirst_perm key rows).mem_iff.mp inRows)
  have distinct : (sorted.map key).Nodup := by
    apply List.pairwise_map.mpr
    exact strict.imp fun lower => (ne_of_lt lower).symm
  exact List.inj_on_of_nodup_map distinct inSortedToo inSorted same

/-- What a page that is a beginning of the rows below the cursor leaves is what lies below the
key of its last row. -/
theorem newestFirst_below_last (rows page rest : List ρ) (before : Option κ) (last : ρ)
    (distinct : (rows.map key).Nodup)
    (parts : newestFirst key (rows.filter (below key before)) = page ++ rest)
    (ends : page.getLast? = some last) :
    newestFirst key (rows.filter (below key (some (key last)))) = rest := by
  have kept : ((rows.filter (below key before)).map key).Nodup :=
    distinct.sublist (List.filter_sublist.map key)
  have strict := newestFirst_strict key _ kept
  rw [parts, List.pairwise_append] at strict
  have inPage : last ∈ page := List.mem_of_getLast? ends
  have apart : ∀ row ∈ page, key last ≤ key row := by
    obtain ⟨front, rfl⟩ := List.getLast?_eq_some_iff.mp ends
    intro row member
    rcases List.mem_append.mp member with earlier | same
    · exact le_of_lt ((List.pairwise_append.mp strict.1).2.2 row earlier last (by simp))
    · rw [List.mem_singleton.mp same]
  have under : below key before last = true := by
    have member : last ∈ rows.filter (below key before) := by
      apply (newestFirst_perm key _).mem_iff.mp
      rw [parts]
      exact List.mem_append_left rest inPage
    exact (List.mem_filter.mp member).2
  apply newestFirst_eq key _ rest ?_ strict.2.1
  have split : (rows.filter (below key (some (key last)))).Perm
      ((page ++ rest).filter (below key (some (key last)))) := by
    rw [← parts]
    apply List.Perm.trans ?_ ((newestFirst_perm key _).symm.filter _)
    rw [List.filter_filter]
    apply List.Perm.of_eq
    apply List.filter_congr
    intro row _
    cases before with
    | none => simp [below]
    | some cursor =>
        have above : key last < cursor := by simpa [below] using under
        by_cases lower : key row < key last
        · simp [below, lower, lower.trans above]
        · simp [below, lower]
  apply List.Perm.trans ?_ split.symm
  rw [List.filter_append]
  have none : page.filter (below key (some (key last))) = [] := by
    apply List.filter_eq_nil_iff.mpr
    intro row member
    simpa [below] using apart row member
  have all : rest.filter (below key (some (key last))) = rest := by
    apply List.filter_eq_self.mpr
    intro row member
    simpa [below] using strict.2.2 last inPage row member
  rw [none, all, List.nil_append]

variable {key} {page : Option κ → Except ε (List β)} {cursor : β → κ} {front : List ρ → List ρ}
  {rows : List ρ} {decoded : ρ → β}

/-- Following the cursors lists every row once, newest first, and ends. -/
theorem follow_from (distinct : (rows.map key).Nodup) (isFront : ∀ list, front list <+: list)
    (progress : ∀ list, list ≠ [] → front list ≠ [])
    (agrees : ∀ row ∈ rows, cursor (decoded row) = key row)
    (pages : ∀ before, (∀ k ∈ before, k ∈ rows.map key) → page before =
      .ok ((front (newestFirst key (rows.filter (below key before)))).map decoded))
    (fuel : Nat) (before : Option κ) (reached : ∀ k ∈ before, k ∈ rows.map key)
    (enough : (rows.filter (below key before)).length < fuel) :
    follow page cursor fuel before =
      some (.ok ((newestFirst key (rows.filter (below key before))).map decoded)) := by
  induction fuel generalizing before with
  | zero => omega
  | succ fuel ih =>
      obtain ⟨rest, parts⟩ := isFront (newestFirst key (rows.filter (below key before)))
      rw [follow, pages before reached]
      simp only [List.getLast?_map]
      cases ends : (front (newestFirst key (rows.filter (below key before)))).getLast? with
      | none =>
          have done : newestFirst key (rows.filter (below key before)) = [] := by
            by_contra some
            exact progress _ some (List.getLast?_eq_none_iff.mp ends)
          simp [done]
      | some last =>
          have left := newestFirst_below_last key rows _ rest before last distinct parts.symm ends
          have member : last ∈ rows := by
            have shown := List.mem_append_left rest (List.mem_of_getLast? ends)
            rw [parts] at shown
            exact (List.mem_filter.mp ((newestFirst_perm key _).mem_iff.mp shown)).1
          have fewer : (rows.filter (below key (some (key last)))).length < fuel := by
            have counted := congrArg List.length parts
            have total := (newestFirst_perm key (rows.filter (below key before))).length_eq
            have remaining :=
              (newestFirst_perm key (rows.filter (below key (some (key last))))).length_eq
            have some := List.length_pos_of_mem (List.mem_of_getLast? ends)
            rw [List.length_append] at counted
            rw [left] at remaining
            omega
          have joined := congrArg (List.map decoded) parts
          rw [List.map_append] at joined
          simp only [Option.map_some, agrees last member]
          have next : ∀ k ∈ some (key last), k ∈ rows.map key := by
            intro k same
            rw [← Option.some.inj same]
            exact List.mem_map_of_mem member
          rw [ih (some (key last)) next fewer, left, ← joined]
          rfl

end Repartee.Lib
