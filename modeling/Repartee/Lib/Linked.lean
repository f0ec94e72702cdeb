import Mathlib

/-!
Rows that refer back to an earlier row by its key, under the operations of a log: rows are appended,
dropped on the way, and stored unless their key is taken.
-/

namespace Repartee.Lib.Linked

variable {α κ : Type} [DecidableEq κ] (key : α → κ) (ref : α → Option κ) (carries : α → α → Prop)

/-- The first row under a key. -/
def under (rows : List α) (k : κ) : Option α := rows.find? fun x => decide (key x = k)

/-- What a row refers to is found among the rows ahead, and is what it should be. -/
def Resolved (ahead : List α) (r : α) : Prop :=
  ∀ k, ref r = some k → ∃ p, under key ahead k = some p ∧ carries p r

/-- Every row of a list is resolved by the rows ahead of it. -/
def LinkedFrom (ahead : List α) : List α → Prop
  | [] => True
  | r :: rest => Resolved key ref carries ahead r ∧ LinkedFrom (ahead ++ [r]) rest

/-- Stores a row unless its key is taken. -/
def insertNew (rows : List α) (r : α) : List α :=
  if rows.any fun x => decide (key x = key r) then rows else rows ++ [r]

variable {key ref carries}

theorem under_append (ahead more : List α) (k : κ) :
    under key (ahead ++ more) k = (under key ahead k).or (under key more k) := List.find?_append

theorem under_eq_none {rows : List α} {k : κ} : under key rows k = none ↔ ∀ x ∈ rows, key x ≠ k := by
  simp only [under, List.find?_eq_none, decide_eq_true_eq]

theorem mem_of_under {rows : List α} {k : κ} {p : α} (found : under key rows k = some p) :
    p ∈ rows ∧ key p = k :=
  ⟨List.mem_of_find?_eq_some found, of_decide_eq_true (List.find?_some found :)⟩

theorem Resolved.of_agree {x y : List α} {r : α} (resolved : Resolved key ref carries x r)
    (agree : ∀ k, ref r = some k → under key x k = under key y k) : Resolved key ref carries y r := by
  intro k refers
  rw [← agree k refers]
  exact resolved k refers

theorem Resolved.more {ahead : List α} {r : α} (resolved : Resolved key ref carries ahead r)
    (more : List α) : Resolved key ref carries (ahead ++ more) r := by
  intro k refers
  rcases resolved k refers with ⟨p, found, carried⟩
  exact ⟨p, by rw [under_append, found, Option.some_or], carried⟩

theorem linkedFrom_append (ahead first second : List α) :
    LinkedFrom key ref carries ahead (first ++ second) ↔
      LinkedFrom key ref carries ahead first ∧
        LinkedFrom key ref carries (ahead ++ first) second := by
  induction first generalizing ahead with
  | nil => simp [LinkedFrom]
  | cons r rest ih => simp [LinkedFrom, ih, and_assoc]

/-- Only what the rows refer to matters of the rows ahead. -/
theorem LinkedFrom.of_agree {rows x y : List α} (linked : LinkedFrom key ref carries x rows)
    (agree : ∀ r ∈ rows, ∀ k, ref r = some k → under key x k = under key y k) :
    LinkedFrom key ref carries y rows := by
  induction rows generalizing x y with
  | nil => trivial
  | cons r rest ih =>
      constructor
      · exact linked.1.of_agree (agree r List.mem_cons_self)
      · apply ih linked.2
        intro q member k refers
        rw [under_append, under_append, agree q (List.mem_cons_of_mem _ member) k refers]

/-- Rows may be dropped from a list unless a row that is kept refers to them. -/
theorem LinkedFrom.thin {β : Type} {entry : β → α} {ahead later : List α} {rows : List β}
    (keep : β → Bool) (linked : LinkedFrom key ref carries ahead (rows.map entry ++ later))
    (unreferenced : ∀ p ∈ rows, keep p = false → ∀ r ∈ (rows.filter keep).map entry ++ later,
      ref r ≠ some (key (entry p))) :
    LinkedFrom key ref carries ahead ((rows.filter keep).map entry ++ later) := by
  induction rows generalizing ahead with
  | nil => exact linked
  | cons q rest ih =>
      have tail : ∀ p ∈ rest, keep p = false → ∀ r ∈ (rest.filter keep).map entry ++ later,
          ref r ≠ some (key (entry p)) := by
        intro p member dropped r survivor
        apply unreferenced p (List.mem_cons_of_mem _ member) dropped
        rw [List.filter_cons]
        split
        · exact List.mem_cons_of_mem _ survivor
        · exact survivor
      have thinned := ih linked.2 tail
      cases kept : keep q with
      | true =>
          rw [List.filter_cons_of_pos kept]
          exact ⟨linked.1, thinned⟩
      | false =>
          have gone : ¬keep q = true := by simp [kept]
          rw [List.filter_cons_of_neg gone]
          apply thinned.of_agree
          intro r survivor k refers
          have other : key (entry q) ≠ k := by
            intro same
            apply unreferenced q List.mem_cons_self kept r _ (same ▸ refers)
            rw [List.filter_cons_of_neg gone]
            exact survivor
          rw [under_append]
          simp [under, other]

theorem under_insertNew (rows : List α) (r : α) (k : κ) :
    under key (insertNew key rows r) k = under key (rows ++ [r]) k := by
  unfold insertNew
  split
  · next taken =>
      rw [List.any_eq_true] at taken
      rcases taken with ⟨x, member, same⟩
      rw [under_append]
      cases found : under key rows k with
      | some p => rfl
      | none =>
          have other : key r ≠ k := by
            intro here
            exact under_eq_none.mp found x member ((of_decide_eq_true same).trans here)
          simp [under, other]
  · rfl

theorem mem_insertNew {rows : List α} {r x : α} (member : x ∈ insertNew key rows r) :
    x ∈ rows ∨ x = r := by
  unfold insertNew at member
  split at member
  · exact Or.inl member
  · simpa using member

/-- Storing the rows of a list one after another leaves every stored row resolved. -/
theorem LinkedFrom.store {stored rows later : List α}
    (settled : ∀ r ∈ stored, Resolved key ref carries stored r)
    (linked : LinkedFrom key ref carries stored (rows ++ later)) :
    (∀ r ∈ rows.foldl (insertNew key) stored,
      Resolved key ref carries (rows.foldl (insertNew key) stored) r) ∧
    LinkedFrom key ref carries (rows.foldl (insertNew key) stored) later := by
  induction rows generalizing stored with
  | nil => exact ⟨settled, linked⟩
  | cons q rest ih =>
      apply ih
      · intro r member
        have before : Resolved key ref carries stored r := by
          cases mem_insertNew member with
          | inl old => exact settled r old
          | inr new => exact new ▸ linked.1
        exact (before.more [q]).of_agree fun k _ => (under_insertNew stored q k).symm
      · exact linked.2.of_agree fun r _ k _ => (under_insertNew stored q k).symm

/-- The first row under a key is the same after a deletion that takes no row under the key. -/
theorem under_filter {β : Type} {entry : β → α} (keep : β → Bool) (stored : List β) {k : κ}
    (kept : ∀ p ∈ stored, key (entry p) = k → keep p = true) :
    under key ((stored.filter keep).map entry) k = under key (stored.map entry) k := by
  induction stored with
  | nil => rfl
  | cons p rest ih =>
      have tail := ih fun q member => kept q (List.mem_cons_of_mem _ member)
      by_cases here : key (entry p) = k
      · rw [List.filter_cons_of_pos (kept p List.mem_cons_self here)]
        simp [under, here]
      · rw [List.filter_cons]
        split
        · simpa [under, here] using tail
        · simpa [under, here] using tail

/-- Stored rows may be deleted when what is kept of them keeps what it refers to. -/
theorem Resolved.filter {β : Type} {entry : β → α} {stored : List β} {r : α} (keep : β → Bool)
    (resolved : Resolved key ref carries (stored.map entry) r)
    (together : ∀ p ∈ stored, carries (entry p) r → keep p = true) :
    Resolved key ref carries ((stored.filter keep).map entry) r := by
  intro k refers
  rcases resolved k refers with ⟨p, found, carried⟩
  apply Exists.intro p
  apply And.intro _ carried
  clear refers resolved
  induction stored with
  | nil => exact found
  | cons q rest ih =>
      by_cases here : key (entry q) = k
      · have same : entry q = p := by simpa [under, here] using found
        rw [List.filter_cons_of_pos (together q List.mem_cons_self (same ▸ carried))]
        simpa [under, here] using same
      · have tail := ih (fun x member => together x (List.mem_cons_of_mem _ member))
          (by simpa [under, here] using found)
        rw [List.filter_cons]
        split
        · simpa [under, here] using tail
        · exact tail

theorem LinkedFrom.filter {β : Type} {entry : β → α} {stored : List β} {rows : List α}
    (keep : β → Bool) (linked : LinkedFrom key ref carries (stored.map entry) rows)
    (unreferenced : ∀ p ∈ stored, keep p = false → ∀ r ∈ rows, ref r ≠ some (key (entry p))) :
    LinkedFrom key ref carries ((stored.filter keep).map entry) rows := by
  apply linked.of_agree
  intro r member k refers
  symm
  apply under_filter
  intro p stored_ here
  cases keeps : keep p with
  | true => rfl
  | false => exact absurd (here ▸ refers) (unreferenced p stored_ keeps r member)

end Repartee.Lib.Linked
