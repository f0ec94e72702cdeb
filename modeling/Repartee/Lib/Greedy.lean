import Mathlib

/-!
Packing items in order into groups: a group is closed when the next item does not go with it. Where
the groups begin is said by the items alone, and so is whether every group holds a wanted item.
-/

namespace Repartee.Lib.Greedy

variable {α : Type} (together : List α → Prop)

/-- The group being filled and those after it. -/
def groups [DecidablePred together] : List α → List α → List (List α)
  | group, [] => [group]
  | group, item :: rest =>
      if together (group ++ [item]) then groups (group ++ [item]) rest
      else group :: groups [item] rest

/-- The places where a group begins: the first item, and every item that no longer goes with those
since the last such place. -/
inductive Begins (items : List α) : List α → Prop
  | first : Begins items items
  | next {group item rest} : Begins items (group ++ item :: rest) → group ≠ [] → together group →
      ¬together (group ++ [item]) → Begins items (item :: rest)

/-- From here there are unwanted items and then a wanted one that goes with them. -/
def Reaches (wanted : α → Prop) (place : List α) : Prop :=
  ∃ front item rest, place = front ++ item :: rest ∧ (∀ x ∈ front, ¬wanted x) ∧ wanted item ∧
    together (front ++ [item])

variable {together} {wanted : α → Prop} {group items place : List α} {item : α} {rest : List α}

section Wanted

theorem reaches_of_mem (shrinks : ∀ a b, together (a ++ b) → together a) (fits : together group)
    (some : ∃ x ∈ group, wanted x) (tail : List α) : Reaches together wanted (group ++ tail) := by
  classical
  obtain ⟨x, member, holds⟩ := some
  have found : (group.find? fun y => decide (wanted y)).isSome = true :=
    List.find?_isSome.mpr ⟨x, member, decide_eq_true holds⟩
  obtain ⟨first, isFirst⟩ := Option.isSome_iff_exists.mp found
  obtain ⟨holds, front, back, rfl, others⟩ := List.find?_eq_some_iff_append.mp isFirst
  refine ⟨front, first, back ++ tail, by simp, ?_, of_decide_eq_true holds, ?_⟩
  · intro y inside wantedY
    have unwanted := others y inside
    simp [wantedY] at unwanted
  · apply shrinks (front ++ [first]) back
    simpa using fits

/-- A wanted item that goes with all before it stands before the first item that does not. -/
theorem mem_of_reaches (shrinks : ∀ a b, together (a ++ b) → together a)
    (full : ¬together (group ++ [item]))
    (reaches : Reaches together wanted (group ++ item :: rest)) : ∃ x ∈ group, wanted x := by
  obtain ⟨front, found, back, same, -, holds, fits⟩ := reaches
  rcases List.append_eq_append_iff.mp same with ⟨more, shape, tail⟩ | ⟨more, shape, tail⟩
  · cases more with
    | nil =>
        cases tail
        rw [List.append_nil] at shape
        exact absurd (shape ▸ fits) full
    | cons next more =>
        cases tail
        apply absurd _ full
        apply shrinks _ (more ++ [found])
        simpa [shape] using fits
  · cases more with
    | nil =>
        cases tail
        rw [List.append_nil] at shape
        exact absurd (shape ▸ fits) full
    | cons next more =>
        cases tail
        exact ⟨found, by simp [shape], holds⟩

theorem mem_of_reaches_last (reaches : Reaches together wanted group) : ∃ x ∈ group, wanted x := by
  obtain ⟨front, found, back, rfl, -, holds, -⟩ := reaches
  exact ⟨found, by simp, holds⟩

end Wanted

section Places

/-- The items tell where the first group ends. -/
theorem group_unique (shrinks : ∀ a b, together (a ++ b) → together a) {group' rest' : List α}
    {item' : α} (fits : together group) (full : ¬together (group ++ [item]))
    (fits' : together group') (full' : ¬together (group' ++ [item']))
    (same : group' ++ item' :: rest' = group ++ item :: rest) : item' :: rest' = item :: rest := by
  rcases List.append_eq_append_iff.mp same with ⟨more, shape, tail⟩ | ⟨more, shape, tail⟩
  · cases more with
    | nil => simpa using tail
    | cons next more =>
        cases tail
        apply absurd _ full'
        apply shrinks _ more
        simpa [shape] using fits
  · cases more with
    | nil => simpa using tail.symm
    | cons next more =>
        cases tail
        apply absurd _ full
        apply shrinks _ more
        simpa [shape] using fits'

/-- Behind a full group the places are those of the items that follow it. -/
theorem begins_iff (shrinks : ∀ a b, together (a ++ b) → together a) (some : group ≠ [])
    (fits : together group) (full : ¬together (group ++ [item])) :
    Begins together (group ++ item :: rest) place ↔
      place = group ++ item :: rest ∨ Begins together (item :: rest) place := by
  constructor
  · intro begins
    induction begins with
    | first => exact .inl rfl
    | next _ nonempty fits' full' ih =>
        rcases ih with whole | later
        · have same := group_unique shrinks fits full fits' full' whole
          rw [same]
          exact .inr .first
        · exact .inr (.next later nonempty fits' full')
  · intro either
    rcases either with rfl | later
    · exact .first
    · induction later with
      | first => exact .next .first some fits full
      | next _ nonempty fits' full' ih => exact .next ih nonempty fits' full'

theorem begins_last (shrinks : ∀ a b, together (a ++ b) → together a) (fits : together group) :
    Begins together group place ↔ place = group := by
  constructor
  · intro begins
    induction begins with
    | first => rfl
    | @next group' item' rest' _ _ _ full' ih =>
        apply absurd _ full'
        apply shrinks _ rest'
        rw [← ih] at fits
        simpa using fits
  · intro same
    rw [same]
    exact .first

end Places

/-- Every group holds a wanted item exactly when from every place where a group begins a wanted
item is reached that goes with what stands before it. -/
theorem groups_wanted [DecidablePred together] (shrinks : ∀ a b, together (a ++ b) → together a)
    (some : group ≠ []) (fits : together group) (alone : ∀ item ∈ rest, together [item]) :
    (∀ g ∈ groups together group rest, ∃ x ∈ g, wanted x) ↔
      ∀ place, Begins together (group ++ rest) place → Reaches together wanted place := by
  induction rest generalizing group with
  | nil =>
      simp only [groups, List.mem_singleton, forall_eq, List.append_nil,
        begins_last shrinks fits]
      constructor
      · intro found
        simpa using reaches_of_mem shrinks fits found []
      · exact mem_of_reaches_last
  | cons item rest ih =>
      have later : ∀ next ∈ rest, together [next] := fun next member =>
        alone next (List.mem_cons_of_mem item member)
      by_cases room : together (group ++ [item])
      · have same : groups together group (item :: rest) =
            groups together (group ++ [item]) rest := if_pos room
        have further := ih (by simp) room later
        simpa [same] using further
      · have same : groups together group (item :: rest) =
            group :: groups together [item] rest := if_neg room
        have further := ih (by simp) (alone item List.mem_cons_self) later
        simp only [List.singleton_append] at further
        simp only [same, List.forall_mem_cons, further, begins_iff shrinks some fits room,
          forall_eq_or_imp]
        apply and_congr_left
        intro _
        constructor
        · intro found
          exact reaches_of_mem shrinks fits found (item :: rest)
        · exact mem_of_reaches shrinks room

end Repartee.Lib.Greedy
