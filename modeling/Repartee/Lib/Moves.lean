import Repartee.Lib.Table

/-!
Moves of a map's entries from key to key, carried out one after the other, and where they leave each
entry: where its first move takes it, as long as no move goes to a key that is still to be moved.
-/

namespace Repartee.Lib

variable {κ ν : Type} [DecidableEq κ]

/-- Takes the entry at the first key, if there is one, to the second. -/
def moveEntry (m : Map κ ν) (move : κ × κ) : Map κ ν :=
  match m.get? move.1 with
  | some v => Map.insert (m.erase move.1) move.2 v
  | none => m

def replay (m : Map κ ν) (moves : List (κ × κ)) : Map κ ν := moves.foldl moveEntry m

/-- Where the first move of a key goes. -/
def firstMove : List (κ × κ) → κ → Option κ
  | [], _ => none
  | move :: rest, k => if move.1 = k then some move.2 else firstMove rest k

/-- The moves behind the first one of a key. -/
def behind : List (κ × κ) → κ → List (κ × κ)
  | [], _ => []
  | move :: rest, k => if move.1 = k then rest else behind rest k

def place (moves : List (κ × κ)) (k : κ) : κ := (firstMove moves k).getD k

/-- No entry is moved to a key that is moved later. -/
def Ordered (here : κ → Prop) (moves : List (κ × κ)) : Prop :=
  ∀ k, here k → ∀ move ∈ behind moves k, firstMove moves k ≠ some move.1

theorem get?_moveEntry (m : Map κ ν) (move : κ × κ) (k : κ) (v : ν) (found : m.get? move.1 = some v) :
    (moveEntry m move).get? k =
      if move.2 = k then some v else if k = move.1 then none else m.get? k := by
  rw [moveEntry, found]
  simp only [Map.get?_insert, Map.get?_erase, eq_comm]

theorem firstMove_eq_none (moves : List (κ × κ)) (k : κ) :
    firstMove moves k = none ↔ ∀ move ∈ moves, move.1 ≠ k := by
  induction moves with
  | nil => simp [firstMove]
  | cons move rest ih =>
      by_cases same : move.1 = k
      · simp [firstMove, same]
      · simp [firstMove, same, ih]

theorem mem_of_firstMove {moves : List (κ × κ)} {k t : κ} (first : firstMove moves k = some t) :
    (k, t) ∈ moves := by
  induction moves with
  | nil => cases first
  | cons move rest ih =>
      by_cases same : move.1 = k
      · simp only [firstMove, same, if_true, Option.some.injEq] at first
        rw [← same, ← first]
        exact List.mem_cons_self
      · simp only [firstMove, same, if_false] at first
        exact List.mem_cons_of_mem _ (ih first)

theorem behind_eq_nil (moves : List (κ × κ)) (k : κ) (unmoved : firstMove moves k = none) :
    behind moves k = [] := by
  induction moves with
  | nil => rfl
  | cons move rest ih =>
      by_cases same : move.1 = k
      · simp [firstMove, same] at unmoved
      · simp only [firstMove, same, if_false] at unmoved
        simp [behind, same, ih unmoved]

theorem mem_of_behind {moves : List (κ × κ)} {k : κ} {move : κ × κ} (later : move ∈ behind moves k) :
    move ∈ moves := by
  induction moves with
  | nil => cases later
  | cons first rest ih =>
      by_cases same : first.1 = k
      · simp only [behind, same, if_true] at later
        exact List.mem_cons_of_mem _ later
      · simp only [behind, same, if_false] at later
        exact List.mem_cons_of_mem _ (ih later)

/-! ### Moves dropped, turned and added -/

section Edits

variable (moves : List (κ × κ)) (k : κ)

theorem firstMove_filter (keeps : κ × κ → Bool)
    (kept : ∀ t, firstMove moves k = some t → keeps (k, t) = true) :
    firstMove (moves.filter keeps) k = firstMove moves k := by
  induction moves with
  | nil => rfl
  | cons move rest ih =>
      by_cases same : move.1 = k
      · have stays : keeps move = true := by
          have whole : move = (k, move.2) := Prod.ext same rfl
          rw [whole]
          exact kept move.2 (by simp [firstMove, same])
        simp [firstMove, same, stays]
      · have later := ih (by simpa [firstMove, same] using kept)
        by_cases stays : keeps move = true
        · simp [firstMove, same, stays, later]
        · simp [firstMove, same, stays, later]

theorem behind_filter (keeps : κ × κ → Bool)
    (kept : ∀ t, firstMove moves k = some t → keeps (k, t) = true) :
    behind (moves.filter keeps) k = (behind moves k).filter keeps := by
  induction moves with
  | nil => rfl
  | cons move rest ih =>
      by_cases same : move.1 = k
      · have stays : keeps move = true := by
          have whole : move = (k, move.2) := Prod.ext same rfl
          rw [whole]
          exact kept move.2 (by simp [firstMove, same])
        simp [behind, same, stays]
      · have later := ih (by simpa [firstMove, same] using kept)
        by_cases stays : keeps move = true
        · simp [behind, same, stays, later]
        · simp [behind, same, stays, later]

theorem firstMove_map (turn : κ → κ) :
    firstMove (moves.map fun move => (move.1, turn move.2)) k = (firstMove moves k).map turn := by
  induction moves with
  | nil => rfl
  | cons move rest ih =>
      by_cases same : move.1 = k
      · simp [firstMove, same]
      · simp [firstMove, same, ih]

theorem behind_map (turn : κ → κ) :
    behind (moves.map fun move => (move.1, turn move.2)) k =
      (behind moves k).map fun move => (move.1, turn move.2) := by
  induction moves with
  | nil => rfl
  | cons move rest ih =>
      by_cases same : move.1 = k
      · simp [behind, same]
      · simp [behind, same, ih]

theorem firstMove_concat (last : κ × κ) :
    firstMove (moves ++ [last]) k =
      (firstMove moves k).or (if last.1 = k then some last.2 else none) := by
  induction moves with
  | nil => simp [firstMove]
  | cons move rest ih =>
      by_cases same : move.1 = k
      · simp [firstMove, same]
      · simp [firstMove, same, ih]

theorem mem_behind_concat {last move : κ × κ} (later : move ∈ behind (moves ++ [last]) k) :
    (firstMove moves k).isSome = true ∧ (move ∈ behind moves k ∨ move = last) := by
  induction moves with
  | nil =>
      by_cases same : last.1 = k
      · simp [behind, same] at later
      · simp [behind, same] at later
  | cons first rest ih =>
      by_cases same : first.1 = k
      · simpa [behind, firstMove, same] using later
      · simpa [behind, firstMove, same] using ih (by simpa [behind, same] using later)

end Edits

/-! ### Where the entries end -/

theorem place_cons_of_ne {move : κ × κ} {k : κ} (other : move.1 ≠ k) (rest : List (κ × κ)) :
    place (move :: rest) k = place rest k := by
  simp [place, firstMove, other]

theorem Ordered.tail {here : κ → Prop} {move : κ × κ} {rest : List (κ × κ)}
    (ordered : Ordered here (move :: rest)) (here' : κ → Prop)
    (fewer : ∀ k, here' k → k ≠ move.1 ∧ here k ∨ firstMove rest k = none) : Ordered here' rest := by
  intro k present later member
  rcases fewer k present with ⟨other, was⟩ | unmoved
  · have order := ordered k was later
    simpa [behind, firstMove, Ne.symm other, member] using order
  · rw [behind_eq_nil rest k unmoved] at member
    cases member

/-- Moves in order leave every entry where its first move goes, if these places differ. -/
theorem get?_replay (m : Map κ ν) (moves : List (κ × κ))
    (ordered : Ordered (fun k => (m.get? k).isSome = true) moves)
    (apart : ∀ f g, (m.get? f).isSome = true → (m.get? g).isSome = true →
      place moves f = place moves g → f = g) (k : κ) (v : ν) :
    (replay m moves).get? k = some v ↔ ∃ f, m.get? f = some v ∧ place moves f = k := by
  induction moves generalizing m with
  | nil => simp [replay, place, firstMove]
  | cons move rest ih =>
      cases found : m.get? move.1 with
      | none =>
          have stays : moveEntry m move = m := by simp [moveEntry, found]
          have other (f : κ) (present : (m.get? f).isSome = true) : move.1 ≠ f := by
            intro same
            simp [← same, found] at present
          have later := ih m
            (ordered.tail _ fun f present => Or.inl ⟨Ne.symm (other f present), present⟩)
            (by
              intro f g here there same
              apply apart f g here there
              rwa [place_cons_of_ne (other f here), place_cons_of_ne (other g there)])
          rw [replay, List.foldl_cons, stays, ← replay, later]
          apply exists_congr
          intro f
          apply and_congr_right
          intro present
          rw [place_cons_of_ne (other f (by simp [present]))]
      | some w =>
          have source : (m.get? move.1).isSome = true := by simp [found]
          have final : ∀ later ∈ rest, later.1 ≠ move.2 := by
            intro later member same
            have order := ordered move.1 source later (by simpa [behind] using member)
            simp [firstMove, same] at order
          have stays : firstMove rest move.2 = none := (firstMove_eq_none rest _).mpr final
          have landed : place rest move.2 = move.2 := by simp [place, stays]
          have first : place (move :: rest) move.1 = move.2 := by simp [place, firstMove]
          have moved (f : κ) := get?_moveEntry m move f w found
          -- what is there after the move is the moved entry or one that was there before
          have kept (f : κ) (present : ((moveEntry m move).get? f).isSome = true)
              (elsewhere : move.2 ≠ f) : move.1 ≠ f ∧ (m.get? f).isSome = true := by
            rw [moved f, if_neg elsewhere] at present
            by_cases same : f = move.1
            · simp [same] at present
            · rw [if_neg same] at present
              exact ⟨Ne.symm same, present⟩
          have later := ih (moveEntry m move)
            (ordered.tail _ (by
              intro f present
              by_cases same : move.2 = f
              · right
                rw [← same]
                exact stays
              · left
                exact ⟨Ne.symm (kept f present same).1, (kept f present same).2⟩))
            (by
              intro f g here there same
              by_cases sameF : move.2 = f
              · by_cases sameG : move.2 = g
                · rw [← sameF, ← sameG]
                · have old := kept g there sameG
                  rw [← sameF, landed, ← first, ← place_cons_of_ne old.1 rest] at same
                  exact absurd (apart move.1 g source old.2 same) old.1
              · have oldF := kept f here sameF
                by_cases sameG : move.2 = g
                · rw [← sameG, landed, ← first, ← place_cons_of_ne oldF.1 rest] at same
                  exact absurd (apart f move.1 oldF.2 source same).symm oldF.1
                · have oldG := kept g there sameG
                  apply apart f g oldF.2 oldG.2
                  rwa [place_cons_of_ne oldF.1, place_cons_of_ne oldG.1])
          rw [replay, List.foldl_cons, ← replay, later]
          constructor
          · rintro ⟨f, present, ends⟩
            by_cases same : move.2 = f
            · rw [moved f, if_pos same] at present
              cases present
              rw [← same, landed] at ends
              exact ⟨move.1, found, first.trans ends⟩
            · have old := kept f (by simp [present]) same
              rw [moved f, if_neg same, if_neg (Ne.symm old.1)] at present
              exact ⟨f, present, (place_cons_of_ne old.1 rest).trans ends⟩
          · rintro ⟨f, present, ends⟩
            by_cases same : move.1 = f
            · rw [← same, found] at present
              cases present
              rw [← same, first] at ends
              exact ⟨move.2, by rw [moved, if_pos rfl], landed.trans ends⟩
            · have elsewhere : move.2 ≠ f := by
                intro target
                have clash : place (move :: rest) f = place (move :: rest) move.1 := by
                  rw [place_cons_of_ne same, ← target, landed, first]
                exact same (apart f move.1 (by simp [present]) source clash).symm
              refine ⟨f, ?_, (place_cons_of_ne same rest).symm.trans ends⟩
              rw [moved f, if_neg elsewhere, if_neg (Ne.symm same), present]

end Repartee.Lib
