import Repartee.Lib.Greedy
import Repartee.Irc.Partition

/-!
Which texts are cut into batches that all say something, and which into one that is all blank.
-/

namespace Repartee.Irc

open Text Lib Greedy

section Packing

variable {limits : MultilineLimits} {run todo : List (List WireLine)} {pieces : List WireLine}

/-- Logical lines that fit one batch. -/
def Together (limits : MultilineLimits) (run : List (List WireLine)) : Prop :=
  run.flatten.length ≤ limits.maxLines ∧
    bytesOf run.flatten + (run.length - 1) ≤ limits.maxBytes

instance (limits : MultilineLimits) : DecidablePred (Together limits) := fun _ =>
  inferInstanceAs (Decidable (_ ∧ _))

def HasText (pieces : List WireLine) : Prop := ∃ line ∈ pieces, line.text ≠ []

theorem hasText_flatten (run : List (List WireLine)) :
    (∃ line ∈ run.flatten, line.text ≠ []) ↔ ∃ pieces ∈ run, HasText pieces := by
  constructor
  · intro found
    obtain ⟨line, member, some⟩ := found
    obtain ⟨pieces, inside, here⟩ := List.mem_flatten.mp member
    exact ⟨pieces, inside, line, here, some⟩
  · intro found
    obtain ⟨pieces, inside, line, here, some⟩ := found
    exact ⟨line, List.mem_flatten.mpr ⟨pieces, inside, here⟩, some⟩

def logicalLines (text : Str) : List (List WireLine) := (text.splitOn '\n').map logicalLine

theorem bytesOf_append (a b : List WireLine) : bytesOf (a ++ b) = bytesOf a + bytesOf b := by
  simp [bytesOf]

theorem together_shrinks (a b : List (List WireLine)) (fits : Together limits (a ++ b)) :
    Together limits a := by
  have lines := fits.1
  have bytes := fits.2
  simp only [List.flatten_append, List.length_append, bytesOf_append] at lines bytes
  exact ⟨by omega, by omega⟩

/-- The packing has the lines of the run in the batch being filled. -/
structure Fills (run : List (List WireLine)) (packing : Packing) : Prop where
  some : run ≠ []
  lines : ∀ line ∈ run, line ≠ []
  cur : packing.cur = run.flatten
  curBytes : packing.curBytes = bytesOf run.flatten + (run.length - 1)

theorem Fills.cur_ne_nil {packing : Packing} (fills : Fills run packing) : packing.cur ≠ [] := by
  rw [fills.cur]
  intro none
  obtain ⟨line, member⟩ := List.exists_mem_of_ne_nil run fills.some
  exact fills.lines line member (List.flatten_eq_nil_iff.mp none line member)

/-- The packing makes room exactly when the next line does not go with the run. -/
theorem Fills.full_iff {packing : Packing} (fills : Fills run packing) :
    (packing.cur ≠ [] ∧ (limits.maxLines < packing.cur.length + pieces.length ∨
      limits.maxBytes < packing.curBytes + joinByte packing.cur + bytesOf pieces)) ↔
      ¬Together limits (run ++ [pieces]) := by
  have started := fills.cur_ne_nil
  have count := List.length_pos_of_ne_nil fills.some
  rw [and_iff_right started, joinByte, if_neg started, fills.curBytes, fills.cur]
  simp only [Together, List.flatten_append, List.flatten_singleton, List.length_append,
    bytesOf_append, List.length_singleton, not_and_or, not_le]
  apply or_congr_right
  omega

theorem Fills.append {packing : Packing} (fills : Fills run packing) (some : pieces ≠ []) :
    Fills (run ++ [pieces]) (packing.append pieces) where
  some := by simp
  lines := by
    intro line member
    rcases List.mem_append.mp member with before | here
    · exact fills.lines line before
    · exact List.mem_singleton.mp here ▸ some
  cur := by simp [Packing.append, fills.cur]
  curBytes := by
    have count := List.length_pos_of_ne_nil fills.some
    simp only [Packing.append, joinByte, if_neg fills.cur_ne_nil, fills.curBytes,
      List.flatten_append, List.flatten_singleton, bytesOf_append, List.length_append,
      List.length_singleton]
    omega

theorem fills_single (batches : List (List WireLine)) (some : pieces ≠ []) :
    Fills [pieces] (Packing.append ⟨batches, [], 0⟩ pieces) where
  some := by simp
  lines := by simpa using some
  cur := by simp [Packing.append]
  curBytes := by simp [Packing.append, joinByte]

/-- The batches of a packing that goes through are the groups the lines fall into. -/
theorem packing_groups (packing last : Packing) (fills : Fills run packing)
    (lines : ∀ line ∈ todo, line ≠ []) (packed : todo.foldlM (packLine limits) packing = some last) :
    last.flush = packing.batches ++ (groups (Together limits) run todo).map List.flatten ∧
      ∀ line ∈ todo, Together limits [line] := by
  induction todo generalizing run packing with
  | nil =>
      cases packed
      rw [flush_of_started fills.cur_ne_nil, fills.cur]
      exact ⟨rfl, by simp⟩
  | cons line rest ih =>
      rw [List.foldlM_cons, Option.bind_eq_bind, Option.bind_eq_some_iff] at packed
      obtain ⟨next, packs, packed⟩ := packed
      have some := lines line List.mem_cons_self
      have later : ∀ l ∈ rest, l ≠ [] := fun l member => lines l (List.mem_cons_of_mem line member)
      unfold packLine at packs
      split at packs
      · cases packs
      · rename_i alone
        have fits : Together limits [line] := by
          simp only [Together, List.flatten_singleton, List.length_singleton]
          omega
        cases packs
        by_cases room : Together limits (run ++ [line])
        · have stays : packing.makeRoom limits line = packing :=
            if_neg fun full => fills.full_iff.mp full room
          rw [stays] at packed
          obtain ⟨flushed, singles⟩ := ih _ (fills.append some) later packed
          rw [groups, if_pos room]
          exact ⟨flushed, by simpa [fits] using singles⟩
        · have closes : packing.makeRoom limits line = ⟨packing.batches ++ [packing.cur], [], 0⟩ :=
            if_pos (fills.full_iff.mpr room)
          rw [closes] at packed
          obtain ⟨flushed, singles⟩ := ih _ (fills_single _ some) later packed
          rw [groups, if_neg room, flushed]
          exact ⟨by simp [Packing.append, fills.cur], by simpa [fits] using singles⟩

end Packing

end Repartee.Irc
