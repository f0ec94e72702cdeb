import Repartee.Lib.Run
import Repartee.Irc.Multiline

/-!
A partition loses nothing, keeps the limits, and cuts batches between logical lines only.
-/

namespace Repartee.Irc

open Text Lib

/-- Every part after a newline. -/
def newlined (parts : List Str) : Str := parts.flatMap ('\n' :: ·)

@[simp] theorem newlined_append (a b : List Str) : newlined (a ++ b) = newlined a ++ newlined b := by
  simp [newlined]

@[simp] theorem newlined_singleton (part : Str) : newlined [part] = '\n' :: part := by
  simp [newlined]

theorem intercalate_eq_tail (parts : List Str) : ['\n'].intercalate parts = (newlined parts).tail := by
  induction parts with
  | nil => rfl
  | cons part rest ih =>
      cases rest with
      | nil => simp [newlined]
      | cons next rest =>
          rw [List.intercalate_cons_cons, ih]
          simp [newlined]

section Reassembly

/-- The bytes of a batch: its content, and a newline before each line that is no continuation. -/
def payloadBytes (batch : List WireLine) : Nat :=
  bytesOf batch + (batch.tail.filter fun w => !w.concat).length

theorem utf8Length_joined (lines : List WireLine) :
    utf8Length (lines.flatMap WireLine.joined) =
      bytesOf lines + (lines.filter fun w => !w.concat).length := by
  induction lines with
  | nil => rfl
  | cons line rest ih =>
      have newline : '\n'.utf8Size = 1 := by decide
      have tail : bytesOf (line :: rest) = utf8Length line.text + bytesOf rest := by
        simp [bytesOf]
      cases continuation : line.concat <;>
        simp [WireLine.joined, continuation, ih, tail, newline] <;> omega

theorem reassemble_append (a b : List WireLine) (started : a ≠ []) :
    reassemble (a ++ b) = reassemble a ++ b.flatMap WireLine.joined := by
  cases a with
  | nil => contradiction
  | cons line rest => simp [reassemble]

theorem joined_eq_newline (batch : List WireLine) (first : WireLine) (rest : List WireLine)
    (shape : batch = first :: rest) (boundary : first.concat = false) :
    batch.flatMap WireLine.joined = '\n' :: reassemble batch := by
  subst shape
  simp [reassemble, WireLine.joined, boundary]

theorem reassemble_continuations (first : Str) (pieces : List Str) :
    reassemble (⟨first, false⟩ :: pieces.map fun piece => ⟨piece, true⟩) =
      first ++ pieces.flatten := by
  simp [reassemble, WireLine.joined, List.flatMap_map, ← List.flatMap_id]

end Reassembly

section Split

variable (maxBytes : Nat)

theorem splitLosslessFrom_flatten (cur s : Str) :
    (splitLosslessFrom maxBytes cur s).flatten = cur ++ s := by
  induction s generalizing cur with
  | nil =>
      simp only [splitLosslessFrom]
      split
      · simp [*]
      · simp
  | cons ch rest ih =>
      simp only [splitLosslessFrom]
      split
      · simp [ih]
      · simp [ih]

theorem splitLosslessFrom_short (room : 4 ≤ maxBytes) (cur s : Str)
    (fits : utf8Length cur ≤ maxBytes) :
    ∀ piece ∈ splitLosslessFrom maxBytes cur s, utf8Length piece ≤ maxBytes := by
  induction s generalizing cur with
  | nil =>
      intro piece member
      simp only [splitLosslessFrom] at member
      split at member
      · cases member
      · rw [List.mem_singleton.mp member]
        exact fits
  | cons ch rest ih =>
      have wide := ch.utf8Size_le_four
      intro piece member
      simp only [splitLosslessFrom] at member
      split at member
      · rcases List.mem_cons.mp member with same | later
        · rw [same]
          exact fits
        · apply ih [ch] _ piece later
          simp only [utf8Length_cons, utf8Length_nil]
          omega
      · rename_i stays
        apply ih (cur ++ [ch]) _ piece member
        simp only [utf8Length_append, utf8Length_cons, utf8Length_nil]
        by_cases empty : cur = []
        · simp only [empty, utf8Length_nil]
          omega
        · have := not_and.mp stays empty
          omega

end Split

section Logical

/-- A logical line: its first piece, then continuations, each within the cap of a line. -/
structure Logical (pieces : List WireLine) : Prop where
  shape : ∃ (first : Str) (others : List Str),
    pieces = ⟨first, false⟩ :: others.map fun piece => ⟨piece, true⟩
  short : ∀ w ∈ pieces, utf8Length w.text ≤ messageMaxBytes

theorem mapIdx_continuations (first : Str) (others : List Str) :
    (first :: others).mapIdx (fun i piece => (⟨piece, decide (0 < i)⟩ : WireLine)) =
      ⟨first, false⟩ :: others.map fun piece => ⟨piece, true⟩ := by
  rw [List.mapIdx_cons]
  congr 1
  simp only [Nat.zero_lt_succ, decide_true, List.mapIdx_eq_zipIdx_map]
  apply List.ext_getElem
  · simp
  · simp

/-- The wire lines of a logical line spell it. -/
theorem logicalLine_spells (line : Str) :
    Logical (logicalLine line) ∧ reassemble (logicalLine line) = line := by
  unfold logicalLine
  split
  · rename_i fits
    refine ⟨⟨⟨line, [], rfl⟩, ?_⟩, by simp [reassemble]⟩
    intro w member
    rw [List.mem_singleton.mp member]
    exact fits
  · rename_i overlong
    have spelled := splitLosslessFrom_flatten messageMaxBytes [] line
    have short := splitLosslessFrom_short messageMaxBytes (by decide) [] line (by simp)
    unfold splitLossless
    cases pieces : splitLosslessFrom messageMaxBytes [] line with
    | nil =>
        rw [pieces] at spelled
        simp only [List.flatten_nil, List.nil_append] at spelled
        simp [← spelled] at overlong
    | cons first others =>
        rw [pieces] at spelled short
        rw [mapIdx_continuations, reassemble_continuations]
        refine ⟨⟨⟨first, others, rfl⟩, ?_⟩, by simpa using spelled⟩
        intro w member
        apply short
        simp only [List.mem_cons, List.mem_map] at member ⊢
        rcases member with rfl | ⟨piece, inside, rfl⟩
        · exact Or.inl rfl
        · exact Or.inr inside

variable {pieces : List WireLine}

theorem Logical.ne_nil (logical : Logical pieces) : pieces ≠ [] := by
  obtain ⟨first, others, rfl⟩ := logical.shape
  simp

/-- Only the newline before its first piece adds to the bytes of a logical line. -/
theorem Logical.payload_append (logical : Logical pieces) (cur : List WireLine) :
    payloadBytes (cur ++ pieces) = payloadBytes cur + (joinByte cur + bytesOf pieces) := by
  obtain ⟨first, others, rfl⟩ := logical.shape
  cases cur with
  | nil => simp [payloadBytes, joinByte, bytesOf, List.filter_map, Function.comp_def]
  | cons line rest =>
      simp [payloadBytes, joinByte, bytesOf, List.filter_map, Function.comp_def]
      omega

theorem Logical.newlined_append (logical : Logical pieces) (cur : List WireLine)
    (started : cur ≠ []) :
    reassemble (cur ++ pieces) = reassemble cur ++ '\n' :: reassemble pieces := by
  obtain ⟨first, others, shape⟩ := logical.shape
  rw [reassemble_append cur pieces started, joined_eq_newline pieces _ _ shape rfl]

end Logical

section Packing

/-- What is promised of every batch. -/
structure Fits (limits : MultilineLimits) (batch : List WireLine) : Prop where
  lines : batch.length ≤ limits.maxLines
  bytes : payloadBytes batch ≤ limits.maxBytes
  short : ∀ w ∈ batch, utf8Length w.text ≤ messageMaxBytes
  headed : ∃ first rest, batch = first :: rest ∧ first.concat = false

/-- The state of the packing after some logical lines. -/
structure Packed (limits : MultilineLimits) (logical : List (List WireLine)) (packing : Packing) :
    Prop where
  spells : newlined (packing.flush.map reassemble) = newlined (logical.map reassemble)
  counted : packing.curBytes = payloadBytes packing.cur
  fits : ∀ batch ∈ packing.flush, Fits limits batch

variable {limits : MultilineLimits} {packing : Packing} {pieces : List WireLine}
  {logical : List (List WireLine)}

theorem flush_makeRoom : (packing.makeRoom limits pieces).flush = packing.flush := by
  unfold Packing.makeRoom
  split
  · rename_i full
    simp [Packing.flush, full.1]
  · rfl

theorem flush_append (nonempty : pieces ≠ []) :
    (packing.append pieces).flush = packing.batches ++ [packing.cur ++ pieces] := by
  simp [Packing.append, Packing.flush, nonempty]

theorem flush_of_started (started : packing.cur ≠ []) :
    packing.flush = packing.batches ++ [packing.cur] := by
  simp [Packing.flush, started]

theorem flush_of_empty (empty : packing.cur = []) : packing.flush = packing.batches := by
  simp [Packing.flush, empty]

theorem Packed.makeRoom (packed : Packed limits logical packing) :
    Packed limits logical (packing.makeRoom limits pieces) where
  spells := by rw [flush_makeRoom, packed.spells]
  counted := by
    unfold Packing.makeRoom
    split
    · rfl
    · exact packed.counted
  fits := by rw [flush_makeRoom]; exact packed.fits

/-- After room is made, the batch being filled is empty or takes the logical line. -/
theorem room_made (packing : Packing) (pieces : List WireLine) :
    (packing.makeRoom limits pieces).cur = [] ∨
      (packing.makeRoom limits pieces).cur.length + pieces.length ≤ limits.maxLines ∧
      (packing.makeRoom limits pieces).curBytes +
        (joinByte (packing.makeRoom limits pieces).cur + bytesOf pieces) ≤ limits.maxBytes := by
  unfold Packing.makeRoom
  split
  · exact Or.inl rfl
  · rename_i room
    by_cases empty : packing.cur = []
    · exact Or.inl empty
    · have fits := not_or.mp (not_and.mp room empty)
      exact Or.inr ⟨by omega, by omega⟩

theorem Packed.append (packed : Packed limits logical packing) (line : Logical pieces)
    (alone : pieces.length ≤ limits.maxLines ∧ bytesOf pieces ≤ limits.maxBytes)
    (room : packing.cur = [] ∨ packing.cur.length + pieces.length ≤ limits.maxLines ∧
      packing.curBytes + (joinByte packing.cur + bytesOf pieces) ≤ limits.maxBytes) :
    Packed limits (logical ++ [pieces]) (packing.append pieces) where
  spells := by
    rw [flush_append line.ne_nil, List.map_append, List.map_append, Irc.newlined_append,
      Irc.newlined_append, ← packed.spells]
    by_cases empty : packing.cur = []
    · simp [flush_of_empty empty, empty]
    · simp [flush_of_started empty, line.newlined_append packing.cur empty]
  counted := by
    rw [Packing.append, line.payload_append, packed.counted]
  fits := by
    intro batch member
    rw [flush_append line.ne_nil, List.mem_append, List.mem_singleton] at member
    by_cases empty : packing.cur = []
    · rcases member with before | rfl
      · exact packed.fits batch (by rw [flush_of_empty empty]; exact before)
      · obtain ⟨first, others, shape⟩ := line.shape
        have bytes := line.payload_append []
        simp only [empty, List.nil_append] at bytes ⊢
        refine ⟨alone.1, ?_, line.short, ⟨_, _, shape, rfl⟩⟩
        rw [bytes]
        simpa [payloadBytes, joinByte, bytesOf] using alone.2
    · have filled := room.resolve_left empty
      have started := packed.fits packing.cur (by simp [flush_of_started empty])
      rcases member with before | rfl
      · exact packed.fits batch (by rw [flush_of_started empty]; simp [before])
      · obtain ⟨first, rest, shape, boundary⟩ := started.headed
        refine ⟨by simpa using filled.1, ?_, ?_, ⟨first, rest ++ pieces, by simp [shape], boundary⟩⟩
        · rw [line.payload_append, ← packed.counted]
          exact filled.2
        · intro w inside
          exact (List.mem_append.mp inside).elim (started.short w) (line.short w)

theorem Packed.packLine (packed : Packed limits logical packing) (line : Logical pieces)
    (next : Packing) (fits : packLine limits packing pieces = some next) :
    Packed limits (logical ++ [pieces]) next := by
  unfold Irc.packLine at fits
  split at fits
  · cases fits
  · rename_i alone
    cases fits
    apply packed.makeRoom.append line
    · exact ⟨by omega, by omega⟩
    · exact room_made packing pieces

end Packing

/-- The batches spell the text, and every one of them fits. -/
theorem partition_fits (text : Str) (limits : MultilineLimits) (batches : List (List WireLine))
    (split : partition text limits = some batches) :
    ['\n'].intercalate (batches.map reassemble) = text ∧ ∀ batch ∈ batches, Fits limits batch := by
  unfold partition at split
  simp only at split
  split_ifs at split
  rw [Option.map_eq_some_iff] at split
  obtain ⟨packing, run, flushed⟩ := split
  subst flushed
  have packed : Packed limits ((text.splitOn '\n').map logicalLine) packing := by
    apply foldlM_invariant (Packed limits) _ _ ⟨[], [], 0⟩ packing _ run
    · intro done state pieces next member held fits
      obtain ⟨line, _, rfl⟩ := List.mem_map.mp member
      exact held.packLine (logicalLine_spells line).1 next fits
    · exact ⟨rfl, rfl, by simp [Packing.flush]⟩
  refine ⟨?_, packed.fits⟩
  have spelled : (text.splitOn '\n').map (reassemble ∘ logicalLine) = text.splitOn '\n' := by
    apply List.map_id''
    intro line
    exact (logicalLine_spells line).2
  calc
    ['\n'].intercalate (packing.flush.map reassemble)
        = (newlined (packing.flush.map reassemble)).tail := intercalate_eq_tail _
    _ = ['\n'].intercalate (text.splitOn '\n') := by
        rw [packed.spells, List.map_map, spelled, ← intercalate_eq_tail]
    _ = text := List.intercalate_splitOn '\n'

/-- Joined with newlines, what the batches reassemble to is the text; every batch keeps the limits
on lines and bytes, every line the cap of a line and is UTF-8, and no batch starts with a
continuation. -/
theorem partition_lossless_within_limits (text : Str) (limits : MultilineLimits)
    (batches : List (List WireLine)) (split : partition text limits = some batches) :
    ['\n'].intercalate (batches.map reassemble) = text ∧
      ∀ batch ∈ batches, batch.length ≤ limits.maxLines ∧ payloadBytes batch ≤ limits.maxBytes ∧
        (∀ line ∈ batch, (utf8 line.text).length ≤ messageMaxBytes ∧
          fromUtf8 (utf8 line.text) = some line.text) ∧
        ∃ first rest, batch = first :: rest ∧ first.concat = false := by
  obtain ⟨spells, fits⟩ := partition_fits text limits batches split
  refine ⟨spells, ?_⟩
  intro batch member
  refine ⟨(fits batch member).lines, (fits batch member).bytes, ?_, (fits batch member).headed⟩
  intro line inside
  exact ⟨by rw [utf8_length]; exact (fits batch member).short line inside, fromUtf8_utf8 line.text⟩

theorem partition_lossless_within_limits_two_batches :
    let batches : List (List WireLine) :=
      [[⟨"ab".toList, false⟩, ⟨[], false⟩], [⟨"c".toList, false⟩]]
    partition "ab\n\nc".toList ⟨400, 2⟩ = some batches ∧
      ['\n'].intercalate (batches.map reassemble) = "ab\n\nc".toList := by
  have split : partition "ab\n\nc".toList ⟨400, 2⟩ =
      some [[⟨"ab".toList, false⟩, ⟨[], false⟩], [⟨"c".toList, false⟩]] := by decide
  exact ⟨split, (partition_lossless_within_limits _ _ _ split).1⟩

end Repartee.Irc
