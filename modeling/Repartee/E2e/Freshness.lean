import Repartee.E2e.LineCodec

/-!
The freshness check of a received chunk. The distance of two times is computed in signed 64-bit
integers before anything about the chunk has been authenticated.
-/

namespace Repartee.E2e

open Text Lib

section Arithmetic

instance (n : Int) : Decidable (FitsI64 n) := inferInstanceAs (Decidable (_ ∧ _))

/-- The result of an operation on signed 64-bit integers where overflow is checked; nothing stands
for the panic. -/
def checkedI64 (n : Int) : Option Int := if FitsI64 n then some n else none

def checkedSkew (now ts : Int) : Option Int := do
  let difference ← checkedI64 (now - ts)
  checkedI64 difference.natAbs

theorem wrapI64_fits (n : Int) (fits : FitsI64 n) : wrapI64 n = n := by
  have lower := fits.1
  have upper := fits.2
  unfold wrapI64
  exact Int.bmod_eq_of_le (by omega) (by omega)

variable {now ts : Int}

/-- With a clock that is not negative only a time far in the past is too far to be told. -/
theorem difference_fits (clock : FitsI64 now) (positive : 0 ≤ now) (stamp : FitsI64 ts) :
    FitsI64 (now - ts) ↔ now - ts < 2 ^ 63 := by
  have upper := clock.2
  have highest := stamp.2
  constructor
  · intro fits
    exact fits.2
  · intro near
    exact ⟨by omega, near⟩

theorem distance_fits (positive : 0 ≤ now) (stamp : FitsI64 ts) (near : now - ts < 2 ^ 63) :
    FitsI64 (now - ts).natAbs := by
  have highest := stamp.2
  exact ⟨by omega, by omega⟩

theorem checkedSkew_isSome (clock : FitsI64 now) (positive : 0 ≤ now) (stamp : FitsI64 ts) :
    (checkedSkew now ts).isSome = true ↔ now - ts < 2 ^ 63 := by
  rw [← difference_fits clock positive stamp, checkedSkew]
  by_cases fits : FitsI64 (now - ts)
  · have near := (difference_fits clock positive stamp).mp fits
    have distance := distance_fits positive stamp near
    rw [checkedI64, if_pos fits, Option.bind_eq_bind, Option.bind_some, checkedI64,
      if_pos distance]
    exact iff_of_true rfl fits
  · rw [checkedI64, if_neg fits]
    exact iff_of_false Bool.false_ne_true fits

theorem timestampSkew_near (clock : FitsI64 now) (positive : 0 ≤ now) (stamp : FitsI64 ts)
    (near : now - ts < 2 ^ 63) : timestampSkew now ts = (now - ts).natAbs := by
  have fits := (difference_fits clock positive stamp).mpr near
  rw [timestampSkew, wrapI64_fits _ fits]
  exact wrapI64_fits _ (distance_fits positive stamp near)

end Arithmetic

section Window

variable {P : Platform} {w : World}

def outsideWindow : Str := "ts outside tolerance window (".toList

/-- The outcome of a chunk whose time is refused. -/
def DecryptOutcome.OutsideWindow (outcome : DecryptOutcome) : Prop :=
  ∃ rest, outcome = .rejected (outsideWindow ++ rest)

theorem rejected_inWindow (first : Char) (text : Str) (other : first ≠ 't') :
    ¬(DecryptOutcome.rejected (first :: text)).OutsideWindow := by
  intro late
  obtain ⟨rest, same⟩ := late
  have heads := congrArg List.head? (DecryptOutcome.rejected.inj same)
  exact other (Option.some.inj heads)

theorem utf8OrReject_inWindow (pt : Bytes) : ¬(utf8OrReject P pt).OutsideWindow := by
  unfold utf8OrReject
  split
  · intro late
    obtain ⟨rest, same⟩ := late
    cases same
  · exact rejected_inWindow 'u' _ (by decide)

/-- What is decrypted or fails to is not refused for its time. -/
theorem decryptUnder_inWindow (handle channel : Str) (wire : WireChunk) (sess : IncomingSession)
    (now : Int) :
    Prog.Ensures Reads w (decryptUnder P handle channel wire sess now)
      fun outcome _ => ¬outcome.OutsideWindow := by
  have failed (text : Str) :
      ¬(DecryptOutcome.rejected ("aead failed: ".toList ++ text)).OutsideWindow :=
    rejected_inWindow 'a' _ (by decide)
  unfold decryptUnder
  simp only
  split
  · exact Prog.ensures_pure _ (utf8OrReject_inWindow _)
  · apply (query_reads _).bind
    intro prev v _ _
    cases prev with
    | none => exact Prog.ensures_pure _ (failed _)
    | some held =>
        apply Prog.ensures_ite
        · intro _
          split
          · exact Prog.ensures_pure _ (utf8OrReject_inWindow _)
          · exact Prog.ensures_pure _ (failed _)
        · intro _
          exact Prog.ensures_pure _ (failed _)

/-- The check alone decides whether a chunk is refused for its time. -/
theorem decryptIncoming_window (handle channel line : Str) (wire : WireChunk)
    (parsed : WireChunk.parse P line = .ok (some wire)) :
    Prog.Ensures Reads w (decryptIncoming P handle channel line) fun outcome _ =>
      outcome.OutsideWindow ↔ w.manager.tsToleranceSecs < timestampSkew w.env.now wire.ts := by
  unfold decryptIncoming
  rw [parsed]
  apply Prog.ensures_lift_bind
  intro chunk same
  cases same
  apply Prog.ensures_read_bind
  apply Prog.ensures_read_bind
  apply Prog.ensures_ite
  · intro late
    apply Prog.ensures_pure
    have spelled := List.append_assoc outsideWindow
      (intText (timestampSkew w.env.now wire.ts)) "s skew)".toList
    exact iff_of_true ⟨_, congrArg DecryptOutcome.rejected spelled⟩ late
  · intro current
    apply (query_reads _).bind
    intro found v _ _
    cases found with
    | none =>
        apply Prog.ensures_pure
        refine iff_of_false ?_ current
        intro late
        obtain ⟨rest, same⟩ := late
        cases same
    | some sess =>
        apply Prog.ensures_ite
        · intro _
          exact Prog.ensures_pure _ (iff_of_false (rejected_inWindow 'p' _ (by decide)) current)
        · intro _
          apply (decryptUnder_inWindow handle channel wire sess _).post
          intro outcome _ _ fresh
          exact iff_of_false fresh current

/-- A chunk whose time is refused is refused before the keyring is asked. -/
theorem decryptIncoming_late (handle channel line : Str) (wire : WireChunk)
    (parsed : WireChunk.parse P line = .ok (some wire))
    (late : w.manager.tsToleranceSecs < timestampSkew w.env.now wire.ts) :
    Prog.After w (decryptIncoming P handle channel line) (fun _ _ => True) fun _ _ => False := by
  unfold decryptIncoming
  rw [parsed]
  apply (Prog.after_bind _ _).mpr
  refine (Prog.after_lift _).mpr ⟨?_, fun e none => by cases none⟩
  intro chunk same
  cases same
  apply (Prog.after_bind _ _).mpr
  apply (Prog.after_read _).mpr
  apply (Prog.after_bind _ _).mpr
  apply (Prog.after_read _).mpr
  exact (Prog.after_ite _ _ _).mpr ⟨fun _ => trivial, fun current => absurd late current⟩

def RefusesTime (P : Platform) (w : World) (handle channel line : Str) : Prop :=
  ∃ outcome, (decryptIncoming P handle channel line w).1 = .ok outcome ∧ outcome.OutsideWindow

theorem refusesTime_iff (handle channel line : Str) (wire : WireChunk)
    (parsed : WireChunk.parse P line = .ok (some wire)) :
    RefusesTime P w handle channel line ↔
      w.manager.tsToleranceSecs < timestampSkew w.env.now wire.ts := by
  have window := decryptIncoming_window (w := w) handle channel line wire parsed
  have answered := decryptIncoming_late (w := w) handle channel line wire parsed
  unfold RefusesTime
  rcases run : decryptIncoming P handle channel line w with ⟨result, after⟩
  cases result with
  | ok outcome =>
      rw [← (window.result run).2]
      constructor
      · intro refused
        obtain ⟨other, same, outside⟩ := refused
        cases same
        exact outside
      · intro outside
        exact ⟨outcome, rfl, outside⟩
  | error e =>
      constructor
      · intro refused
        obtain ⟨other, same, outside⟩ := refused
        cases same
      · intro late
        have stopped := answered late
        unfold Prog.After at stopped
        rw [run] at stopped
        exact stopped.elim

/-- The check neither overflows nor errs exactly when the distance of the two times fits a signed
64-bit integer. -/
theorem freshness_check_exact (P : Platform) (w : World) (handle channel line : Str)
    (wire : WireChunk) (parsed : WireChunk.parse P line = .ok (some wire))
    (clock : FitsI64 w.env.now) (positive : 0 ≤ w.env.now) :
    ((checkedSkew w.env.now wire.ts).isSome = true ∧
        (RefusesTime P w handle channel line ↔
          w.manager.tsToleranceSecs < |w.env.now - wire.ts|)) ↔
      w.env.now - wire.ts < 2 ^ 63 := by
  have stamp := (parse_valid line wire parsed).ts
  constructor
  · intro exact_
    exact (checkedSkew_isSome clock positive stamp).mp exact_.1
  · intro near
    refine ⟨(checkedSkew_isSome clock positive stamp).mpr near, ?_⟩
    rw [refusesTime_iff handle channel line wire parsed,
      timestampSkew_near clock positive stamp near, Int.natCast_natAbs]

/-- A chunk of the earliest time there is. -/
def earliestChunk : WireChunk :=
  ⟨List.replicate 8 1, -9223372036854775808, 1, 1, List.replicate 24 0, []⟩

theorem earliestChunk_valid : earliestChunk.Valid :=
  ⟨rfl, ⟨by decide, by decide⟩, by decide, by decide, by decide, rfl⟩

theorem earliest_chunk_passes :
    ∃ line, WireChunk.parse .standard line = .ok (some earliestChunk) ∧
      let w := World.fresh aliceSeed 300
      checkedSkew w.env.now earliestChunk.ts = none ∧
      w.manager.tsToleranceSecs < |w.env.now - earliestChunk.ts| ∧
      ¬RefusesTime .standard w bobHandle room line := by
  obtain ⟨line, -, parsed⟩ :=
    valid_round_trip standard_transcribes earliestChunk earliestChunk_valid
  refine ⟨line, parsed, by decide, by decide, ?_⟩
  rw [refusesTime_iff bobHandle room line earliestChunk parsed, timestampSkew, wrapI64, wrapI64]
  decide

theorem freshness_check_exact_zero :
    ∃ line, WireChunk.parse .standard line = .ok (some earliestChunk) ∧
      (((checkedSkew (World.fresh aliceSeed 300).env.now earliestChunk.ts).isSome = true ∧
        (RefusesTime .standard (World.fresh aliceSeed 300) bobHandle room line ↔
          (World.fresh aliceSeed 300).manager.tsToleranceSecs <
            |(World.fresh aliceSeed 300).env.now - earliestChunk.ts|)) ↔
      (World.fresh aliceSeed 300).env.now - earliestChunk.ts < 2 ^ 63) := by
  obtain ⟨line, -, parsed⟩ :=
    valid_round_trip standard_transcribes earliestChunk earliestChunk_valid
  exact ⟨line, parsed, freshness_check_exact .standard (World.fresh aliceSeed 300) bobHandle room
    line earliestChunk parsed ⟨by decide, by decide⟩ (by decide)⟩

end Window

end Repartee.E2e
