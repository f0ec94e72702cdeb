import Repartee.Lib.Run

/-!
The estimate of the penalty a connection has run up with its outgoing messages, beside a bucket
that drains in real time. Instants are in nanoseconds, penalties in milliseconds.
-/

namespace Repartee.Irc.FloodBudget

open Lib

def u64Max : Nat := 2 ^ 64 - 1

/-- The part of the budget that is kept for real messages. -/
def reservedMs : Nat := 4000

def nanos (millis : Nat) : Nat := 10 ^ 6 * millis

def asMillis (nanos : Nat) : Nat := min (nanos / 10 ^ 6) u64Max

structure FloodEstimate where
  penaltyMs : Nat
  lastDrain : Option Nat
  deriving DecidableEq

namespace FloodEstimate

def new : FloodEstimate := ⟨0, none⟩

/-- The milliseconds one drain takes for elapsed; an earlier instant counts as none. -/
def credit (estimate : FloodEstimate) (now : Nat) : Nat :=
  match estimate.lastDrain with
  | none => 0
  | some last => asMillis (now - last)

def drain (estimate : FloodEstimate) (now : Nat) : FloodEstimate :=
  ⟨estimate.penaltyMs - estimate.credit now, some now⟩

def charge (estimate : FloodEstimate) (now costMs : Nat) : FloodEstimate :=
  let drained := estimate.drain now
  { drained with penaltyMs := min (drained.penaltyMs + costMs) u64Max }

/-- The answer is missing where the sum overflows. -/
def hasTypingHeadroom (tagmsgCost : Nat) (estimate : FloodEstimate) (now thresholdMs : Nat) :
    FloodEstimate × Option Bool :=
  let drained := estimate.drain now
  if u64Max < drained.penaltyMs + tagmsgCost then (drained, none)
  else (drained, some (drained.penaltyMs + tagmsgCost ≤ thresholdMs - reservedMs))

end FloodEstimate

/-- A bucket that drains by real time only: its level in nanoseconds of draining, the latest
instant it was shown, and the time that has passed since the first. -/
structure Bucket where
  level : Nat
  latest : Option Nat
  elapsed : Nat
  deriving DecidableEq

namespace Bucket

def new : Bucket := ⟨0, none, 0⟩

def drain (bucket : Bucket) (now : Nat) : Bucket :=
  match bucket.latest with
  | none => { bucket with latest := some now }
  | some latest =>
      ⟨bucket.level - (now - latest), some (max latest now), bucket.elapsed + (now - latest)⟩

def add (bucket : Bucket) (costMs : Nat) : Bucket :=
  { bucket with level := bucket.level + nanos costMs }

end Bucket

inductive Op where
  | drain (now : Nat)
  | charge (now costMs : Nat)
  | headroom (now thresholdMs : Nat)
  deriving DecidableEq

def Op.now : Op → Nat
  | drain now => now
  | charge now _ => now
  | headroom now _ => now

def Op.costMs : Op → Nat
  | charge _ costMs => costMs
  | _ => 0

/-- The estimate with the bucket beside it, the time it has drained for, and whether a sum has
overflowed. -/
structure Mirror where
  estimate : FloodEstimate
  bucket : Bucket
  creditedMs : Nat
  wrapped : Bool
  deriving DecidableEq

def Mirror.new : Mirror := ⟨.new, .new, 0, false⟩

/-- One call on the shared budget, under its lock. -/
def exec (tagmsgCost : Nat) (mirror : Mirror) (op : Op) : Mirror :=
  let credited := mirror.creditedMs + mirror.estimate.credit op.now
  match op with
  | .drain now => ⟨mirror.estimate.drain now, mirror.bucket.drain now, credited, mirror.wrapped⟩
  | .charge now costMs =>
      ⟨mirror.estimate.charge now costMs, (mirror.bucket.drain now).add costMs, credited,
        mirror.wrapped⟩
  | .headroom now thresholdMs =>
      let answer := mirror.estimate.hasTypingHeadroom tagmsgCost now thresholdMs
      ⟨answer.1, mirror.bucket.drain now, credited, mirror.wrapped || answer.2.isNone⟩

def run (tagmsgCost : Nat) (ops : List Op) : Mirror := runFrom (exec tagmsgCost) .new ops

/-- The estimate reads no less than the bucket, no time is credited twice and nothing wraps. -/
structure NeverUnder (mirror : Mirror) : Prop where
  level : mirror.bucket.level ≤ nanos mirror.estimate.penaltyMs
  once : nanos mirror.creditedMs ≤ mirror.bucket.elapsed
  whole : mirror.wrapped = false

/-- What the calls in order of time keep, when the costs come to no more than the total. -/
structure Level (total : Nat) (mirror : Mirror) : Prop extends NeverUnder mirror where
  same : mirror.estimate.lastDrain = mirror.bucket.latest
  bound : mirror.estimate.penaltyMs ≤ total

section Steps

variable (mirror : Mirror) (now : Nat)

theorem nanos_asMillis_le (time : Nat) : nanos (asMillis time) ≤ time :=
  (Nat.mul_le_mul_left _ (Nat.min_le_left _ _)).trans (Nat.mul_div_le time (10 ^ 6))

theorem nanos_add (a b : Nat) : nanos (a + b) = nanos a + nanos b := Nat.mul_add _ a b

theorem nanos_sub (a b : Nat) : nanos (a - b) = nanos a - nanos b := Nat.mul_sub _ a b

/-- What the estimate drains has passed for the bucket too. -/
theorem drained_level {total : Nat} {mirror : Mirror} (level : Level total mirror) :
    (mirror.bucket.drain now).level ≤ nanos (mirror.estimate.drain now).penaltyMs ∧
      nanos (mirror.creditedMs + mirror.estimate.credit now) ≤
        (mirror.bucket.drain now).elapsed := by
  have before := level.level
  have credited := level.once
  unfold Bucket.drain FloodEstimate.drain FloodEstimate.credit
  rw [level.same]
  cases latest : mirror.bucket.latest with
  | none => exact ⟨before, credited⟩
  | some last =>
      have passed := nanos_asMillis_le (now - last)
      simp only [nanos_sub, nanos_add]
      omega

/-- In order of time both were last drained at the same instant. -/
theorem drained_same (later : ∀ last ∈ mirror.bucket.latest, last ≤ now) :
    (mirror.estimate.drain now).lastDrain = (mirror.bucket.drain now).latest := by
  unfold Bucket.drain
  cases latest : mirror.bucket.latest with
  | none => rfl
  | some last =>
      have order := later last latest
      simp [FloodEstimate.drain, Nat.max_eq_right order]

theorem charge_eq (estimate : FloodEstimate) (costMs : Nat)
    (fits : (estimate.drain now).penaltyMs + costMs ≤ u64Max) :
    estimate.charge now costMs = ⟨(estimate.drain now).penaltyMs + costMs, some now⟩ := by
  simp only [FloodEstimate.charge, Nat.min_eq_left fits]
  rfl

theorem exec_drain (tagmsgCost : Nat) : exec tagmsgCost mirror (.drain now) =
    ⟨mirror.estimate.drain now, mirror.bucket.drain now,
      mirror.creditedMs + mirror.estimate.credit now, mirror.wrapped⟩ := rfl

theorem exec_charge (tagmsgCost costMs : Nat) : exec tagmsgCost mirror (.charge now costMs) =
    ⟨mirror.estimate.charge now costMs, (mirror.bucket.drain now).add costMs,
      mirror.creditedMs + mirror.estimate.credit now, mirror.wrapped⟩ := rfl

theorem exec_headroom (tagmsgCost thresholdMs : Nat)
    (fits : (mirror.estimate.drain now).penaltyMs + tagmsgCost ≤ u64Max) :
    exec tagmsgCost mirror (.headroom now thresholdMs) =
      ⟨mirror.estimate.drain now, mirror.bucket.drain now,
        mirror.creditedMs + mirror.estimate.credit now, mirror.wrapped⟩ := by
  simp [exec, FloodEstimate.hasTypingHeadroom, Nat.not_lt_of_le fits, Op.now]

theorem Level.exec {tagmsgCost total : Nat} {mirror : Mirror} (level : Level total mirror)
    (op : Op) (later : ∀ last ∈ mirror.bucket.latest, last ≤ op.now)
    (fits : total + op.costMs + tagmsgCost ≤ u64Max) :
    Level (total + op.costMs) (exec tagmsgCost mirror op) := by
  obtain ⟨kept, once⟩ := drained_level op.now level
  have same := drained_same mirror op.now later
  have bound : (mirror.estimate.drain op.now).penaltyMs ≤ total :=
    (Nat.sub_le _ _).trans level.bound
  cases op with
  | drain now =>
      simp only [Op.now] at kept once same bound
      rw [exec_drain]
      exact ⟨⟨kept, once, level.whole⟩, same, bound⟩
  | charge now costMs =>
      simp only [Op.now, Op.costMs] at kept once same bound fits
      rw [exec_charge, charge_eq _ _ _ (by omega)]
      refine ⟨⟨?_, once, level.whole⟩, same, Nat.add_le_add_right bound costMs⟩
      simp only [Bucket.add, nanos_add]
      exact Nat.add_le_add_right kept _
  | headroom now thresholdMs =>
      simp only [Op.now, Op.costMs] at kept once same bound fits
      rw [exec_headroom _ _ _ _ (by omega), level.whole]
      exact ⟨⟨kept, once, rfl⟩, same, bound⟩

end Steps

/-- The instants reach the lock in order of time, and the costs stay within the counter. -/
structure InOrder (tagmsgCost : Nat) (ops : List Op) : Prop where
  instants : (ops.map Op.now).Pairwise (· ≤ ·)
  fits : (ops.map Op.costMs).sum + tagmsgCost ≤ u64Max

theorem latest_exec (tagmsgCost : Nat) (mirror : Mirror) (op : Op)
    (later : ∀ last ∈ mirror.bucket.latest, last ≤ op.now) :
    (exec tagmsgCost mirror op).bucket.latest = some op.now := by
  have drained : (mirror.bucket.drain op.now).latest = some op.now := by
    unfold Bucket.drain
    cases latest : mirror.bucket.latest with
    | none => rfl
    | some last => simp [Nat.max_eq_right (later last latest)]
  cases op <;> exact drained

theorem level_run (tagmsgCost total : Nat) (mirror : Mirror) (ops : List Op)
    (level : Level total mirror)
    (instants : (mirror.bucket.latest.toList ++ ops.map Op.now).Pairwise (· ≤ ·))
    (fits : total + (ops.map Op.costMs).sum + tagmsgCost ≤ u64Max) :
    NeverUnder (runFrom (exec tagmsgCost) mirror ops) := by
  induction ops generalizing mirror total with
  | nil => exact level.toNeverUnder
  | cons op rest ih =>
      simp only [List.map_cons, List.sum_cons] at fits instants
      obtain ⟨-, behind, order⟩ := List.pairwise_append.mp instants
      have later : ∀ last ∈ mirror.bucket.latest, last ≤ op.now := by
        intro last member
        exact order last (by simpa using member) op.now (by simp)
      rw [runFrom_cons]
      apply ih (total + op.costMs) (exec tagmsgCost mirror op)
      · exact level.exec op later (by omega)
      · rw [latest_exec tagmsgCost mirror op later]
        exact behind
      · omega

/-- While the instants reach the lock in order, the mirror never under-reads. -/
theorem never_under_reads (tagmsgCost : Nat) (ops : List Op) (ordered : InOrder tagmsgCost ops) :
    NeverUnder (run tagmsgCost ops) := by
  apply level_run tagmsgCost 0
  · exact ⟨⟨by decide, by decide, rfl⟩, rfl, Nat.le_refl 0⟩
  · exact ordered.instants
  · simpa using ordered.fits

def inOrder : List Op := [.charge 10000000000 5000, .headroom 11000000000 10000]

theorem never_under_reads_inOrder : NeverUnder (run 3000 inOrder) :=
  never_under_reads 3000 inOrder ⟨by decide, by decide⟩

/-- A task that took its time before another one but gets the lock after it. -/
def overtaken : List Op :=
  [.charge 10000000000 5000, .headroom 7000000000 10000, .headroom 10000000000 10000]

theorem overtaken_under_reads :
    ¬(run 3000 overtaken).bucket.level ≤ nanos (run 3000 overtaken).estimate.penaltyMs := by
  decide +kernel

end Repartee.Irc.FloodBudget
