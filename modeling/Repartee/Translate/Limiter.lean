import Repartee.Lib.Run

/-!
The limit on translations in flight: a semaphore, the count of its permits, and a debt that the
tasks pay off one permit at a time when the limit was lowered while permits were out.
-/

namespace Repartee.Limiter

open Repartee.Lib

structure Counts where
  /-- Permits minted into the semaphore, less those retired again. -/
  total : Nat
  /-- A reduction recorded but not yet applied. -/
  debt : Nat
  deriving DecidableEq

def Counts.effective (counts : Counts) : Nat := counts.total - counts.debt

/-- The permits that are available in the semaphore, and the counters behind the lock. -/
structure TranslateLimiter where
  available : Nat
  counts : Counts
  deriving DecidableEq

/-- Takes what permits are available; gives how many were taken. -/
def forgetPermits (available n : Nat) : Nat × Nat := (available - min n available, min n available)

namespace TranslateLimiter

def new (permits : Nat) : TranslateLimiter := ⟨max permits 1, ⟨max permits 1, 0⟩⟩

def settleLocked (limiter : TranslateLimiter) : TranslateLimiter :=
  if limiter.counts.debt = 0 then limiter
  else
    let (available, forgotten) := forgetPermits limiter.available limiter.counts.debt
    if forgotten = 0 then limiter
    else ⟨available, ⟨limiter.counts.total - forgotten, limiter.counts.debt - forgotten⟩⟩

def settle (limiter : TranslateLimiter) : TranslateLimiter := limiter.settleLocked

def retune (limiter : TranslateLimiter) (want : Nat) : TranslateLimiter :=
  let want := max want 1
  let have_ := limiter.counts.effective
  if want = have_ then limiter
  else if have_ < want then
    let cancel := min (want - have_) limiter.counts.debt
    let mint := (want - have_) - cancel
    ⟨limiter.available + mint, ⟨limiter.counts.total + mint, limiter.counts.debt - cancel⟩⟩
  else
    settleLocked { limiter with
      counts := { limiter.counts with debt := limiter.counts.debt + (have_ - want) } }

/-- Under the lock, the holder of a permit pays a unit of the debt with it, if there is one. -/
def claim (limiter : TranslateLimiter) : TranslateLimiter × Bool :=
  if 0 < limiter.counts.debt then
    ({ limiter with counts := ⟨limiter.counts.total - 1, limiter.counts.debt - 1⟩ }, true)
  else (limiter, false)

end TranslateLimiter

/-- Where a task is: it waits for a permit, it has one and is about to look at the debt, its permit
has paid for a unit and is about to be forgotten, or it translates. -/
inductive Phase where
  | waiting
  | taken
  | claimed
  | working
  deriving DecidableEq

structure Tasks where
  limiter : TranslateLimiter
  phases : List Phase
  deriving DecidableEq

inductive Op where
  /-- Another task calls `acquire`. -/
  | spawn
  | take (task : Nat)
  | claim (task : Nat)
  | forget (task : Nat)
  /-- A task that translates returns its permit. -/
  | drop (task : Nat)
  | retune (want : Nat)
  | settle
  deriving DecidableEq

/-- One step of one task, or of the ticker or the settings; nothing when it cannot be taken. -/
def exec (s : Tasks) : Op → Tasks
  | .spawn => { s with phases := s.phases ++ [.waiting] }
  | .take task =>
      if s.phases[task]? = some .waiting ∧ 0 < s.limiter.available then
        { limiter := { s.limiter with available := s.limiter.available - 1 }
          phases := s.phases.set task .taken }
      else s
  | .claim task =>
      if s.phases[task]? = some .taken then
        { limiter := s.limiter.claim.1
          phases := s.phases.set task (if s.limiter.claim.2 then .claimed else .working) }
      else s
  | .forget task =>
      if s.phases[task]? = some .claimed then { s with phases := s.phases.set task .waiting } else s
  | .drop task =>
      if s.phases[task]? = some .working then
        { limiter := { s.limiter with available := s.limiter.available + 1 }
          phases := s.phases.set task .waiting }
      else s
  | .retune want => { s with limiter := s.limiter.retune want }
  | .settle => { s with limiter := s.limiter.settle }

def start (permits : Nat) : Tasks := ⟨TranslateLimiter.new permits, []⟩

/-- The limit asked for last, one at least. -/
def configured (permits : Nat) (ops : List Op) : Nat :=
  ops.foldl (fun limit op => match op with
    | .retune want => max want 1
    | _ => limit) (max permits 1)

def Tasks.inPhase (s : Tasks) (phase : Phase) : Nat := s.phases.count phase

/-- Permits that are out: a permit that has paid for a unit is out until it is forgotten. -/
def Tasks.checkedOut (s : Tasks) : Nat := s.inPhase .taken + s.inPhase .claimed + s.inPhase .working

/-- A reduction never promises all permits away, every permit is available, held or at work, and
what remains after the debt is the limit asked for. -/
structure Balanced (limit : Nat) (s : Tasks) : Prop where
  solvent : s.limiter.counts.debt < s.limiter.counts.total
  permits : s.limiter.available + s.inPhase .taken + s.inPhase .working = s.limiter.counts.total
  ceiling : s.limiter.counts.effective = limit

/-- What moving one task does to the tasks in each phase. -/
theorem inPhase_set (phases : List Phase) (task : Nat) (was now phase : Phase)
    (at_ : phases[task]? = some was) :
    (phases.set task now).count phase + (if was = phase then 1 else 0) =
      phases.count phase + (if now = phase then 1 else 0) := by
  rcases List.getElem?_eq_some_iff.mp at_ with ⟨bound, here⟩
  have present : was ∈ phases := List.mem_of_getElem? at_
  rw [List.count_set bound, here]
  simp only [beq_iff_eq]
  by_cases same : was = phase
  · have positive := List.count_pos_iff.mpr (same ▸ present)
    simp only [same, if_true]
    omega
  · simp only [same, if_false]
    omega

theorem settleLocked_available (limiter : TranslateLimiter) :
    limiter.settleLocked.available + min limiter.counts.debt limiter.available =
        limiter.available ∧
      limiter.settleLocked.counts.total =
        limiter.counts.total - min limiter.counts.debt limiter.available ∧
      limiter.settleLocked.counts.debt =
        limiter.counts.debt - min limiter.counts.debt limiter.available := by
  simp only [TranslateLimiter.settleLocked, forgetPermits]
  by_cases owed : limiter.counts.debt = 0
  · simp [owed]
  · by_cases idle : min limiter.counts.debt limiter.available = 0
    · simp [owed, idle]
    · simp only [owed, idle, if_false, and_self, and_true]
      omega

/-- Settling changes what is available and the counters by the same amount. -/
theorem settle_balanced {limit : Nat} {s : Tasks} (limiter : TranslateLimiter)
    (solvent : limiter.counts.debt < limiter.counts.total)
    (permits : limiter.available + s.inPhase .taken + s.inPhase .working = limiter.counts.total)
    (ceiling : limiter.counts.effective = limit) :
    Balanced limit { s with limiter := limiter.settleLocked } := by
  rcases settleLocked_available limiter with ⟨available, total, debt⟩
  simp only [Counts.effective] at ceiling
  constructor
  · simp only [total, debt]
    omega
  · simp only [total, Tasks.inPhase] at *
    omega
  · simp only [Counts.effective, total, debt]
    omega

theorem retune_balanced {limit : Nat} {s : Tasks} (balanced : Balanced limit s) (want : Nat) :
    Balanced (max want 1) (exec s (.retune want)) := by
  have solvent := balanced.solvent
  have permits := balanced.permits
  have ceiling := balanced.ceiling
  simp only [exec, TranslateLimiter.retune]
  split
  · rename_i same
    exact ⟨solvent, permits, same.symm⟩
  · split
    · rename_i raised
      constructor
      · simp only [Counts.effective] at *
        omega
      · simp only [Counts.effective, Tasks.inPhase] at *
        omega
      · simp only [Counts.effective] at *
        omega
    · rename_i other raised
      apply settle_balanced
      · simp only [Counts.effective] at *
        omega
      · exact permits
      · simp only [Counts.effective] at *
        omega

/-- The limit in force after a step. -/
def nextLimit (limit : Nat) : Op → Nat
  | .retune want => max want 1
  | _ => limit

theorem exec_balanced {limit : Nat} {s : Tasks} (balanced : Balanced limit s) (op : Op) :
    Balanced (nextLimit limit op) (exec s op) := by
  have solvent := balanced.solvent
  have permits := balanced.permits
  have ceiling := balanced.ceiling
  cases op with
  | spawn =>
      refine ⟨solvent, ?_, ceiling⟩
      simpa [exec, Tasks.inPhase, List.count_append] using permits
  | take task =>
      simp only [exec]
      split
      · rename_i ready
        have taken := inPhase_set s.phases task .waiting .taken .taken ready.1
        have working := inPhase_set s.phases task .waiting .taken .working ready.1
        refine ⟨solvent, ?_, ceiling⟩
        simp only [Tasks.inPhase, reduceCtorEq, if_true, if_false] at *
        omega
      · exact balanced
  | claim task =>
      simp only [exec]
      split
      · rename_i ready
        simp only [TranslateLimiter.claim]
        split
        · rename_i owed
          have taken := inPhase_set s.phases task .taken .claimed .taken ready
          have working := inPhase_set s.phases task .taken .claimed .working ready
          simp only [Counts.effective] at ceiling
          refine ⟨?_, ?_, ?_⟩
          · simp only
            omega
          · simp only [Tasks.inPhase, reduceCtorEq, if_true, if_false] at *
            omega
          · simp only [Counts.effective, nextLimit]
            omega
        · have taken := inPhase_set s.phases task .taken .working .taken ready
          have working := inPhase_set s.phases task .taken .working .working ready
          refine ⟨solvent, ?_, ceiling⟩
          simp only [Tasks.inPhase, reduceCtorEq, if_true, if_false, Bool.false_eq_true] at *
          omega
      · exact balanced
  | forget task =>
      simp only [exec]
      split
      · rename_i ready
        have taken := inPhase_set s.phases task .claimed .waiting .taken ready
        have working := inPhase_set s.phases task .claimed .waiting .working ready
        refine ⟨solvent, ?_, ceiling⟩
        simp only [Tasks.inPhase, reduceCtorEq, if_false] at *
        omega
      · exact balanced
  | drop task =>
      simp only [exec]
      split
      · rename_i ready
        have taken := inPhase_set s.phases task .working .waiting .taken ready
        have working := inPhase_set s.phases task .working .waiting .working ready
        refine ⟨solvent, ?_, ceiling⟩
        simp only [Tasks.inPhase, reduceCtorEq, if_true, if_false] at *
        omega
      · exact balanced
  | retune want => exact retune_balanced balanced want
  | settle => exact settle_balanced s.limiter solvent permits ceiling

theorem run_balanced (permits : Nat) (ops : List Op) :
    Balanced (configured permits ops) (runFrom exec (start permits) ops) := by
  induction ops using List.reverseRecOn with
  | nil =>
      refine ⟨?_, ?_, ?_⟩ <;>
        simp [start, TranslateLimiter.new, configured, Tasks.inPhase, Counts.effective]
  | append_singleton ops op ih =>
      have step := exec_balanced ih op
      have limit : nextLimit (configured permits ops) op = configured permits (ops ++ [op]) := by
        rw [configured, configured, List.foldl_append]
        cases op <;> rfl
      rw [limit] at step
      simpa [runFrom_append] using step

theorem configured_pos (permits : Nat) (ops : List Op) : 1 ≤ configured permits ops := by
  induction ops using List.reverseRecOn with
  | nil => simp [configured]
  | append_singleton ops op ih =>
      rw [configured] at ih ⊢
      rw [List.foldl_append]
      cases op <;> simp_all

/-- In every reachable state the counters balance; when nothing is pending the semaphore has exactly
the configured permits. A task comes through only when no debt is left, and within the limit; while
permits are out one of them is on its way back, and once all are back settling pays what is owed. -/
theorem limiter_balances (permits : Nat) (ops : List Op) :
    let s := runFrom exec (start permits) ops
    s.limiter.counts.debt < s.limiter.counts.total ∧
      s.limiter.available + s.checkedOut = s.limiter.counts.total + s.inPhase .claimed ∧
      s.limiter.counts.total - s.limiter.counts.debt = configured permits ops ∧
      1 ≤ configured permits ops ∧
      (s.inPhase .claimed = 0 → s.limiter.counts.debt = 0 →
        s.limiter.available + s.checkedOut = configured permits ops) ∧
      (0 < s.limiter.available ∨ 0 < s.inPhase .taken + s.inPhase .working) ∧
      (∀ task, s.phases[task]? = some .taken →
        (exec s (.claim task)).phases[task]? = some .working →
        s.limiter.counts.debt = 0 ∧
          (exec s (.claim task)).inPhase .working ≤ configured permits ops) ∧
      (s.checkedOut = 0 → (exec s .settle).limiter.counts.debt = 0 ∧
        (exec s .settle).limiter.available = configured permits ops) := by
  intro s
  have balanced : Balanced (configured permits ops) s := run_balanced permits ops
  have solvent := balanced.solvent
  have held := balanced.permits
  have ceiling : s.limiter.counts.total - s.limiter.counts.debt = configured permits ops :=
    balanced.ceiling
  refine ⟨solvent, ?_, ceiling, configured_pos permits ops, ?_, ?_, ?_, ?_⟩
  · simp only [Tasks.checkedOut]
    omega
  · intro pending debt
    simp only [Tasks.checkedOut]
    omega
  · omega
  · intro task ready through
    have bound := (List.getElem?_eq_some_iff.mp ready).1
    have after := exec_balanced balanced (.claim task)
    have paid : s.limiter.counts.debt = 0 := by
      by_contra owed
      have some_ : 0 < s.limiter.counts.debt := by omega
      simp only [exec, ready, if_true, TranslateLimiter.claim, some_,
        List.getElem?_set_self bound] at through
      exact absurd through (by decide)
    have afterHeld := after.permits
    have afterCeiling := after.ceiling
    have same : (exec s (.claim task)).limiter = s.limiter := by
      simp [exec, ready, TranslateLimiter.claim, paid]
    simp only [Counts.effective, nextLimit, same] at afterHeld afterCeiling
    exact ⟨paid, by omega⟩
  · intro back
    rcases settleLocked_available s.limiter with ⟨available, total, debt⟩
    simp only [Tasks.checkedOut] at back
    simp only [exec, TranslateLimiter.settle]
    constructor
    · omega
    · omega

end Repartee.Limiter
