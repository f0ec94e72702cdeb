import Repartee.Lib.Run
import Repartee.Lib.Table
import Repartee.Text

/-!
The backoff of the web login: failures per address, the lockout they earn, and the purge of the
entries whose lockout is over. Times are in nanoseconds.
-/

namespace Repartee.Web

open Repartee.Text
open Repartee.Lib

structure AttemptState where
  failures : Nat
  lastAttempt : Nat
  deriving DecidableEq

structure RateLimiter where
  attempts : Map Str AttemptState

def second : Nat := 1000000000

def maxU32 : Nat := 4294967295

/-- 1s, 2s, 4s and so on, 60s at most; a shift by 64 or more counts as 60. -/
def lockoutDuration (failures : Nat) : Nat :=
  min (if failures - 1 < 64 then 2 ^ (failures - 1) else 60) 60 * second

namespace RateLimiter

def new : RateLimiter := ⟨Table.empty⟩

/-- The rest of the lockout, if the address is blocked. -/
def check (limiter : RateLimiter) (ip : Str) (now : Nat) : Option Nat :=
  match limiter.attempts.get? ip with
  | none => none
  | some state =>
      if state.failures = 0 then none
      else if now - state.lastAttempt < lockoutDuration state.failures then
        some (lockoutDuration state.failures - (now - state.lastAttempt))
      else none

def recordFailure (limiter : RateLimiter) (ip : Str) (now : Nat) : RateLimiter :=
  let state := (limiter.attempts.get? ip).getD ⟨0, now⟩
  ⟨limiter.attempts.insert ip ⟨min (state.failures + 1) maxU32, now⟩⟩

def recordSuccess (limiter : RateLimiter) (ip : Str) : RateLimiter := ⟨limiter.attempts.erase ip⟩

/-- Removes the entries whose lockout is over. -/
def purgeExpired (limiter : RateLimiter) (now : Nat) : RateLimiter :=
  ⟨limiter.attempts.retain fun _ state =>
    decide (now - state.lastAttempt < lockoutDuration state.failures)⟩

end RateLimiter

inductive Call where
  | check (ip : Str)
  | recordFailure (ip : Str)
  | recordSuccess (ip : Str)
  | purgeExpired
  deriving DecidableEq

/-- A call at its time. -/
def call (limiter : RateLimiter) : Nat × Call → RateLimiter
  | (_, .check _) => limiter
  | (now, .recordFailure ip) => limiter.recordFailure ip now
  | (_, .recordSuccess ip) => limiter.recordSuccess ip
  | (now, .purgeExpired) => limiter.purgeExpired now

def run (calls : List (Nat × Call)) : RateLimiter := runFrom call RateLimiter.new calls

/-- When the failures of an address were recorded. -/
def failuresOf (ip : Str) (calls : List (Nat × Call)) : List Nat :=
  calls.filterMap fun c => if c.2 = .recordFailure ip then some c.1 else none

/-- What the k-th failure in a row earns. -/
def backoff (k : Nat) : Nat := min (2 ^ (k - 1)) 60 * second

/-- The least time from the first to the last of some failures. -/
def schedule (failures : Nat) : Nat := ((List.range (failures - 1)).map fun k => backoff (k + 1)).sum

/-- The failure of an attempt is recorded while the check still lets it through. -/
def Admits (ip : Str) (limiter : RateLimiter) (c : Nat × Call) : Prop :=
  c.2 = .recordFailure ip → limiter.check ip c.1 = none

theorem two_pow_ge_60 (n : Nat) (large : 6 ≤ n) : 60 ≤ 2 ^ n :=
  calc
    60 ≤ 2 ^ 6 := by decide
    _ ≤ 2 ^ n := Nat.pow_le_pow_right (by decide) large

theorem lockoutDuration_eq (failures : Nat) : lockoutDuration failures = backoff failures := by
  simp only [lockoutDuration, backoff]
  split
  · rfl
  · rw [Nat.min_eq_right (two_pow_ge_60 (failures - 1) (by omega)), Nat.min_self]

theorem backoff_mono {j k : Nat} (le : j ≤ k) : backoff j ≤ backoff k := by
  apply Nat.mul_le_mul_right
  apply min_le_min_right
  exact Nat.pow_le_pow_right (by decide) (by omega)

/-- The counter stops long after the lockout has. -/
theorem lockoutDuration_saturated (k : Nat) : lockoutDuration (min k maxU32) = backoff k := by
  rw [lockoutDuration_eq]
  rcases Nat.le_total k maxU32 with small | large
  · rw [Nat.min_eq_left small]
  · have first := two_pow_ge_60 (maxU32 - 1) (by decide)
    have second_ := two_pow_ge_60 (k - 1) (by
      simp only [maxU32] at large
      omega)
    rw [Nat.min_eq_right large, backoff, backoff, Nat.min_eq_right first, Nat.min_eq_right second_]

/-! ### What a run leaves of an address -/

variable (ip : Str)

/-- No success of the address is among the calls. -/
def Failing (calls : List (Nat × Call)) : Prop := ∀ c ∈ calls, c.2 ≠ .recordSuccess ip

def entry (calls : List (Nat × Call)) : Option AttemptState := (run calls).attempts.get? ip

theorem run_append (calls : List (Nat × Call)) (c : Nat × Call) :
    run (calls ++ [c]) = call (run calls) c := by
  simp [run, runFrom_append]

theorem entry_nil : entry ip [] = none := rfl

theorem entry_failure (calls : List (Nat × Call)) (now : Nat) :
    entry ip (calls ++ [(now, .recordFailure ip)]) =
      some ⟨min (((entry ip calls).map AttemptState.failures).getD 0 + 1) maxU32, now⟩ := by
  simp only [entry, run_append, call, RateLimiter.recordFailure, Map.get?_insert, if_true]
  cases (run calls).attempts.get? ip <;> rfl

theorem entry_purge (calls : List (Nat × Call)) (now : Nat) :
    entry ip (calls ++ [(now, .purgeExpired)]) = (entry ip calls).filter fun state =>
      decide (now - state.lastAttempt < lockoutDuration state.failures) := by
  simp only [entry, run_append, call, RateLimiter.purgeExpired, Map.get?_retain]

/-- The other calls leave the address alone. -/
theorem entry_other (calls : List (Nat × Call)) (c : Nat × Call)
    (failure : c.2 ≠ .recordFailure ip) (success : c.2 ≠ .recordSuccess ip)
    (purge : c.2 ≠ .purgeExpired) : entry ip (calls ++ [c]) = entry ip calls := by
  rcases c with ⟨now, c⟩
  cases c with
  | check _ => simp only [entry, run_append, call]
  | recordFailure other =>
      have differs : other ≠ ip := fun same => failure (by rw [same])
      simp only [entry, run_append, call, RateLimiter.recordFailure, Map.get?_insert, differs, if_false]
  | recordSuccess other =>
      have differs : other ≠ ip := fun same => success (by rw [same])
      simp only [entry, run_append, call, RateLimiter.recordSuccess, Map.get?_erase, differs, if_false]
  | purgeExpired => exact absurd rfl purge

theorem failuresOf_append (first second_ : List (Nat × Call)) :
    failuresOf ip (first ++ second_) = failuresOf ip first ++ failuresOf ip second_ :=
  List.filterMap_append

theorem failuresOf_failure (now : Nat) : failuresOf ip [(now, .recordFailure ip)] = [now] := by
  simp [failuresOf]

theorem failuresOf_other (c : Nat × Call) (other : c.2 ≠ .recordFailure ip) :
    failuresOf ip [c] = [] := by
  simp [failuresOf, other]

/-- An entry counts some of the failures, and carries the time of the last. -/
theorem entry_counts (calls : List (Nat × Call)) (failing : Failing ip calls) (state : AttemptState)
    (present : entry ip calls = some state) :
    (failuresOf ip calls).getLast? = some state.lastAttempt ∧ 0 < state.failures ∧
      state.failures ≤ (failuresOf ip calls).length := by
  induction calls using List.reverseRecOn generalizing state with
  | nil => simp [entry_nil] at present
  | append_singleton calls c ih =>
      have before : Failing ip calls := fun c' member => failing c' (List.mem_append_left _ member)
      rcases c with ⟨now, c⟩
      by_cases failure : c = .recordFailure ip
      · subst failure
        rw [entry_failure, Option.some.injEq] at present
        rw [failuresOf_append, failuresOf_failure, ← present]
        refine ⟨by simp, by simp [maxU32], ?_⟩
        rw [List.length_append, List.length_singleton]
        cases earlier : entry ip calls with
        | none => simp
        | some old =>
            have counted := (ih before old earlier).2.2
            simp only [Option.map_some, Option.getD_some]
            omega
      · have same : failuresOf ip (calls ++ [(now, c)]) = failuresOf ip calls := by
          rw [failuresOf_append, failuresOf_other ip (now, c) failure, List.append_nil]
        rw [same]
        by_cases purge : c = .purgeExpired
        · subst purge
          rw [entry_purge, Option.filter_eq_some_iff] at present
          exact ih before state present.1
        · rw [entry_other ip calls (now, c) failure (failing _ (by simp)) purge] at present
          exact ih before state present

theorem entry_quiet (calls quiet : List (Nat × Call)) (failing : Failing ip (calls ++ quiet))
    (none_ : failuresOf ip quiet = []) (absent : entry ip calls = none) :
    entry ip (calls ++ quiet) = none := by
  induction quiet using List.reverseRecOn with
  | nil => simpa using absent
  | append_singleton quiet c ih =>
      rw [failuresOf_append, List.append_eq_nil_iff] at none_
      rw [← List.append_assoc] at failing ⊢
      have earlier := ih (fun c' member => failing c' (List.mem_append_left _ member)) none_.1
      have failure : c.2 ≠ .recordFailure ip := by
        intro same
        simp [failuresOf, same] at none_
      by_cases purge : c.2 = .purgeExpired
      · rcases c with ⟨now, c⟩
        simp only at purge
        rw [purge, entry_purge, earlier]
        rfl
      · rw [entry_other ip _ c failure (failing c (by simp)) purge]
        exact earlier

/-- A list with failures is cut before the first of them. -/
theorem first_failure (calls : List (Nat × Call)) (some_ : failuresOf ip calls ≠ []) :
    ∃ quiet now later, calls = quiet ++ (now, .recordFailure ip) :: later ∧ failuresOf ip quiet = [] := by
  induction calls with
  | nil => exact absurd rfl some_
  | cons c rest ih =>
      by_cases failure : c.2 = .recordFailure ip
      · exact ⟨[], c.1, rest, by rw [← failure]; rfl, rfl⟩
      · have split_ := failuresOf_append ip [c] rest
        rw [failuresOf_other ip c failure, List.nil_append, List.singleton_append] at split_
        rw [split_] at some_
        rcases ih some_ with ⟨quiet, now, later, same, none_⟩
        refine ⟨c :: quiet, now, later, by rw [same]; rfl, ?_⟩
        have first := failuresOf_append ip [c] quiet
        rw [failuresOf_other ip c failure, none_] at first
        exact first

/-! ### The backoff -/

/-- A later check within the lockout of the last failure is refused, after every part of the run. -/
def BacksOff (calls : List (Nat × Call)) : Prop :=
  ∀ before rest, calls = before ++ rest → ∀ now, (∀ c ∈ before, c.1 ≤ now) →
    ∀ last, (failuresOf ip before).getLast? = some last →
      now - last < backoff (failuresOf ip before).length → (run before).check ip now ≠ none

/-- When every failure is that of an attempt the check let through, the failures within a time are
no more than the schedule has room for. -/
def BoundsGuesses (calls : List (Nat × Call)) : Prop :=
  (∀ before c rest, calls = before ++ c :: rest → Admits ip (run before) c) →
    ∀ front window back, failuresOf ip calls = front ++ window ++ back →
      ∀ start time, (∀ t ∈ window, start ≤ t ∧ t ≤ start + time) → schedule window.length ≤ time

/-- No failure follows a purge that finds the lockout of the last one over. -/
def PurgedInTime (calls : List (Nat × Call)) : Prop :=
  ∀ before now rest, calls = before ++ (now, .purgeExpired) :: rest → failuresOf ip rest ≠ [] →
    ∀ last, (failuresOf ip before).getLast? = some last →
      now - last < backoff (failuresOf ip before).length

theorem backoff_pos (k : Nat) : 0 < backoff k := by
  have positive := Nat.pow_pos (n := k - 1) (show 0 < 2 by decide)
  simp only [backoff, second]
  omega

theorem check_of_entry (calls : List (Nat × Call)) (now failures last : Nat)
    (present : entry ip calls = some ⟨failures, last⟩) (some_ : 0 < failures) :
    (run calls).check ip now ≠ none ↔ now - last < lockoutDuration failures := by
  have found : (run calls).attempts.get? ip = some ⟨failures, last⟩ := present
  simp only [RateLimiter.check, found, show failures ≠ 0 by omega, if_false]
  split <;> simp [*]

/-- The address has the entry its failures earn, or its lockout is over and no failure follows. -/
theorem entry_of_purgedInTime (calls before rest : List (Nat × Call)) (failing : Failing ip calls)
    (inTime : PurgedInTime ip calls) (parts : calls = before ++ rest) (last : Nat)
    (lastOf : (failuresOf ip before).getLast? = some last) :
    entry ip before = some ⟨min (failuresOf ip before).length maxU32, last⟩ ∨
      failuresOf ip rest = [] ∧
        ∃ c ∈ before, backoff (failuresOf ip before).length ≤ c.1 - last := by
  induction before using List.reverseRecOn generalizing rest last with
  | nil => simp [failuresOf] at lastOf
  | append_singleton before c ih =>
      rw [List.append_assoc, List.singleton_append] at parts
      have success : c.2 ≠ .recordSuccess ip := failing c (by rw [parts]; simp)
      rcases c with ⟨now, c⟩
      by_cases failure : c = .recordFailure ip
      · subst failure
        rw [failuresOf_append, failuresOf_failure] at lastOf ⊢
        simp only [List.getLast?_append, List.getLast?_singleton, Option.some_or,
          Option.some.injEq] at lastOf
        rw [entry_failure, List.length_append, List.length_singleton, lastOf]
        cases earlier : (failuresOf ip before).getLast? with
        | none =>
            have empty := List.getLast?_eq_none_iff.mp earlier
            cases present : entry ip before with
            | none => simp [empty, maxU32]
            | some state =>
                have counted := entry_counts ip before (fun c member => failing c (by
                  rw [parts]
                  exact List.mem_append_left _ member)) state present
                rw [earlier] at counted
                exact absurd counted.1 (by simp)
        | some previous =>
            rcases ih ((now, .recordFailure ip) :: rest) parts previous earlier with exact_ | elapsed
            · left
              rw [exact_]
              simp only [Option.map_some, Option.getD_some, Option.some.injEq, AttemptState.mk.injEq,
                and_true, maxU32]
              omega
            · exact absurd elapsed.1 (by simp [failuresOf])
      · have same : failuresOf ip (before ++ [(now, c)]) = failuresOf ip before := by
          rw [failuresOf_append, failuresOf_other ip (now, c) failure, List.append_nil]
        have later : failuresOf ip ((now, c) :: rest) = failuresOf ip rest := by
          simp [failuresOf, failure]
        rw [same] at lastOf ⊢
        rcases ih ((now, c) :: rest) parts last lastOf with exact_ | elapsed
        · by_cases purge : c = .purgeExpired
          · subst purge
            rw [entry_purge, exact_, Option.filter_some, lockoutDuration_saturated]
            by_cases follows : failuresOf ip rest = []
            · by_cases running : now - last < backoff (failuresOf ip before).length
              · left
                simp [running]
              · exact .inr ⟨follows, (now, .purgeExpired), by simp, by simpa using running⟩
            · left
              simp [inTime before now rest parts follows last lastOf]
          · left
            rw [entry_other ip before (now, c) failure success purge]
            exact exact_
        · rcases elapsed with ⟨none_, c', member, late⟩
          exact .inr ⟨later ▸ none_, c', List.mem_append_left _ member, late⟩

theorem backsOff_of_purgedInTime (calls : List (Nat × Call)) (failing : Failing ip calls)
    (inTime : PurgedInTime ip calls) : BacksOff ip calls := by
  intro before rest parts now later last lastOf within
  have some_ : 0 < (failuresOf ip before).length :=
    List.length_pos_of_mem (List.mem_of_getLast? lastOf)
  rcases entry_of_purgedInTime ip calls before rest failing inTime parts last lastOf with
    exact_ | ⟨-, c, member, late⟩
  · rw [check_of_entry ip before now _ last exact_ (by simp [maxU32, some_]),
      lockoutDuration_saturated]
    exact within
  · have := later c member
    omega

/-- After a purge that finds the lockout over the next failure counts as the first. -/
theorem purgedInTime_of_backsOff (calls : List (Nat × Call)) (ordered : calls.Pairwise (·.1 ≤ ·.1))
    (failing : Failing ip calls) (backs : BacksOff ip calls) : PurgedInTime ip calls := by
  intro before now rest parts follows last lastOf
  by_contra late
  rcases first_failure ip rest follows with ⟨quiet, t, later, cut, none_⟩
  have shape : calls = (before ++ [(now, .purgeExpired)]) ++ quiet ++
      [(t, .recordFailure ip)] ++ later := by
    rw [parts, cut]
    simp
  have absent : entry ip (before ++ [(now, .purgeExpired)]) = none := by
    rw [entry_purge]
    cases present : entry ip before with
    | none => rfl
    | some state =>
        have counted := entry_counts ip before (fun c member => failing c (by
          rw [parts]
          exact List.mem_append_left _ member)) state present
        have same : state.lastAttempt = last := by
          rw [counted.1] at lastOf
          exact Option.some.inj lastOf
        have less := backoff_mono counted.2.2
        rw [Option.filter_some, lockoutDuration_eq, same]
        simp only [decide_eq_true_eq, ite_eq_right_iff, reduceCtorEq, imp_false, not_lt]
        omega
  have quietly := entry_quiet ip _ quiet (fun c member => failing c (by
    rw [shape]
    exact List.mem_append_left _ (List.mem_append_left _ member))) none_ absent
  have restarted : entry ip (before ++ [(now, .purgeExpired)] ++ quiet ++ [(t, .recordFailure ip)]) =
      some ⟨1, t⟩ := by
    rw [entry_failure, quietly]
    rfl
  have counts : failuresOf ip (before ++ [(now, .purgeExpired)] ++ quiet ++ [(t, .recordFailure ip)]) =
      failuresOf ip before ++ [t] := by
    simp only [failuresOf_append, failuresOf_failure, none_, List.append_nil,
      failuresOf_other ip (now, .purgeExpired) (by simp)]
  have times : ∀ c ∈ before ++ [(now, .purgeExpired)] ++ quiet ++ [(t, .recordFailure ip)],
      c.1 ≤ t + second := by
    intro c member
    rw [shape] at ordered
    have sorted := (List.pairwise_append.mp ordered).1
    rcases List.mem_append.mp member with front | back
    · have := (List.pairwise_append.mp sorted).2.2 c front (t, .recordFailure ip) (by simp)
      simp only at this
      omega
    · rw [List.mem_singleton.mp back]
      omega
  have earlier : 0 < (failuresOf ip before).length :=
    List.length_pos_of_mem (List.mem_of_getLast? lastOf)
  have two := backoff_mono (show 2 ≤ (failuresOf ip before ++ [t]).length by simp; omega)
  have refused := backs _ later shape (t + second) times t (by rw [counts]; simp) (by
    rw [counts]
    simp only [backoff, second] at two ⊢
    omega)
  rw [check_of_entry ip _ _ 1 t restarted (by decide), lockoutDuration_eq] at refused
  simp [backoff] at refused

/-! ### The schedule -/

/-- A failure comes no sooner than the lockout of the one before it is over. -/
theorem failures_spaced (calls : List (Nat × Call)) (ordered : calls.Pairwise (·.1 ≤ ·.1))
    (backs : BacksOff ip calls)
    (admitted : ∀ before c rest, calls = before ++ c :: rest → Admits ip (run before) c)
    (front back : List Nat) (t : Nat) (parts : failuresOf ip calls = front ++ t :: back) (last : Nat)
    (lastOf : front.getLast? = some last) : last + backoff front.length ≤ t := by
  rcases List.filterMap_eq_append_iff.mp parts with ⟨before, tail, whole, earlier, tails⟩
  rcases List.filterMap_eq_cons_iff.mp tails with ⟨quiet, c, rest, cut, none_, fails, -⟩
  have failure : c = (t, .recordFailure ip) := by
    rcases c with ⟨now, c⟩
    simp only [Option.ite_none_right_eq_some, Option.some.injEq] at fails
    rw [fails.1, fails.2]
  subst failure
  have shape : calls = (before ++ quiet) ++ (t, .recordFailure ip) :: rest := by
    rw [whole, cut, List.append_assoc]
  have same : failuresOf ip (before ++ quiet) = front := by
    have empty : failuresOf ip quiet = [] := by
      rw [failuresOf, List.filterMap_eq_nil_iff]
      exact none_
    rw [failuresOf_append, empty, List.append_nil]
    exact earlier
  have sorted : ∀ c ∈ before ++ quiet, c.1 ≤ t := by
    intro c member
    rw [shape] at ordered
    exact (List.pairwise_append.mp ordered).2.2 c member (t, .recordFailure ip) (by simp)
  have passes := admitted (before ++ quiet) (t, .recordFailure ip) rest shape rfl
  have waited : ¬t - last < backoff front.length := by
    intro within
    rw [← same] at lastOf within
    exact backs _ _ shape t sorted last lastOf within passes
  have := backoff_pos front.length
  omega

theorem schedule_succ (n : Nat) (some_ : 0 < n) : schedule (n + 1) = schedule n + backoff n := by
  cases n with
  | zero => omega
  | succ n => simp [schedule, List.range_succ]

/-- Spaced failures take as long as the schedule says, from any of them on. -/
theorem schedule_le (times front window back : List Nat) (parts : times = front ++ window ++ back)
    (spaced : ∀ front back t, times = front ++ t :: back → ∀ last, front.getLast? = some last →
      last + backoff front.length ≤ t)
    (first last : Nat) (firstOf : window.head? = some first) (lastOf : window.getLast? = some last) :
    first + schedule window.length ≤ last := by
  induction window using List.reverseRecOn generalizing back last with
  | nil => simp at firstOf
  | append_singleton window t ih =>
      simp only [List.getLast?_append, List.getLast?_singleton, Option.some_or,
        Option.some.injEq] at lastOf
      cases earlier : window.getLast? with
      | none =>
          rw [List.getLast?_eq_none_iff.mp earlier] at firstOf ⊢
          simp only [List.nil_append, List.head?_cons, Option.some.injEq] at firstOf
          simp [schedule, ← firstOf, ← lastOf]
      | some previous =>
          have some_ : window ≠ [] := by
            intro empty
            simp [empty] at earlier
          rw [List.head?_append_of_ne_nil _ some_] at firstOf
          have soFar := ih (t :: back) (by rw [parts]; simp) previous firstOf earlier
          have next := spaced (front ++ window) back t (by rw [parts]; simp) previous (by
            rw [List.getLast?_append, earlier]
            rfl)
          have more := backoff_mono (show window.length ≤ (front ++ window).length by simp)
          rw [List.length_append, List.length_singleton,
            schedule_succ window.length (List.length_pos_iff.mpr some_)]
          omega

theorem boundsGuesses_of_backsOff (calls : List (Nat × Call)) (ordered : calls.Pairwise (·.1 ≤ ·.1))
    (backs : BacksOff ip calls) : BoundsGuesses ip calls := by
  intro admitted front window back parts start time within
  cases window with
  | nil => simp [schedule]
  | cons first rest =>
      rcases (List.getLast?_isSome (l := first :: rest)).mpr (by simp) |> Option.isSome_iff_exists.mp
        with ⟨last, lastOf⟩
      have least := schedule_le _ front (first :: rest) back parts
        (fun front back t cut last lastOf =>
          failures_spaced ip calls ordered backs admitted front back t cut last lastOf)
        first last rfl lastOf
      have early := within first (by simp)
      have late := within last (List.mem_of_getLast? lastOf)
      omega

/-- The failures of an address are backed off from, and the guesses bounded, exactly when no failure
follows a purge that finds the lockout of the last one over. -/
theorem login_backoff_bounds_guessing (calls : List (Nat × Call))
    (ordered : calls.Pairwise (·.1 ≤ ·.1)) (failing : Failing ip calls) :
    BacksOff ip calls ∧ BoundsGuesses ip calls ↔ PurgedInTime ip calls := by
  constructor
  · rintro ⟨backs, -⟩
    exact purgedInTime_of_backsOff ip calls ordered failing backs
  · intro inTime
    have backs := backsOff_of_purgedInTime ip calls failing inTime
    exact ⟨backs, boundsGuesses_of_backsOff ip calls ordered backs⟩

/-- One guess a second, each after a purge, is never locked out for longer than that second. -/
def patientGuesses : List (Nat × Call) :=
  [(0, .recordFailure "h".toList), (second, .purgeExpired), (second, .recordFailure "h".toList)]

theorem login_backoff_bounds_guessing_patient :
    BacksOff "h".toList patientGuesses ∧ BoundsGuesses "h".toList patientGuesses ↔
      PurgedInTime "h".toList patientGuesses :=
  login_backoff_bounds_guessing "h".toList patientGuesses (by decide) (by
    simp [Failing, patientGuesses])

theorem purge_forgets_the_failures :
    patientGuesses.Pairwise (·.1 ≤ ·.1) ∧ Failing "h".toList patientGuesses ∧
      ¬BacksOff "h".toList patientGuesses := by
  refine ⟨by decide, by simp [Failing, patientGuesses], fun backs => ?_⟩
  have refused := backs patientGuesses [] (by simp) (2 * second) (by decide) second (by decide)
    (by decide)
  exact refused (by decide)

end Repartee.Web
