import Mathlib

/-!
The models one request is tried on, in order, and the time each attempt is given of what the
deadline leaves. Times are in nanoseconds.
-/

namespace Repartee.Attempts

def u32Max : Nat := 2 ^ 32 - 1

/-- The longest duration there is. -/
def durationMax : Nat := 2 ^ 64 * 10 ^ 9 - 1

def millis (n : Nat) : Nat := n * 10 ^ 6

def attemptHeadroom : Nat := millis 10

def terminalAttemptReserve : Nat := millis 1500

/-- A count as the divisor of a duration. -/
def countU32 (count : Nat) : Nat := min count u32Max

def saturatingMul (duration factor : Nat) : Nat := min (duration * factor) durationMax

def terminalReserve (remaining terminalCount regularCount : Nat) : Nat :=
  let totalCount := max (min (terminalCount + regularCount) u32Max) 1
  min (saturatingMul terminalAttemptReserve terminalCount)
    (saturatingMul remaining terminalCount / totalCount)

def modelAttemptBudget (remaining : Nat) (terminal : Bool)
    (terminalAttemptsLeft regularAttemptsLeft preferredAttempt : Nat) : Option Nat :=
  let budget :=
    if terminal then remaining / max (countU32 terminalAttemptsLeft) 1 - attemptHeadroom
    else
      let regularCount := max (countU32 regularAttemptsLeft) 1
      let reserve := terminalReserve remaining (countU32 terminalAttemptsLeft) regularCount
      min ((remaining - reserve) / regularCount) preferredAttempt
  if budget = 0 then none else some budget

inductive CandidatePolicy where
  | preferred
  | alternate
  deriving DecidableEq

structure Candidate where
  modelIndex : Nat
  policy : CandidatePolicy
  deriving DecidableEq

/-- What the choice of models reads of the backend. -/
structure AiBackend where
  isTerminal : Nat → Bool
  isAvailable : Nat → Bool

structure Gathered where
  candidates : List Candidate
  attempted : Finset Nat

namespace AiBackend

variable (backend : AiBackend)

def attemptBudget (remaining preferredAttempt : Nat) (candidates : List Candidate)
    (position : Nat) : Option Nat :=
  match candidates.drop position with
  | [] => none
  | current :: rest =>
      let stage := (current :: rest).takeWhile fun candidate => candidate.policy = current.policy
      let regular :=
        (stage.takeWhile fun candidate => !backend.isTerminal candidate.modelIndex).length
      if backend.isTerminal current.modelIndex then
        modelAttemptBudget remaining true stage.length 0 preferredAttempt
      else
        modelAttemptBudget remaining false (stage.length - regular) regular preferredAttempt

def gather (policy : CandidatePolicy) (terminal : Bool) (gathered : Gathered) (index : Nat) :
    Gathered :=
  if backend.isTerminal index = terminal ∧ backend.isAvailable index = true ∧
      index ∉ gathered.attempted then
    ⟨gathered.candidates ++ [⟨index, policy⟩], insert index gathered.attempted⟩
  else gathered

def pass (indexes : List Nat) (policy : CandidatePolicy) (terminal : Bool)
    (gathered : Gathered) : Gathered :=
  indexes.foldl (backend.gather policy terminal) gathered

/-- The regular models of a policy, then its terminal ones. -/
def stage (indexes : List Nat) (policy : CandidatePolicy) (gathered : Gathered) : Gathered :=
  backend.pass indexes policy true (backend.pass indexes policy false gathered)

def availableCandidates (preferred alternate : List Nat) : List Candidate :=
  (backend.stage alternate .alternate (backend.stage preferred .preferred ⟨[], ∅⟩)).candidates

end AiBackend

/-- What passed between two looks at the clock, and the preferred attempt set at the first. -/
structure Attempt where
  preferred : Nat
  elapsed : Nat

def timeSpent (attempts : List Attempt) : Nat := (attempts.map Attempt.elapsed).sum

/-- The attempts from a position on, none longer than its budget; one without a budget is left
out. -/
def Granted (backend : AiBackend) (candidates : List Candidate) :
    Nat → Nat → List Attempt → Prop
  | _, _, [] => True
  | position, remaining, attempt :: rest =>
      attempt.elapsed ≤
        (backend.attemptBudget remaining attempt.preferred candidates position).getD 0 ∧
      Granted backend candidates (position + 1) (remaining - attempt.elapsed) rest

section Share

/-- One of several equal parts is taken of what a fair share leaves, and the share of what
remains, now in fewer parts, is no smaller. -/
theorem share_step (remaining share terminals regulars elapsed : Nat)
    (fair : share * (terminals + (regulars + 1)) ≤ remaining * terminals)
    (short : elapsed * (regulars + 1) + share ≤ remaining) :
    share * (terminals + regulars) ≤ (remaining - elapsed) * terminals := by
  have inside : elapsed ≤ remaining := by nlinarith
  obtain ⟨left, rfl⟩ := Nat.exists_eq_add_of_le inside
  rw [Nat.add_sub_cancel_left]
  have parts : (regulars + 1) * (share * (terminals + regulars)) ≤
      (regulars + 1) * (left * terminals) := by
    have spread : share * (terminals + (regulars + 1)) * regulars ≤
        (elapsed + left) * terminals * regulars := Nat.mul_le_mul_right regulars fair
    have taken : (elapsed * (regulars + 1) + share) * terminals ≤ (elapsed + left) * terminals :=
      Nat.mul_le_mul_right terminals short
    nlinarith
  exact Nat.le_of_mul_le_mul_left parts (Nat.succ_pos regulars)

end Share

section Budgets

variable (remaining terminals regulars preferredAttempt : Nat)

/-- The time a stage is to leave its terminal models. -/
def promised : Nat :=
  min (terminalAttemptReserve * terminals) (remaining * terminals / (terminals + regulars))

/-- The counts of a stage that no saturating operation cuts off. -/
def Fits (terminals regulars : Nat) : Prop :=
  terminals + regulars ≤ u32Max ∧
    terminalAttemptReserve * terminals * (terminals + regulars) ≤ durationMax

/-- Every stage of up to two thousand million candidates fits. -/
theorem fits_of_few (few : terminals + regulars ≤ 2 ^ 31) : Fits terminals regulars := by
  constructor
  · unfold u32Max
    omega
  · calc
      terminalAttemptReserve * terminals * (terminals + regulars)
          ≤ terminalAttemptReserve * 2 ^ 31 * 2 ^ 31 :=
            Nat.mul_le_mul (Nat.mul_le_mul_left _ (by omega)) few
      _ ≤ durationMax := by decide

theorem promised_le : promised remaining terminals regulars ≤ remaining := by
  have share : remaining * terminals / (terminals + regulars) ≤ remaining := by
    apply Nat.div_le_of_le_mul
    rw [Nat.mul_comm]
    exact Nat.mul_le_mul_right remaining (Nat.le_add_right terminals regulars)
  exact (Nat.min_le_right _ _).trans share

theorem getD_budget (budget : Nat) : (if budget = 0 then none else some budget).getD 0 = budget := by
  split
  · rename_i zero
    exact zero.symm
  · rfl

theorem modelAttemptBudget_le (terminal : Bool) :
    (modelAttemptBudget remaining terminal terminals regulars preferredAttempt).getD 0 ≤
      remaining := by
  rw [modelAttemptBudget, getD_budget]
  cases terminal with
  | true =>
      rw [if_pos rfl]
      exact (Nat.sub_le _ _).trans (Nat.div_le_self _ _)
  | false =>
      rw [if_neg Bool.false_ne_true]
      exact (Nat.min_le_left _ _).trans ((Nat.div_le_self _ _).trans (Nat.sub_le _ _))

theorem attemptBudget_le (backend : AiBackend) (candidates : List Candidate) (position : Nat) :
    (backend.attemptBudget remaining preferredAttempt candidates position).getD 0 ≤ remaining := by
  unfold AiBackend.attemptBudget
  split
  · exact Nat.zero_le _
  · simp only
    split <;> exact modelAttemptBudget_le _ _ _ _ _

theorem Fits.fewer (fits : Fits terminals (regulars + 1)) : Fits terminals regulars := by
  constructor
  · have small := fits.1
    omega
  · apply le_trans _ fits.2
    exact Nat.mul_le_mul_left _ (by omega)

/-- Where the counts fit, what is held back is what was promised. -/
theorem terminalReserve_eq (some_ : 0 < regulars) (fits : Fits terminals regulars) :
    terminalReserve remaining (countU32 terminals) (max (countU32 regulars) 1) =
      promised remaining terminals regulars := by
  have counts := fits.1
  have terminal_count : countU32 terminals = terminals := by
    unfold countU32
    omega
  have regular_count : max (countU32 regulars) 1 = regulars := by
    unfold countU32
    omega
  have total : max (min (terminals + regulars) u32Max) 1 = terminals + regulars := by omega
  have whole : terminalAttemptReserve * terminals ≤ durationMax := by
    apply le_trans _ fits.2
    exact Nat.le_mul_of_pos_right _ (by omega)
  have wanted : saturatingMul terminalAttemptReserve terminals =
      terminalAttemptReserve * terminals := Nat.min_eq_left whole
  rw [terminal_count, regular_count]
  simp only [terminalReserve, total, promised, wanted]
  unfold saturatingMul
  by_cases exact_ : remaining * terminals ≤ durationMax
  · rw [Nat.min_eq_left exact_]
  · -- the product is cut off, but the fixed reserve is the smaller of the two either way
    have cut : min (remaining * terminals) durationMax = durationMax := by omega
    have below : terminalAttemptReserve * terminals ≤ durationMax / (terminals + regulars) :=
      (Nat.le_div_iff_mul_le (by omega)).mpr fits.2
    have wide : durationMax / (terminals + regulars) ≤
        remaining * terminals / (terminals + regulars) := Nat.div_le_div_right (by omega)
    rw [cut, Nat.min_eq_left below, Nat.min_eq_left (below.trans wide)]

theorem regular_budget (some_ : 0 < regulars) (fits : Fits terminals regulars) :
    (modelAttemptBudget remaining false terminals regulars preferredAttempt).getD 0 * regulars +
      promised remaining terminals regulars ≤ remaining := by
  have reserve := terminalReserve_eq remaining terminals regulars some_ fits
  have inside := promised_le remaining terminals regulars
  have regular_count : max (countU32 regulars) 1 = regulars := by
    have counts := fits.1
    unfold countU32
    omega
  have parts : (remaining - promised remaining terminals regulars) / regulars * regulars ≤
      remaining - promised remaining terminals regulars := Nat.div_mul_le_self _ _
  have smaller : min ((remaining - promised remaining terminals regulars) / regulars)
      preferredAttempt * regulars ≤
      (remaining - promised remaining terminals regulars) / regulars * regulars :=
    Nat.mul_le_mul_right regulars (Nat.min_le_left _ _)
  rw [modelAttemptBudget, getD_budget]
  simp only [Bool.false_eq_true, if_false]
  rw [reserve, regular_count]
  omega

/-- One regular attempt keeps the promise of the stage. -/
theorem promised_step (elapsed : Nat) (fits : Fits terminals (regulars + 1))
    (granted : elapsed ≤ (modelAttemptBudget remaining false terminals (regulars + 1)
      preferredAttempt).getD 0) :
    promised remaining terminals (regulars + 1) ≤
      promised (remaining - elapsed) terminals regulars := by
  have budget := regular_budget remaining terminals (regulars + 1) preferredAttempt
    (Nat.succ_pos regulars) fits
  have short : elapsed * (regulars + 1) + promised remaining terminals (regulars + 1) ≤
      remaining := by
    have less := Nat.mul_le_mul_right (regulars + 1) granted
    omega
  have fair : promised remaining terminals (regulars + 1) * (terminals + (regulars + 1)) ≤
      remaining * terminals := by
    have share : promised remaining terminals (regulars + 1) ≤
        remaining * terminals / (terminals + (regulars + 1)) := Nat.min_le_right _ _
    exact (Nat.le_div_iff_mul_le (by omega)).mp share
  have kept := share_step remaining _ terminals regulars elapsed fair short
  apply le_min (Nat.min_le_left _ _)
  cases empty : terminals + regulars with
  | zero =>
      have none_ : terminals = 0 := by omega
      simp [none_]
  | succ n =>
      rw [← empty]
      exact (Nat.le_div_iff_mul_le (by omega)).mpr kept

end Budgets

section Order

variable (backend : AiBackend)

def tagged (policy : CandidatePolicy) (indexes : List Nat) : List Candidate :=
  indexes.map fun index => ⟨index, policy⟩

/-- What one pass puts behind the candidates it was given. -/
structure Passed (terminal : Bool) (policy : CandidatePolicy) (start finish : Gathered)
    (added : List Nat) : Prop where
  candidates : finish.candidates = start.candidates ++ tagged policy added
  kind : ∀ index ∈ added, backend.isTerminal index = terminal
  attempted : finish.attempted = start.attempted ∪ added.toFinset
  fresh : ∀ index ∈ added, index ∉ start.attempted
  once : added.Nodup

theorem pass_passed (indexes : List Nat) (policy : CandidatePolicy) (terminal : Bool)
    (start : Gathered) : ∃ added, Passed backend terminal policy start
      (backend.pass indexes policy terminal start) added := by
  induction indexes generalizing start with
  | nil =>
      refine ⟨[], ?_, by simp, ?_, by simp, by simp⟩
      · simp [AiBackend.pass, tagged]
      · simp [AiBackend.pass]
  | cons index rest ih =>
      by_cases taken : backend.isTerminal index = terminal ∧ backend.isAvailable index = true ∧
          index ∉ start.attempted
      · obtain ⟨added, more⟩ := ih ⟨start.candidates ++ [⟨index, policy⟩],
          insert index start.attempted⟩
        have first : backend.gather policy terminal start index =
            ⟨start.candidates ++ [⟨index, policy⟩], insert index start.attempted⟩ := if_pos taken
        refine ⟨index :: added, ?_, ?_, ?_, ?_, ?_⟩
        · rw [AiBackend.pass, List.foldl_cons, first]
          exact more.candidates.trans (by simp [tagged])
        · intro other member
          rcases List.mem_cons.mp member with rfl | later
          · exact taken.1
          · exact more.kind other later
        · rw [AiBackend.pass, List.foldl_cons, first]
          exact more.attempted.trans (by simp)
        · intro other member
          rcases List.mem_cons.mp member with rfl | later
          · exact taken.2.2
          · intro old
            exact more.fresh other later (Finset.mem_insert_of_mem old)
        · rw [List.nodup_cons]
          exact ⟨fun later => more.fresh index later (Finset.mem_insert_self _ _), more.once⟩
      · have first : backend.gather policy terminal start index = start := if_neg taken
        rw [AiBackend.pass, List.foldl_cons, first]
        exact ih start

/-- The candidates of one policy: regular models, then terminal ones. -/
structure Staged (policy : CandidatePolicy) (start finish : Gathered)
    (regular terminal : List Nat) : Prop where
  candidates : finish.candidates = start.candidates ++ tagged policy (regular ++ terminal)
  regular_kind : ∀ index ∈ regular, backend.isTerminal index = false
  terminal_kind : ∀ index ∈ terminal, backend.isTerminal index = true
  attempted : finish.attempted = start.attempted ∪ (regular ++ terminal).toFinset
  fresh : ∀ index ∈ regular ++ terminal, index ∉ start.attempted
  once : (regular ++ terminal).Nodup

theorem stage_staged (indexes : List Nat) (policy : CandidatePolicy) (start : Gathered) :
    ∃ regular terminal, Staged backend policy start (backend.stage indexes policy start)
      regular terminal := by
  obtain ⟨regular, first⟩ := pass_passed backend indexes policy false start
  obtain ⟨terminal, second⟩ := pass_passed backend indexes policy true
    (backend.pass indexes policy false start)
  have apart : ∀ index ∈ terminal, index ∉ start.attempted ∧ index ∉ regular := by
    intro index member
    have new := second.fresh index member
    rw [first.attempted] at new
    simpa using new
  refine ⟨regular, terminal, ?_, first.kind, second.kind, ?_, ?_, ?_⟩
  · rw [AiBackend.stage, second.candidates, first.candidates]
    simp [tagged]
  · rw [AiBackend.stage, second.attempted, first.attempted]
    simp [Finset.union_assoc]
  · intro index member
    rcases List.mem_append.mp member with inside | inside
    · exact first.fresh index inside
    · exact (apart index inside).1
  · rw [List.nodup_append']
    refine ⟨first.once, second.once, ?_⟩
    intro index inside later
    exact (apart index later).2 inside

/-- The order the candidates are tried in. -/
theorem availableCandidates_shape (preferred alternate : List Nat) :
    ∃ regular terminal regular' terminal' : List Nat,
      backend.availableCandidates preferred alternate =
        tagged .preferred (regular ++ terminal) ++ tagged .alternate (regular' ++ terminal') ∧
      (∀ index ∈ regular ++ regular', backend.isTerminal index = false) ∧
      (∀ index ∈ terminal ++ terminal', backend.isTerminal index = true) ∧
      ((regular ++ terminal) ++ (regular' ++ terminal')).Nodup := by
  obtain ⟨regular, terminal, first⟩ := stage_staged backend preferred .preferred ⟨[], ∅⟩
  obtain ⟨regular', terminal', second⟩ := stage_staged backend alternate .alternate
    (backend.stage preferred .preferred ⟨[], ∅⟩)
  refine ⟨regular, terminal, regular', terminal', ?_, ?_, ?_, ?_⟩
  · rw [AiBackend.availableCandidates, second.candidates, first.candidates, List.nil_append]
  · intro index member
    exact (List.mem_append.mp member).elim (first.regular_kind index) (second.regular_kind index)
  · intro index member
    exact (List.mem_append.mp member).elim (first.terminal_kind index) (second.terminal_kind index)
  · rw [List.nodup_append']
    refine ⟨first.once, second.once, ?_⟩
    intro index inside later
    have new := second.fresh index later
    rw [first.attempted] at new
    exact new (by simpa using inside)

theorem takeWhile_tagged (policy : CandidatePolicy) (indexes : List Nat) (after : List Candidate)
    (apart : ∀ candidate ∈ after.head?, candidate.policy ≠ policy) :
    (tagged policy indexes ++ after).takeWhile (fun candidate => candidate.policy = policy) =
      tagged policy indexes := by
  have rest : after.takeWhile (fun candidate => candidate.policy = policy) = [] := by
    cases after with
    | nil => rfl
    | cons candidate more => simp [apart candidate rfl]
  rw [List.takeWhile_append_of_pos, rest, List.append_nil]
  intro candidate member
  obtain ⟨index, -, rfl⟩ := List.mem_map.mp member
  simp

theorem takeWhile_regular (policy : CandidatePolicy) (regular terminal : List Nat)
    (regular_kind : ∀ index ∈ regular, backend.isTerminal index = false)
    (terminal_kind : ∀ index ∈ terminal, backend.isTerminal index = true) :
    (tagged policy (regular ++ terminal)).takeWhile
      (fun candidate => !backend.isTerminal candidate.modelIndex) = tagged policy regular := by
  have rest : (tagged policy terminal).takeWhile
      (fun candidate => !backend.isTerminal candidate.modelIndex) = [] := by
    cases terminal with
    | nil => rfl
    | cons index more => simp [tagged, terminal_kind index (by simp)]
  have split : tagged policy (regular ++ terminal) =
      tagged policy regular ++ tagged policy terminal := List.map_append
  rw [split, List.takeWhile_append_of_pos, rest, List.append_nil]
  intro candidate member
  obtain ⟨index, inside, rfl⟩ := List.mem_map.mp member
  simp [regular_kind index inside]

end Order

section Loop

variable (backend : AiBackend) (candidates : List Candidate)

/-- A stage in the candidates from a position on. -/
structure StageAt (position : Nat) (policy : CandidatePolicy) (regular terminal : List Nat) :
    Prop where
  regular_kind : ∀ index ∈ regular, backend.isTerminal index = false
  terminal_kind : ∀ index ∈ terminal, backend.isTerminal index = true
  shape : ∃ after : List Candidate, (∀ candidate ∈ after.head?, candidate.policy ≠ policy) ∧
    candidates.drop position = tagged policy (regular ++ terminal) ++ after

theorem attemptBudget_regular (remaining preferredAttempt position index : Nat)
    (policy : CandidatePolicy) (regular terminal : List Nat)
    (stage : StageAt backend candidates position policy (index :: regular) terminal) :
    backend.attemptBudget remaining preferredAttempt candidates position =
      modelAttemptBudget remaining false terminal.length (regular.length + 1) preferredAttempt := by
  obtain ⟨after, apart, shape⟩ := stage.shape
  have whole := takeWhile_tagged policy (index :: regular ++ terminal) after apart
  have fronts := takeWhile_regular backend policy (index :: regular) terminal stage.regular_kind
    stage.terminal_kind
  have kind := stage.regular_kind index (by simp)
  rw [← shape] at whole
  unfold AiBackend.attemptBudget
  have start : candidates.drop position =
      ⟨index, policy⟩ :: (tagged policy (regular ++ terminal) ++ after) := by
    rw [shape]
    rfl
  rw [start] at whole ⊢
  simp only [whole, fronts, kind, Bool.false_eq_true, if_false]
  congr 1 <;> simp [tagged]

theorem StageAt.next {backend candidates} {position index : Nat} {policy : CandidatePolicy}
    {regular terminal : List Nat}
    (stage : StageAt backend candidates position policy (index :: regular) terminal) :
    StageAt backend candidates (position + 1) policy regular terminal where
  regular_kind := fun other member => stage.regular_kind other (List.mem_cons_of_mem index member)
  terminal_kind := stage.terminal_kind
  shape := by
    obtain ⟨after, apart, shape⟩ := stage.shape
    refine ⟨after, apart, ?_⟩
    rw [← List.tail_drop, shape]
    rfl

/-- The regular attempts of a stage leave its terminal models what was promised. -/
theorem regular_phase (policy : CandidatePolicy) (regular terminal : List Nat)
    (position remaining : Nat) (attempts : List Attempt)
    (stage : StageAt backend candidates position policy regular terminal)
    (fits : Fits terminal.length regular.length)
    (granted : Granted backend candidates position remaining attempts)
    (enough : regular.length ≤ attempts.length) :
    promised remaining terminal.length regular.length ≤
      remaining - timeSpent (attempts.take regular.length) := by
  induction regular generalizing position remaining attempts with
  | nil => exact promised_le _ _ _
  | cons index rest ih =>
      cases attempts with
      | nil => simp at enough
      | cons attempt more =>
          obtain ⟨short, later⟩ := granted
          rw [attemptBudget_regular backend candidates _ _ _ index policy rest terminal stage]
            at short
          have step := promised_step remaining terminal.length rest.length attempt.preferred
            attempt.elapsed fits short
          have kept := ih (position + 1) (remaining - attempt.elapsed) more stage.next
            (Fits.fewer _ _ fits) later (by simpa using enough)
          rw [Nat.sub_sub] at kept
          simpa [timeSpent] using step.trans kept

theorem timeSpent_le (position remaining : Nat) (attempts : List Attempt)
    (granted : Granted backend candidates position remaining attempts) :
    timeSpent attempts ≤ remaining := by
  induction attempts generalizing position remaining with
  | nil => exact Nat.zero_le _
  | cons attempt rest ih =>
      obtain ⟨short, later⟩ := granted
      have first := short.trans (attemptBudget_le remaining attempt.preferred backend candidates
        position)
      have others := ih (position + 1) (remaining - attempt.elapsed) later
      have total : timeSpent (attempt :: rest) = attempt.elapsed + timeSpent rest := rfl
      omega

theorem Granted.drop {backend candidates} {position remaining : Nat} {attempts : List Attempt}
    (count : Nat) (granted : Granted backend candidates position remaining attempts) :
    Granted backend candidates (position + count)
      (remaining - timeSpent (attempts.take count)) (attempts.drop count) := by
  induction count generalizing position remaining attempts with
  | zero => simpa [timeSpent] using granted
  | succ count ih =>
      cases attempts with
      | nil => trivial
      | cons attempt rest =>
          have later := ih granted.2
          rw [Nat.sub_sub, Nat.add_right_comm, Nat.add_assoc] at later
          exact later

theorem timeSpent_take_le (attempts : List Attempt) (count : Nat) :
    timeSpent (attempts.take count) ≤ timeSpent attempts := by
  have parts : timeSpent attempts =
      timeSpent (attempts.take count) + timeSpent (attempts.drop count) := by
    rw [timeSpent, timeSpent, timeSpent, ← List.sum_append, ← List.map_append,
      List.take_append_drop]
  omega

end Loop

section Stages

variable (backend : AiBackend) (candidates : List Candidate)

/-- The preferred stage is the first, the alternate one comes behind it. -/
def stageStart : CandidatePolicy → Nat
  | .preferred => 0
  | .alternate => candidates.countP fun candidate => candidate.policy = .preferred

def regulars (policy : CandidatePolicy) : Nat :=
  candidates.countP fun candidate =>
    candidate.policy = policy && !backend.isTerminal candidate.modelIndex

def terminals (policy : CandidatePolicy) : Nat :=
  candidates.countP fun candidate =>
    candidate.policy = policy && backend.isTerminal candidate.modelIndex

/-- What the budgets of a request keep to, in the stages whose counts are fit for it. -/
structure ReserveKept (fit : Nat → Nat → Prop) : Prop where
  granted : ∀ remaining preferredAttempt position budget,
    backend.attemptBudget remaining preferredAttempt candidates position = some budget →
      budget ≤ remaining
  reserve : ∀ policy remaining attempts,
    fit (terminals backend candidates policy) (regulars backend candidates policy) →
      Granted backend candidates (stageStart candidates policy) remaining attempts →
        regulars backend candidates policy ≤ attempts.length →
          promised remaining (terminals backend candidates policy)
            (regulars backend candidates policy) ≤
              remaining - timeSpent (attempts.take (regulars backend candidates policy))
  within : ∀ policy remaining attempts,
    Granted backend candidates (stageStart candidates policy) remaining attempts →
      timeSpent ((attempts.drop (regulars backend candidates policy)).take
        (terminals backend candidates policy)) ≤
          remaining - timeSpent (attempts.take (regulars backend candidates policy))
  once : (candidates.map Candidate.modelIndex).Nodup

theorem countP_tagged (policy other : CandidatePolicy) (indexes : List Nat) (kind : Nat → Bool) :
    (tagged policy indexes).countP
      (fun candidate => candidate.policy = other && kind candidate.modelIndex) =
        if policy = other then indexes.countP kind else 0 := by
  induction indexes with
  | nil => simp [tagged]
  | cons index rest ih =>
      rw [tagged, List.map_cons, List.countP_cons]
      unfold tagged at ih
      rw [ih]
      by_cases same : policy = other <;> simp [same, List.countP_cons]

theorem countP_kinds (kind : Nat → Bool) (front back : List Nat)
    (none_ : ∀ index ∈ front, kind index = false) (all : ∀ index ∈ back, kind index = true) :
    (front ++ back).countP kind = back.length := by
  have absent : front.countP kind = 0 := by
    rw [List.countP_eq_zero]
    intro index member
    simp [none_ index member]
  rw [List.countP_append, absent, List.countP_eq_length.mpr all, Nat.zero_add]

theorem stage_at (preferred alternate : List Nat) (policy : CandidatePolicy) :
    ∃ regular terminal,
      StageAt backend (backend.availableCandidates preferred alternate)
        (stageStart (backend.availableCandidates preferred alternate) policy) policy
        regular terminal ∧
      regulars backend (backend.availableCandidates preferred alternate) policy = regular.length ∧
      terminals backend (backend.availableCandidates preferred alternate) policy =
        terminal.length := by
  obtain ⟨regular, terminal, regular', terminal', shape, plain, last, -⟩ :=
    availableCandidates_shape backend preferred alternate
  simp only [List.mem_append, or_imp, forall_and] at plain last
  have counts (front back : List Nat)
      (front_kind : ∀ index ∈ front, backend.isTerminal index = false)
      (back_kind : ∀ index ∈ back, backend.isTerminal index = true) :
      (front ++ back).countP (fun index => !backend.isTerminal index) = front.length ∧
        (front ++ back).countP backend.isTerminal = back.length := by
    constructor
    · rw [List.countP_append, Nat.add_comm, ← List.countP_append]
      apply countP_kinds
      · intro index member
        simp [back_kind index member]
      · intro index member
        simp [front_kind index member]
    · exact countP_kinds _ _ _ front_kind back_kind
  have first := counts regular terminal plain.1 last.1
  have second := counts regular' terminal' plain.2 last.2
  have split (kind : Nat → Bool) (policy : CandidatePolicy) :
      (backend.availableCandidates preferred alternate).countP
        (fun candidate => candidate.policy = policy && kind candidate.modelIndex) =
      (if .preferred = policy then (regular ++ terminal).countP kind else 0) +
        if .alternate = policy then (regular' ++ terminal').countP kind else 0 := by
    rw [shape, List.countP_append, countP_tagged, countP_tagged]
  cases policy with
  | preferred =>
      refine ⟨regular, terminal, ⟨plain.1, last.1, ?_⟩, ?_, ?_⟩
      · refine ⟨tagged .alternate (regular' ++ terminal'), ?_, shape⟩
        intro candidate head
        obtain ⟨index, -, rfl⟩ := List.mem_map.mp (List.mem_of_mem_head? head)
        simp
      · rw [regulars, split fun index => !backend.isTerminal index]
        simpa using first.1
      · rw [terminals, split]
        simpa using first.2
  | alternate =>
      refine ⟨regular', terminal', ⟨plain.2, last.2, ?_⟩, ?_, ?_⟩
      · refine ⟨[], by simp, ?_⟩
        have start := split (fun _ => true) .preferred
        simp only [Bool.and_true, if_true, reduceCtorEq, if_false, Nat.add_zero,
          List.countP_true] at start
        rw [stageStart, start, shape, List.append_nil]
        exact List.drop_left' (by simp [tagged])
      · rw [regulars, split fun index => !backend.isTerminal index]
        simpa using second.1
      · rw [terminals, split]
        simpa using second.2

end Stages

/-- Where the counts of a stage fit, its regular models leave the terminal ones their reserve. -/
theorem reserve_kept (backend : AiBackend) (preferred alternate : List Nat) :
    ReserveKept backend (backend.availableCandidates preferred alternate) Fits where
  granted := by
    intro remaining preferredAttempt position budget granted
    have bound := attemptBudget_le remaining preferredAttempt backend
      (backend.availableCandidates preferred alternate) position
    rwa [granted] at bound
  reserve := by
    intro policy remaining attempts fits granted enough
    obtain ⟨regular, terminal, stage, regular_count, terminal_count⟩ :=
      stage_at backend preferred alternate policy
    rw [regular_count, terminal_count] at fits ⊢
    rw [regular_count] at enough
    exact regular_phase backend _ policy regular terminal _ remaining attempts stage fits granted
      enough
  within := by
    intro policy remaining attempts granted
    exact (timeSpent_take_le _ _).trans (timeSpent_le backend _ _ _ _ (granted.drop _))
  once := by
    obtain ⟨regular, terminal, regular', terminal', shape, -, -, once⟩ :=
      availableCandidates_shape backend preferred alternate
    rw [shape]
    simpa [tagged, Function.comp_def] using once

section Crowd

/-- One regular model, and any number of terminal ones behind it. -/
def crowdBackend : AiBackend where
  isTerminal := fun index => index ≠ 0
  isAvailable := fun _ => true

def crowd (terminals : Nat) : List Nat := 0 :: List.range' 1 terminals

theorem pass_none (backend : AiBackend) (indexes : List Nat) (policy : CandidatePolicy)
    (terminal : Bool) (start : Gathered)
    (other : ∀ index ∈ indexes, backend.isTerminal index ≠ terminal) :
    backend.pass indexes policy terminal start = start := by
  induction indexes with
  | nil => rfl
  | cons index rest ih =>
      have skipped : backend.gather policy terminal start index = start :=
        if_neg fun taken => other index (by simp) taken.1
      rw [AiBackend.pass, List.foldl_cons, skipped]
      exact ih fun next member => other next (by simp [member])

theorem pass_all (backend : AiBackend) (indexes : List Nat) (policy : CandidatePolicy)
    (terminal : Bool) (start : Gathered) (once : indexes.Nodup)
    (wanted : ∀ index ∈ indexes, backend.isTerminal index = terminal ∧
      backend.isAvailable index = true ∧ index ∉ start.attempted) :
    (backend.pass indexes policy terminal start).candidates =
      start.candidates ++ tagged policy indexes := by
  induction indexes generalizing start with
  | nil => simp [AiBackend.pass, tagged]
  | cons index rest ih =>
      rw [List.nodup_cons] at once
      have taken : backend.gather policy terminal start index =
          ⟨start.candidates ++ [⟨index, policy⟩], insert index start.attempted⟩ :=
        if_pos (wanted index (by simp))
      rw [AiBackend.pass, List.foldl_cons, taken]
      refine (ih _ once.2 ?_).trans (by simp [tagged])
      intro next member
      obtain ⟨kind, available, fresh⟩ := wanted next (by simp [member])
      have apart : next ≠ index := by
        rintro rfl
        exact once.1 member
      exact ⟨kind, available, by simp [apart, fresh]⟩

theorem crowd_candidates (n : Nat) :
    crowdBackend.availableCandidates (crowd n) [] = tagged .preferred (crowd n) := by
  have others : ∀ index ∈ List.range' 1 n, index ≠ 0 := by
    intro index member
    have bound := (List.mem_range'_1.mp member).1
    omega
  have first : crowdBackend.pass (crowd n) .preferred false ⟨[], ∅⟩ = ⟨[⟨0, .preferred⟩], {0}⟩ := by
    have rest := pass_none crowdBackend (List.range' 1 n) .preferred false ⟨[⟨0, .preferred⟩], {0}⟩
      (fun index member => by simp [crowdBackend, others index member])
    exact rest
  have second : crowdBackend.pass (crowd n) .preferred true ⟨[⟨0, .preferred⟩], {0}⟩ =
      crowdBackend.pass (List.range' 1 n) .preferred true ⟨[⟨0, .preferred⟩], {0}⟩ := rfl
  have all := pass_all crowdBackend (List.range' 1 n) .preferred true ⟨[⟨0, .preferred⟩], {0}⟩
    List.nodup_range' (fun index member => ⟨by simp [crowdBackend, others index member], rfl,
      by simp [others index member]⟩)
  calc
    crowdBackend.availableCandidates (crowd n) []
        = (crowdBackend.pass (crowd n) .preferred true
            (crowdBackend.pass (crowd n) .preferred false ⟨[], ∅⟩)).candidates := rfl
    _ = tagged .preferred (crowd n) := by
          rw [first, second, all]
          rfl

theorem crowd_stage (n : Nat) :
    StageAt crowdBackend (tagged .preferred (crowd n)) 0 .preferred [0] (List.range' 1 n) where
  regular_kind := by simp [crowdBackend]
  terminal_kind := by
    intro index member
    have bound := (List.mem_range'_1.mp member).1
    simp only [crowdBackend, decide_eq_true_eq]
    omega
  shape := ⟨[], by simp, by simp [crowd, tagged]⟩

theorem crowd_counts (n : Nat) :
    regulars crowdBackend (tagged .preferred (crowd n)) .preferred = 1 ∧
      terminals crowdBackend (tagged .preferred (crowd n)) .preferred = n := by
  have stage := crowd_stage n
  constructor
  · rw [regulars, countP_tagged _ _ _ fun index => !crowdBackend.isTerminal index, if_pos rfl,
      crowd, List.countP_cons]
    have none_ : (List.range' 1 n).countP (fun index => !crowdBackend.isTerminal index) = 0 := by
      rw [List.countP_eq_zero]
      intro index member
      simp [stage.terminal_kind index member]
    rw [none_]
    rfl
  · rw [terminals, countP_tagged, if_pos rfl, crowd, List.countP_cons,
      List.countP_eq_length.mpr stage.terminal_kind, List.length_range']
    rfl

end Crowd

/-- With more terminal models than a thirty-two bit count holds, the reserve is too small. -/
theorem crowd_reserve_short :
    ¬ReserveKept crowdBackend (crowdBackend.availableCandidates (crowd (2 ^ 32)) [])
      fun _ _ => True := by
  intro kept
  rw [crowd_candidates] at kept
  obtain ⟨regular_count, terminal_count⟩ := crowd_counts (2 ^ 32)
  have budget := attemptBudget_regular crowdBackend _ (millis (1500 * (2 ^ 32 + 1)))
    (millis (2 ^ 42)) 0 0 .preferred [] (List.range' 1 (2 ^ 32)) (crowd_stage (2 ^ 32))
  rw [List.length_range'] at budget
  have left := kept.reserve .preferred (millis (1500 * (2 ^ 32 + 1)))
    [⟨millis (2 ^ 42), millis (2 ^ 30)⟩] trivial ⟨?_, trivial⟩ (by rw [regular_count]; rfl)
  · rw [regular_count, terminal_count] at left
    exact absurd left (by decide +kernel)
  · rw [stageStart, budget]
    decide +kernel

end Repartee.Attempts
