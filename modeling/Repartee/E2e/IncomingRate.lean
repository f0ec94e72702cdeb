import Repartee.Lib.Keyed
import Repartee.Lib.Run
import Repartee.E2e.Handshake

/-!
The limit on incoming key requests, over whole sequences of calls: how many of a peer's are let
through in a window, how long a peer that asked too often is turned away, and that peers do not
count against each other.
-/

namespace Repartee.E2e

open Lib

namespace RateLimiter

section Bucket

/-- The bucket of one peer answers a call made at a time. -/
def ask (bucket : IncomingBucket) (now : Nat) : Bool × IncomingBucket :=
  IncomingBucket.allow now bucket

def emptyBucket : IncomingBucket := ⟨[], none⟩

/-- What a bucket knows of the calls let through so far, the last call of all being at `last`: the
ones it has dropped are out of the window, and a backoff outlasts all it holds. -/
structure Tracks (past : List Nat) (last : Nat) (bucket : IncomingBucket) : Prop where
  split : ∃ gone, past = gone ++ bucket.recent ∧ ∀ a ∈ gone, a + incomingWindow < last
  late : ∀ a ∈ past, a ≤ last
  waits : ∀ till, bucket.backoffUntil = some till → ∀ a ∈ past, a + incomingBackoff ≤ till

def Few (past : List Nat) : Prop :=
  ∀ start, (past.filter fun a => start ≤ a ∧ a ≤ start + incomingWindow).length ≤
    incomingMaxPerWindow

variable {past : List Nat} {last now : Nat} {bucket : IncomingBucket}

theorem window_lt_backoff : incomingWindow < incomingBackoff := by decide

/-- The calls a bucket drops as it slides its window are out of the window. -/
theorem slide_split (tracks : Tracks past last bucket) (later : last ≤ now) :
    ∃ gone, past = gone ++ bucket.recent.dropWhile (fun front => incomingWindow < now - front) ∧
      ∀ a ∈ gone, a + incomingWindow < now := by
  obtain ⟨gone, rfl, old⟩ := tracks.split
  refine ⟨gone ++ bucket.recent.takeWhile fun front => incomingWindow < now - front, ?_, ?_⟩
  · rw [List.append_assoc, List.takeWhile_append_dropWhile]
  · intro a member
    rcases List.mem_append.mp member with dropped | slid
    · have before := old a dropped
      omega
    · have out := List.mem_takeWhile_imp slid
      simp only [decide_eq_true_eq] at out
      omega

/-- Nothing that was let through before a backoff that is over is still in the window. -/
theorem reset_split (tracks : Tracks past last bucket) (till : Nat)
    (waits : bucket.backoffUntil = some till) (over_ : till ≤ now) :
    ∃ gone, past = gone ++ ([] : List Nat) ∧ ∀ a ∈ gone, a + incomingWindow < now := by
  refine ⟨past, by simp, ?_⟩
  intro a member
  have outlasts := tracks.waits till waits a member
  have shorter := window_lt_backoff
  omega

/-- All that was let through inside the window is still held. -/
theorem few_append (few : Few past) (late : ∀ a ∈ past, a ≤ now) (held : List Nat)
    (split : ∃ gone, past = gone ++ held ∧ ∀ a ∈ gone, a + incomingWindow < now)
    (room : held.length < incomingMaxPerWindow) : Few (past ++ [now]) := by
  intro start
  by_cases inside : start ≤ now ∧ now ≤ start + incomingWindow
  · obtain ⟨gone, rfl, old⟩ := split
    have none : gone.filter (fun a => start ≤ a ∧ a ≤ start + incomingWindow) = [] := by
      rw [List.filter_eq_nil_iff]
      intro a member
      have before := old a member
      simp only [decide_eq_true_eq]
      omega
    have some := List.length_filter_le (fun a => start ≤ a ∧ a ≤ start + incomingWindow) held
    simp only [List.filter_append, none, List.nil_append, List.length_append]
    have one := List.length_filter_le (fun a => start ≤ a ∧ a ≤ start + incomingWindow) [now]
    simp only [List.length_singleton] at one
    omega
  · have out : [now].filter (fun a => start ≤ a ∧ a ≤ start + incomingWindow) = [] := by
      simp [inside]
    rw [List.filter_append, out, List.append_nil]
    exact few start

/-- One call: the bucket keeps track, and what it lets through keeps the window's bound. -/
theorem admit_tracks (held : List Nat) (backoff : Option Nat) (few : Few past)
    (late : ∀ a ∈ past, a ≤ now)
    (split : ∃ gone, past = gone ++
      held.dropWhile (fun front => incomingWindow < now - front) ∧
        ∀ a ∈ gone, a + incomingWindow < now)
    (idle : backoff = none) :
    let verdict := IncomingBucket.admit now ⟨held, backoff⟩
    let past' := if verdict.1 then past ++ [now] else past
    Tracks past' now verdict.2 ∧ Few past' := by
  intro verdict past'
  by_cases full : incomingMaxPerWindow ≤
      (held.dropWhile fun front => incomingWindow < now - front).length
  · have refused : verdict =
        (false, ⟨held.dropWhile fun front => incomingWindow < now - front,
          some (now + incomingBackoff)⟩) := if_pos full
    have same : past' = past := by
      simp only [past', refused, Bool.false_eq_true, if_false]
    rw [same, refused]
    refine ⟨⟨split, late, ?_⟩, few⟩
    intro till waits a member
    cases waits
    have before := late a member
    omega
  · have passed : verdict =
        (true, ⟨(held.dropWhile fun front => incomingWindow < now - front) ++ [now], backoff⟩) :=
      if_neg full
    have same : past' = past ++ [now] := by simp only [past', passed, if_true]
    rw [same, passed]
    refine ⟨⟨?_, ?_, ?_⟩, few_append few late _ split (by omega)⟩
    · obtain ⟨gone, spelled, old⟩ := split
      exact ⟨gone, by rw [spelled, List.append_assoc], old⟩
    · intro a member
      rcases List.mem_append.mp member with before | here
      · exact late a before
      · rw [List.mem_singleton.mp here]
    · intro till waits
      rw [idle] at waits
      cases waits

theorem ask_tracks (tracks : Tracks past last bucket) (few : Few past) (later : last ≤ now) :
    let verdict := ask bucket now
    let past' := if verdict.1 then past ++ [now] else past
    Tracks past' now verdict.2 ∧ Few past' := by
  have late : ∀ a ∈ past, a ≤ now := fun a member => (tracks.late a member).trans later
  cases waits : bucket.backoffUntil with
  | none =>
      have asked : ask bucket now = IncomingBucket.admit now ⟨bucket.recent, none⟩ := by
        simp only [ask, IncomingBucket.allow, waits]
        rw [← waits]
      rw [asked]
      exact admit_tracks bucket.recent none few late (slide_split tracks later) rfl
  | some till =>
      by_cases still : now < till
      · have asked : ask bucket now = (false, bucket) := by
          simp only [ask, IncomingBucket.allow, waits, if_pos still]
        rw [asked]
        obtain ⟨gone, spelled, old⟩ := tracks.split
        exact ⟨⟨⟨gone, spelled, fun a member => (old a member).trans_le later⟩, late,
          tracks.waits⟩, few⟩
      · have asked : ask bucket now = IncomingBucket.admit now ⟨[], none⟩ := by
          simp only [ask, IncomingBucket.allow, waits, if_neg still]
        rw [asked]
        exact admit_tracks [] none few late (reset_split tracks till waits (by omega)) rfl

/-- The times of the answers that let a call through. -/
def passed (answers : List (Nat × Bool)) : List Nat :=
  answers.filterMap fun answer => if answer.2 then some answer.1 else none

theorem fresh_tracks : Tracks [] 0 emptyBucket where
  split := ⟨[], rfl, by simp⟩
  late := by simp
  waits := by simp

/-- Counting the answers that let a call through is counting their times. -/
theorem filter_passed (start stop : Nat) (answers : List (Nat × Bool)) :
    (answers.filter fun answer => answer.2 ∧ start ≤ answer.1 ∧ answer.1 ≤ stop).length =
      ((passed answers).filter fun a => start ≤ a ∧ a ≤ stop).length := by
  induction answers with
  | nil => rfl
  | cons answer rest ih =>
      rcases answer with ⟨time, allowed⟩
      cases allowed with
      | false => simpa [passed] using ih
      | true =>
          have spelled : passed ((time, true) :: rest) = time :: passed rest := rfl
          rw [spelled, List.filter_cons, List.filter_cons]
          by_cases inside : start ≤ time ∧ time ≤ stop
          · simpa [inside] using ih
          · simpa [inside] using ih

theorem answersAlone_few (times : List Nat) (tracks : Tracks past last bucket) (few : Few past)
    (ordered : (last :: times).Pairwise (· ≤ ·)) :
    Few (past ++ passed (Keyed.answersAlone ask bucket times)) := by
  induction times generalizing past last bucket with
  | nil => simpa [passed, Keyed.answersAlone] using few
  | cons now rest ih =>
      have later : last ≤ now := (List.pairwise_cons.mp ordered).1 now List.mem_cons_self
      have step := ask_tracks tracks few later
      have run := ih step.1 step.2 (List.pairwise_cons.mp ordered).2
      have spelled : past ++ passed (Keyed.answersAlone ask bucket (now :: rest)) =
          (if (ask bucket now).1 then past ++ [now] else past) ++
            passed (Keyed.answersAlone ask (ask bucket now).2 rest) := by
        cases verdict : (ask bucket now).1 <;> simp [passed, Keyed.answersAlone, verdict]
      rw [spelled]
      exact run

end Bucket

section Limiter

abbrev Call : Type := Str × Nat

def exec (limiter : RateLimiter) (call : Call) : RateLimiter :=
  (limiter.allowIncoming call.2 call.1).2

/-- The calls in order with the limiter's decisions. -/
def decisions : RateLimiter → List Call → List (Call × Bool)
  | _, [] => []
  | limiter, call :: rest =>
      let verdict := limiter.allowIncoming call.2 call.1
      (call, verdict.1) :: decisions verdict.2 rest

/-- The times of one peer's calls with the decisions on them. -/
def decisionsFor (limiter : RateLimiter) (peer : Str) (calls : List Call) : List (Nat × Bool) :=
  (limiter.decisions calls).filterMap fun entry =>
    if entry.1.1 = peer then some (entry.1.2, entry.2) else none

def bucketOf (limiter : RateLimiter) (peer : Str) : IncomingBucket :=
  Keyed.state emptyBucket limiter.incoming peer

/-- A call is rejected for exceeding the limit: no backoff turns it away. -/
def Exceeds (limiter : RateLimiter) (call : Call) : Prop :=
  (limiter.allowIncoming call.2 call.1).1 = false ∧
    ∀ till, (limiter.bucketOf call.1).backoffUntil = some till → till ≤ call.2

variable (limiter : RateLimiter) (peer : Str)

theorem decisions_eq (calls : List Call) :
    limiter.decisions calls = Keyed.answers emptyBucket ask limiter.incoming calls := by
  induction calls generalizing limiter with
  | nil => rfl
  | cons call rest ih =>
      rw [decisions, ih]
      rfl

theorem decisionsFor_alone (calls : List Call) :
    limiter.decisionsFor peer calls =
      Keyed.answersAlone ask (limiter.bucketOf peer) (Keyed.inputsOf peer calls) := by
  rw [decisionsFor, decisions_eq]
  exact Keyed.answers_alone emptyBucket ask limiter.incoming calls peer

theorem bucketOf_exec (call : Call) :
    (limiter.exec call).bucketOf peer =
      if call.1 = peer then (ask (limiter.bucketOf peer) call.2).2 else limiter.bucketOf peer :=
  Keyed.state_answer emptyBucket ask limiter.incoming call peer

theorem inputsOf_ordered (calls : List Call) (ordered : calls.Pairwise fun a b => a.2 ≤ b.2) :
    (Keyed.inputsOf peer calls).Pairwise (· ≤ ·) := by
  apply List.Pairwise.filterMap _ _ ordered
  intro a b before x first y second
  split at first
  · split at second
    · cases first
      cases second
      exact before
    · cases second
  · cases first

theorem inputsOf_filter (calls : List Call) :
    Keyed.inputsOf peer (calls.filter fun call => call.1 = peer) = Keyed.inputsOf peer calls := by
  unfold Keyed.inputsOf
  rw [List.filterMap_filter]
  apply List.filterMap_congr
  intro call _
  by_cases same : call.1 = peer <;> simp [same]

/-- A call that exceeds the limit starts a backoff. -/
theorem exceeds_waits (call : Call) (exceeds : limiter.Exceeds call) :
    ((limiter.exec call).bucketOf call.1).backoffUntil = some (call.2 + incomingBackoff) := by
  have refused : (ask (limiter.bucketOf call.1) call.2).1 = false := exceeds.1
  have admitted : ∃ held backoff, ask (limiter.bucketOf call.1) call.2 =
      IncomingBucket.admit call.2 ⟨held, backoff⟩ := by
    unfold ask IncomingBucket.allow
    split
    · rename_i till waits
      rw [if_neg (not_lt.mpr (exceeds.2 till waits))]
      exact ⟨[], none, rfl⟩
    · exact ⟨(limiter.bucketOf call.1).recent, (limiter.bucketOf call.1).backoffUntil, rfl⟩
  obtain ⟨held, backoff, admitted⟩ := admitted
  rw [bucketOf_exec, if_pos rfl, admitted]
  rw [admitted] at refused
  unfold IncomingBucket.admit at refused ⊢
  simp only at refused ⊢
  split
  · rfl
  · rename_i room
    rw [if_neg room] at refused
    cases refused

/-- A backoff stays as it is through every call made before it is over. -/
theorem backoff_stays (till : Nat) (calls : List Call) (early : ∀ call ∈ calls, call.2 < till)
    (waits : (limiter.bucketOf peer).backoffUntil = some till) :
    ((runFrom exec limiter calls).bucketOf peer).backoffUntil = some till := by
  induction calls generalizing limiter with
  | nil => exact waits
  | cons call rest ih =>
      apply ih (limiter.exec call) fun later member => early later (List.mem_cons_of_mem _ member)
      rw [bucketOf_exec]
      split
      · have before := early call List.mem_cons_self
        simp only [ask, IncomingBucket.allow, waits, if_pos before]
      · exact waits

theorem waiting_rejects (now till : Nat) (early : now < till)
    (waits : (limiter.bucketOf peer).backoffUntil = some till) :
    (limiter.allowIncoming now peer).1 = false := by
  have verdict : (limiter.allowIncoming now peer).1 = (ask (limiter.bucketOf peer) now).1 := rfl
  rw [verdict]
  simp only [ask, IncomingBucket.allow, waits, if_pos early]

end Limiter

/-- A peer gets at most three requests through in any window of a minute, none for five minutes
after one that exceeded the limit, and the same whatever other peers send. -/
theorem incoming_requests_limited (calls : List Call)
    (ordered : calls.Pairwise fun a b => a.2 ≤ b.2) :
    (∀ peer start, ((new.decisionsFor peer calls).filter fun decision =>
        decision.2 ∧ start ≤ decision.1 ∧ decision.1 ≤ start + incomingWindow).length ≤
          incomingMaxPerWindow) ∧
    (∀ before call between later rest, calls = before ++ call :: (between ++ later :: rest) →
      (runFrom exec new before).Exceeds call → later.1 = call.1 →
      later.2 < call.2 + incomingBackoff →
      ((runFrom exec new (before ++ call :: between)).allowIncoming later.2 later.1).1 = false) ∧
    (∀ peer, new.decisionsFor peer calls =
      new.decisionsFor peer (calls.filter fun call => call.1 = peer)) := by
  refine ⟨?_, ?_, ?_⟩
  · intro peer start
    have none : Few [] := fun start => Nat.zero_le _
    have times := inputsOf_ordered peer calls ordered
    have few := answersAlone_few (Keyed.inputsOf peer calls) fresh_tracks none
      (List.pairwise_cons.mpr ⟨fun a _ => Nat.zero_le a, times⟩) start
    rw [decisionsFor_alone]
    rw [filter_passed]
    exact few
  · intro before call between later rest split exceeds same soon
    rw [split] at ordered
    have tail := (List.pairwise_append.mp ordered).2.1
    have last := (List.pairwise_append.mp (List.pairwise_cons.mp tail).2).2.2
    rw [runFrom_append, runFrom_cons, same]
    apply waiting_rejects _ _ _ (call.2 + incomingBackoff) soon
    apply backoff_stays
    · intro middle member
      have earlier := last middle member later List.mem_cons_self
      omega
    · exact exceeds_waits _ call exceeds
  · intro peer
    rw [decisionsFor_alone, decisionsFor_alone, inputsOf_filter]

theorem incoming_requests_limited_flood :
    let bob := "bob@host".toList
    let before : List Call := [(bob, 0), (bob, 0), (bob, incomingWindow)]
    let between : List Call := [("carol@host".toList, incomingWindow)]
    ((runFrom exec new (before ++ (bob, incomingWindow) :: between)).allowIncoming
      incomingBackoff bob).1 = false := by
  intro bob before between
  have exceeds : (runFrom exec new before).Exceeds (bob, incomingWindow) := by
    refine ⟨by decide +kernel, ?_⟩
    intro till waits
    have idle : ((runFrom exec new before).bucketOf bob).backoffUntil = none := by decide +kernel
    rw [idle] at waits
    cases waits
  exact (incoming_requests_limited
    (before ++ (bob, incomingWindow) :: (between ++ (bob, incomingBackoff) :: []))
    (by decide +kernel)).2.1 before (bob, incomingWindow) between (bob, incomingBackoff) [] rfl
    exceeds rfl (by decide)

end RateLimiter

end Repartee.E2e
