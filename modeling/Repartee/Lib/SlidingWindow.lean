import Mathlib

/-!
The sliding window: calls are counted over a window of time, a count that reaches the threshold
blocks for a while, and a call made while blocked makes the block longer.
-/

namespace Repartee.Lib.SlidingWindow

inductive Verdict where
  | allow
  | triggered
  | blocked
  deriving DecidableEq, Repr

structure Limits where
  threshold : Nat
  window : Nat
  block : Nat

structure Window where
  times : List Nat
  blockedUntil : Option Nat
  deriving DecidableEq

def empty : Window := ⟨[], none⟩

variable (limits : Limits)

/-- A call made at `t` counts at `now`. -/
def counts (now t : Nat) : Bool := decide (now ≤ t + limits.window)

def Window.blockedAt (w : Window) (now : Nat) : Bool :=
  w.blockedUntil.any fun till => decide (now < till)

/-- The automaton of one key. -/
def ask (w : Window) (now : Nat) : Verdict × Window :=
  if w.blockedAt now then (.blocked, ⟨w.times, some (now + limits.block)⟩)
  else
    let kept := w.times.filter (counts limits now) ++ [now]
    if limits.threshold ≤ kept.length then (.triggered, ⟨[], some (now + limits.block)⟩)
    else (.allow, ⟨kept, none⟩)

/-- No call made at `last` or later tells the two windows apart. -/
structure Alike (last : Nat) (v w : Window) : Prop where
  times : v.times.filter (counts limits last) = w.times.filter (counts limits last)
  blocked : ∀ now, last ≤ now → v.blockedAt now = w.blockedAt now

/-- The calls are in order, and none is later than the last one. -/
structure Ordered (last : Nat) (times : List Nat) : Prop where
  sorted : times.Pairwise (· ≤ ·)
  past : ∀ t ∈ times, t ≤ last

variable {limits}

theorem filter_counts {last now : Nat} (later : last ≤ now) (times : List Nat) :
    (times.filter (counts limits last)).filter (counts limits now) =
      times.filter (counts limits now) := by
  rw [List.filter_filter]
  apply List.filter_congr
  intro t _
  simp only [counts, Bool.and_eq_left_iff_imp, decide_eq_true_eq]
  intro inside
  omega

namespace Alike

variable {last now : Nat} {u v w : Window}

theorem refl (last : Nat) (w : Window) : Alike limits last w w := ⟨rfl, fun _ _ => rfl⟩

theorem symm (alike : Alike limits last v w) : Alike limits last w v :=
  ⟨alike.times.symm, fun now later => (alike.blocked now later).symm⟩

theorem trans (first : Alike limits last u v) (second : Alike limits last v w) :
    Alike limits last u w :=
  ⟨first.times.trans second.times,
    fun now later => (first.blocked now later).trans (second.blocked now later)⟩

theorem later (alike : Alike limits last v w) (ordered : last ≤ now) : Alike limits now v w where
  times := by
    calc
      v.times.filter (counts limits now)
          = (v.times.filter (counts limits last)).filter (counts limits now) :=
            (filter_counts ordered v.times).symm
      _ = (w.times.filter (counts limits last)).filter (counts limits now) := by rw [alike.times]
      _ = w.times.filter (counts limits now) := filter_counts ordered w.times
  blocked := fun at_ after => alike.blocked at_ (le_trans ordered after)

/-- Two windows no later call tells apart answer alike and stay so. -/
theorem ask (alike : Alike limits last v w) (ordered : last ≤ now) :
    (SlidingWindow.ask limits v now).1 = (SlidingWindow.ask limits w now).1 ∧
      Alike limits now (SlidingWindow.ask limits v now).2 (SlidingWindow.ask limits w now).2 := by
  have here := alike.later ordered
  unfold SlidingWindow.ask
  rw [here.blocked now le_rfl, here.times]
  by_cases barred : w.blockedAt now = true
  · simp only [barred, if_true, true_and]
    exact ⟨here.times, fun _ _ => rfl⟩
  · simp only [barred, Bool.false_eq_true, if_false]
    split
    · exact ⟨trivial, Alike.refl now _⟩
    · exact ⟨trivial, Alike.refl now _⟩

/-- Dropping what no longer counts and a block that is over goes unnoticed. -/
theorem swept (last : Nat) (w : Window) :
    Alike limits last
      ⟨w.times.filter (counts limits last), w.blockedUntil.filter fun till => decide (last < till)⟩
      w where
  times := filter_counts le_rfl w.times
  blocked := by
    intro now later
    unfold Window.blockedAt
    cases till : w.blockedUntil with
    | none => rfl
    | some t =>
        by_cases over_ : last < t
        · simp [Option.filter, over_]
        · have done : ¬now < t := by omega
          simp [Option.filter, over_, done]

end Alike

/-- In order, the calls that no longer count stand in front. -/
theorem Ordered.dropWhile {last : Nat} {times : List Nat} (ordered : Ordered last times)
    (p : Nat → Bool) (front : ∀ s t, s ≤ t → p t = true → p s = true) :
    times.dropWhile p = times.filter fun t => !p t := by
  have sorted := ordered.sorted
  clear ordered
  induction times with
  | nil => rfl
  | cons t rest ih =>
      rw [List.pairwise_cons] at sorted
      by_cases old : p t = true
      · simp [old, ih sorted.2]
      · have kept : ∀ s ∈ t :: rest, (!p s) = true := by
          intro s member
          rcases List.mem_cons.mp member with rfl | behind
          · simp [old]
          · have young : ¬p s = true := fun gone => old (front t s (sorted.1 s behind) gone)
            simp [young]
        rw [List.filter_eq_self.mpr kept, List.dropWhile_cons, if_neg (by simpa using old)]

namespace Ordered

variable {last now : Nat} {times : List Nat}

theorem nil (last : Nat) : Ordered last [] := ⟨List.Pairwise.nil, by simp⟩

theorem filter (ordered : Ordered last times) (p : Nat → Bool) : Ordered last (times.filter p) :=
  ⟨ordered.sorted.filter p, fun t member => ordered.past t (List.mem_filter.mp member).1⟩

theorem later (ordered : Ordered last times) (after : last ≤ now) : Ordered now times :=
  ⟨ordered.sorted, fun t member => le_trans (ordered.past t member) after⟩

theorem push (ordered : Ordered last times) (after : last ≤ now) : Ordered now (times ++ [now]) where
  sorted := by
    rw [List.pairwise_append]
    refine ⟨ordered.sorted, List.pairwise_singleton _ _, ?_⟩
    intro s inside t same
    rw [List.mem_singleton.mp same]
    exact le_trans (ordered.past s inside) after
  past := by
    intro t member
    rcases List.mem_append.mp member with inside | same
    · exact le_trans (ordered.past t inside) after
    · exact le_of_eq (List.mem_singleton.mp same)

end Ordered

end Repartee.Lib.SlidingWindow
