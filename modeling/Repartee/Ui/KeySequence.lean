import Repartee.Lib.Run
import Repartee.Lib.Table
import Repartee.Text

/-!
The tokens that wait for the rest of a key sequence: every token fed is part of a sequence whose
action ran, is handed back as it was, or still waits, and always in the order it came in.
-/

namespace Repartee.Ui

open Repartee.Text
open Repartee.Lib

structure Binding where
  action : Str
  data : Str
  deriving DecidableEq

def Binding.new (action data : Str) : Binding := ⟨asciiLower action, data⟩

/-- What a key sends. -/
abbrev Token : Type := Str

/-- The map the bindings of a configuration compile to. -/
structure Keymap where
  executable : Map (List Token) Binding
  timeout : Nat

inductive Dispatch where
  | action (binding : Binding)
  | replay (token : Token)
  deriving DecidableEq

structure Sequence where
  pending : List Token
  lastInput : Nat
  deriving DecidableEq

def maxU64 : Nat := 2 ^ 64 - 1

/-- The time an escape key alone waits for the rest of a sequence. -/
def escapeTimeout : Nat := 500

def loneEscape : List Token := ["^[".toList]

/-- Some bound sequence is longer than the tokens and begins with them. -/
def Keymap.continues (keymap : Keymap) (tokens : List Token) : Bool :=
  keymap.executable.rows.any fun entry =>
    decide (tokens.length < entry.1.length) && tokens.isPrefixOf entry.1

namespace Sequence

def default : Sequence := ⟨[], 0⟩

def isPending (s : Sequence) : Bool := !s.pending.isEmpty

def clear (s : Sequence) : Sequence := { s with pending := [] }

def drain (s : Sequence) : List Dispatch × Sequence := (s.pending.map .replay, s.clear)

def deadline (keymap : Keymap) (s : Sequence) : Option Nat :=
  let timeout := if s.pending = loneEscape then escapeTimeout else keymap.timeout
  if s.pending.isEmpty || timeout = 0 then none else some (min (s.lastInput + timeout) maxU64)

/-- The deadline has passed. -/
def due (keymap : Keymap) (s : Sequence) (now : Nat) : Bool :=
  match s.deadline keymap with
  | none => false
  | some deadline => decide (deadline ≤ now)

def expire (keymap : Keymap) (s : Sequence) (now : Nat) : List Dispatch × Sequence :=
  if s.due keymap now then
    match keymap.executable.get? s.pending with
    | some action => ([.action action], s.clear)
    | none => s.drain
  else ([], s)

/-- One event's tokens, which go round again when they do not fit what was waiting. -/
def feedRounds (keymap : Keymap) (tokens : List Token) (now : Nat) :
    Nat → Sequence → List Dispatch × Sequence
  | 0, s => ([], s)
  | rounds + 1, s =>
      let expired := s.expire keymap now
      let previous := expired.2.pending
      let fed : Sequence := ⟨previous ++ tokens, now⟩
      if keymap.continues fed.pending then (expired.1, fed)
      else match keymap.executable.get? fed.pending with
        | some action => (expired.1 ++ [.action action], fed.clear)
        | none =>
            if previous.isEmpty then (expired.1 ++ fed.drain.1, fed.drain.2)
            else
              let drained := Sequence.drain { fed with pending := previous }
              let again := feedRounds keymap tokens now rounds drained.2
              (expired.1 ++ drained.1 ++ again.1, again.2)

def feedEvent (keymap : Keymap) (s : Sequence) (tokens : List Token) (now : Nat) :
    List Dispatch × Sequence :=
  feedRounds keymap tokens now 2 s

variable {keymap : Keymap} {s : Sequence} {tokens : List Token} {now : Nat}

@[simp] theorem expire_idle (idle : s.pending = []) : s.expire keymap now = ([], s) := by
  simp [expire, due, deadline, idle]

/-- What an event does that meets nothing waiting. -/
def fresh (keymap : Keymap) (tokens : List Token) (now : Nat) : List Dispatch × Sequence :=
  if keymap.continues tokens then ([], ⟨tokens, now⟩)
  else match keymap.executable.get? tokens with
    | some action => ([.action action], ⟨[], now⟩)
    | none => (tokens.map .replay, ⟨[], now⟩)

/-- An event that finds nothing waiting goes round once. -/
theorem feedRounds_idle (rounds : Nat) (idle : s.pending = []) :
    feedRounds keymap tokens now (rounds + 1) s = fresh keymap tokens now := by
  simp only [feedRounds, expire_idle idle, idle, List.nil_append, List.isEmpty_nil, if_true, fresh]
  split
  · rfl
  · cases keymap.executable.get? tokens <;> rfl

/-- Two rounds are always enough: the second finds nothing waiting. -/
theorem feedRounds_enough (rounds : Nat) (s : Sequence) :
    feedRounds keymap tokens now (rounds + 2) s = feedEvent keymap s tokens now := by
  have again : ∀ more, feedRounds keymap tokens now (more + 1)
      (Sequence.drain ⟨(s.expire keymap now).2.pending, now⟩).2 = fresh keymap tokens now :=
    fun more => feedRounds_idle more rfl
  rw [feedEvent, feedRounds, feedRounds]
  simp only [again]

/-- An event after the deadline finds nothing waiting. -/
theorem expire_due (late : s.due keymap now = true) : (s.expire keymap now).2.pending = [] := by
  rw [expire, if_pos late]
  cases keymap.executable.get? s.pending <;> rfl

theorem expire_early (early : s.due keymap now = false) : s.expire keymap now = ([], s) := by
  rw [expire, early]
  rfl

/-- What an event does, by what waits when it comes in. -/
theorem feedEvent_due (late : s.due keymap now = true) :
    feedEvent keymap s tokens now =
      ((s.expire keymap now).1 ++ (fresh keymap tokens now).1, (fresh keymap tokens now).2) := by
  simp only [feedEvent, feedRounds, expire_due late, List.nil_append, List.isEmpty_nil, if_true, fresh]
  split
  · simp
  · cases keymap.executable.get? tokens <;> rfl

theorem feedEvent_early (early : s.due keymap now = false) :
    feedEvent keymap s tokens now =
      if keymap.continues (s.pending ++ tokens) then ([], ⟨s.pending ++ tokens, now⟩)
      else match keymap.executable.get? (s.pending ++ tokens) with
        | some action => ([.action action], ⟨[], now⟩)
        | none => (s.pending.map .replay ++ (fresh keymap tokens now).1, (fresh keymap tokens now).2) := by
  have again := @feedRounds_idle keymap (Sequence.drain ⟨s.pending, now⟩).2 tokens now 0 rfl
  rw [feedEvent, feedRounds]
  simp only [expire_early early, again]
  split
  · rfl
  · next stops =>
      cases bound : keymap.executable.get? (s.pending ++ tokens) with
      | some action => rfl
      | none =>
          cases waiting : s.pending with
          | nil =>
              rw [waiting, List.nil_append] at stops bound
              simp [fresh, stops, bound, drain, clear]
          | cons first rest => simp [drain]

end Sequence

/-! ### Runs -/

inductive SequenceOp where
  | feed (tokens : List Token) (now : Nat)
  | tick (now : Nat)
  | cancel

/-- What became of tokens that no longer wait. -/
inductive Fate where
  | dispatched (dispatch : Dispatch)
  | dropped (tokens : List Token)

structure Typing where
  sequence : Sequence
  fates : List Fate

namespace Typing

def start : Typing := ⟨Sequence.default, []⟩

def exec (keymap : Keymap) (t : Typing) : SequenceOp → Typing
  | .feed tokens now =>
      let fed := t.sequence.feedEvent keymap tokens now
      ⟨fed.2, t.fates ++ fed.1.map .dispatched⟩
  | .tick now =>
      let expired := t.sequence.expire keymap now
      ⟨expired.2, t.fates ++ expired.1.map .dispatched⟩
  | .cancel => ⟨t.sequence.clear, t.fates ++ [.dropped t.sequence.pending]⟩

end Typing

def SequenceOp.fed : SequenceOp → List Token
  | .feed tokens _ => tokens
  | .tick _ => []
  | .cancel => []

/-- The fates, each with the tokens it settles: an action settles a sequence bound to it. -/
inductive Accounts (keymap : Keymap) : List Fate → List Token → Prop
  | nil : Accounts keymap [] []
  | action {sequence tokens : List Token} {binding : Binding} {fates : List Fate} :
      keymap.executable.get? sequence = some binding → Accounts keymap fates tokens →
      Accounts keymap (.dispatched (.action binding) :: fates) (sequence ++ tokens)
  | replay {token : Token} {tokens : List Token} {fates : List Fate} :
      Accounts keymap fates tokens →
      Accounts keymap (.dispatched (.replay token) :: fates) (token :: tokens)
  | dropped {dropped tokens : List Token} {fates : List Fate} :
      Accounts keymap fates tokens → Accounts keymap (.dropped dropped :: fates) (dropped ++ tokens)

variable {keymap : Keymap}

theorem Accounts.append {first second : List Fate} {a b : List Token}
    (before : Accounts keymap first a) (after : Accounts keymap second b) :
    Accounts keymap (first ++ second) (a ++ b) := by
  induction before with
  | nil => exact after
  | action bound _ ih => simpa using Accounts.action bound ih
  | replay _ ih => exact Accounts.replay ih
  | dropped _ ih => simpa using Accounts.dropped ih

theorem accounts_replays (tokens : List Token) :
    Accounts keymap ((tokens.map Dispatch.replay).map .dispatched) tokens := by
  induction tokens with
  | nil => exact Accounts.nil
  | cons token rest ih => exact Accounts.replay ih

theorem accounts_action {sequence : List Token} {binding : Binding}
    (bound : keymap.executable.get? sequence = some binding) :
    Accounts keymap [.dispatched (.action binding)] sequence := by
  simpa using Accounts.action bound Accounts.nil

/-- The dispatches settle a beginning of the tokens and leave the rest waiting. -/
def Settles (keymap : Keymap) (tokens : List Token) (result : List Dispatch × Sequence) : Prop :=
  ∃ consumed, Accounts keymap (result.1.map .dispatched) consumed ∧
    consumed ++ result.2.pending = tokens

theorem expire_settles (s : Sequence) (now : Nat) :
    Settles keymap s.pending (s.expire keymap now) := by
  rw [Sequence.expire]
  split
  · cases bound : keymap.executable.get? s.pending with
    | some action => exact ⟨s.pending, accounts_action bound, List.append_nil _⟩
    | none => exact ⟨s.pending, accounts_replays s.pending, List.append_nil _⟩
  · exact ⟨[], Accounts.nil, rfl⟩

theorem fresh_settles (tokens : List Token) (now : Nat) :
    Settles keymap tokens (Sequence.fresh keymap tokens now) := by
  rw [Sequence.fresh]
  split
  · exact ⟨[], Accounts.nil, rfl⟩
  · cases bound : keymap.executable.get? tokens with
    | some action => exact ⟨tokens, accounts_action bound, List.append_nil _⟩
    | none => exact ⟨tokens, accounts_replays tokens, List.append_nil _⟩

theorem feedEvent_settles (s : Sequence) (tokens : List Token) (now : Nat) :
    Settles keymap (s.pending ++ tokens) (s.feedEvent keymap tokens now) := by
  obtain ⟨rest, settled, split⟩ := @fresh_settles keymap tokens now
  by_cases late : s.due keymap now = true
  · rw [Sequence.feedEvent_due late]
    obtain ⟨consumed, expired, all⟩ := @expire_settles keymap s now
    rw [Sequence.expire_due late, List.append_nil] at all
    refine ⟨consumed ++ rest, ?_, ?_⟩
    · rw [List.map_append]
      exact expired.append settled
    · rw [List.append_assoc, split, all]
  · rw [Sequence.feedEvent_early (Bool.eq_false_iff.mpr late)]
    by_cases waits : keymap.continues (s.pending ++ tokens) = true
    · rw [if_pos waits]
      exact ⟨[], Accounts.nil, rfl⟩
    · rw [if_neg waits]
      cases bound : keymap.executable.get? (s.pending ++ tokens) with
      | some action => exact ⟨s.pending ++ tokens, accounts_action bound, List.append_nil _⟩
      | none =>
          refine ⟨s.pending ++ rest, ?_, ?_⟩
          · rw [List.map_append]
            exact (accounts_replays s.pending).append settled
          · rw [List.append_assoc, split]

/-- What waits can still become a bound sequence. -/
def Waits (keymap : Keymap) (s : Sequence) : Prop :=
  s.pending = [] ∨ keymap.continues s.pending = true

theorem fresh_waits (tokens : List Token) (now : Nat) :
    Waits keymap (Sequence.fresh keymap tokens now).2 := by
  rw [Sequence.fresh]
  split
  · next waits => exact Or.inr waits
  · cases keymap.executable.get? tokens <;> exact Or.inl rfl

theorem feedEvent_waits (s : Sequence) (tokens : List Token) (now : Nat) :
    Waits keymap (s.feedEvent keymap tokens now).2 := by
  by_cases late : s.due keymap now = true
  · rw [Sequence.feedEvent_due late]
    exact fresh_waits tokens now
  · rw [Sequence.feedEvent_early (Bool.eq_false_iff.mpr late)]
    by_cases waits : keymap.continues (s.pending ++ tokens) = true
    · rw [if_pos waits]
      exact Or.inr waits
    · rw [if_neg waits]
      cases keymap.executable.get? (s.pending ++ tokens) with
      | some action => exact Or.inl rfl
      | none => exact fresh_waits tokens now

theorem expire_waits (s : Sequence) (now : Nat) (held : Waits keymap s) :
    Waits keymap (s.expire keymap now).2 := by
  by_cases late : s.due keymap now = true
  · exact Or.inl (Sequence.expire_due late)
  · rw [Sequence.expire_early (Bool.eq_false_iff.mpr late)]
    exact held

theorem continues_iff (tokens : List Token) :
    keymap.continues tokens = true ↔
      ∃ rest binding, rest ≠ [] ∧ keymap.executable.get? (tokens ++ rest) = some binding := by
  simp only [Keymap.continues, List.any_eq_true, Bool.and_eq_true, decide_eq_true_eq,
    List.isPrefixOf_iff_prefix]
  constructor
  · rintro ⟨⟨key, binding⟩, member, longer, rest, rfl⟩
    refine ⟨rest, binding, ?_, (Map.get?_eq_some _ _ _).mpr member⟩
    rintro rfl
    simp at longer
  · rintro ⟨rest, binding, some_, bound⟩
    refine ⟨(tokens ++ rest, binding), (Map.get?_eq_some _ _ _).mp bound, ?_, List.prefix_append _ _⟩
    have positive := List.length_pos_iff.mpr some_
    simp only [List.length_append]
    omega

/-- What a step keeps: the tokens fed so far are those settled, then those that wait. -/
def Typing.Balanced (keymap : Keymap) (fed : List Token) (t : Typing) : Prop :=
  (∃ consumed, Accounts keymap t.fates consumed ∧ consumed ++ t.sequence.pending = fed) ∧
    Waits keymap t.sequence

theorem Typing.Balanced.settled {fed consumed tokens : List Token} {fates : List Fate} {s : Sequence}
    {result : List Dispatch × Sequence} (before : Accounts keymap fates consumed)
    (all : consumed ++ s.pending = fed) (settles : Settles keymap (s.pending ++ tokens) result) :
    ∃ consumed, Accounts keymap (fates ++ result.1.map .dispatched) consumed ∧
      consumed ++ result.2.pending = fed ++ tokens := by
  obtain ⟨more, after, split⟩ := settles
  refine ⟨consumed ++ more, before.append after, ?_⟩
  rw [List.append_assoc, split, ← List.append_assoc, all]

theorem Typing.Balanced.exec {fed : List Token} {t : Typing} (held : t.Balanced keymap fed)
    (op : SequenceOp) : (t.exec keymap op).Balanced keymap (fed ++ op.fed) := by
  obtain ⟨⟨consumed, before, all⟩, waits⟩ := held
  cases op with
  | feed tokens now =>
      exact ⟨Balanced.settled before all (feedEvent_settles t.sequence tokens now),
        feedEvent_waits t.sequence tokens now⟩
  | tick now =>
      have settles := @expire_settles keymap t.sequence now
      rw [← List.append_nil t.sequence.pending] at settles
      exact ⟨Balanced.settled before all settles, expire_waits t.sequence now waits⟩
  | cancel =>
      refine ⟨⟨consumed ++ t.sequence.pending, ?_, ?_⟩, Or.inl rfl⟩
      · have dropped : Accounts keymap [.dropped t.sequence.pending] t.sequence.pending := by
          simpa using Accounts.dropped Accounts.nil
        exact before.append dropped
      · simp [SequenceOp.fed, Typing.exec, Sequence.clear, all]

/-- Whatever is fed and whenever, the tokens are settled in the order they came in: each is part of
a bound sequence whose action ran, is handed back by itself, or was dropped with all that waited; and
the ones not settled yet are the beginning of a longer bound sequence. -/
theorem every_token_is_settled_once (keymap : Keymap) (ops : List SequenceOp) :
    (∃ consumed, Accounts keymap (runFrom (Typing.exec keymap) Typing.start ops).fates consumed ∧
        consumed ++ (runFrom (Typing.exec keymap) Typing.start ops).sequence.pending =
          ops.flatMap SequenceOp.fed) ∧
      ((runFrom (Typing.exec keymap) Typing.start ops).sequence.pending = [] ∨
        ∃ rest binding, rest ≠ [] ∧ keymap.executable.get?
          ((runFrom (Typing.exec keymap) Typing.start ops).sequence.pending ++ rest) =
            some binding) := by
  have along : ∀ ops t fed, t.Balanced keymap fed →
      (runFrom (Typing.exec keymap) t ops).Balanced keymap (fed ++ ops.flatMap SequenceOp.fed) := by
    intro ops
    induction ops with
    | nil =>
        intro t fed held
        simpa using held
    | cons op rest ih =>
        intro t fed held
        rw [runFrom_cons, List.flatMap_cons, ← List.append_assoc]
        exact ih _ _ (held.exec op)
  have start : Typing.start.Balanced keymap [] := ⟨⟨[], Accounts.nil, rfl⟩, Or.inl rfl⟩
  obtain ⟨settled, waits⟩ := along ops Typing.start [] start
  rw [List.nil_append] at settled
  exact ⟨settled, waits.imp_right (continues_iff _).mp⟩

/-! ### Sequences typed in time -/

/-- An event at the second time comes before what was fed at the first is due. -/
def InTime (keymap : Keymap) (first second : Nat) : Prop :=
  second < min (first + escapeTimeout) maxU64 ∧
    (keymap.timeout = 0 ∨ second < min (first + keymap.timeout) maxU64)

/-- The events of one typing, one after the other. -/
def Sequence.feedAll (keymap : Keymap) (s : Sequence) :
    List (List Token × Nat) → List Dispatch × Sequence
  | [] => ([], s)
  | event :: rest =>
      let fed := s.feedEvent keymap event.1 event.2
      let later := fed.2.feedAll keymap rest
      (fed.1 ++ later.1, later.2)

theorem Sequence.feedAll_append (s : Sequence) (first second : List (List Token × Nat)) :
    s.feedAll keymap (first ++ second) =
      ((s.feedAll keymap first).1 ++ ((s.feedAll keymap first).2.feedAll keymap second).1,
        ((s.feedAll keymap first).2.feedAll keymap second).2) := by
  induction first generalizing s with
  | nil => rfl
  | cons event rest ih => simp [feedAll, ih]

theorem InTime.early {pending : List Token} {first second : Nat}
    (prompt : InTime keymap first second) :
    (⟨pending, first⟩ : Sequence).due keymap second = false := by
  unfold Sequence.due Sequence.deadline
  by_cases empty : pending.isEmpty = true
  · simp [empty]
  · by_cases escape : pending = loneEscape
    · simpa [empty, escape, escapeTimeout, loneEscape] using prompt.1
    · rcases prompt.2 with never | before
      · simp [never, escape]
      · by_cases never : keymap.timeout = 0
        · simp [never, escape]
        · simpa [empty, escape, never] using before

/-- The events before the last only wait. -/
theorem feedAll_front (front : List (List Token × Nat)) (last : List Token × Nat)
    (binding : Binding) (some_ : last.1 ≠ []) (s : Sequence)
    (bound : keymap.executable.get? (s.pending ++ (front ++ [last]).flatMap Prod.fst) = some binding)
    (early : ∀ event ∈ (front ++ [last]).head?, s.due keymap event.2 = false)
    (prompt : ((front ++ [last]).map Prod.snd).IsChain (InTime keymap)) :
    ∃ s' : Sequence, s.feedAll keymap front = ([], s') ∧
      s'.pending = s.pending ++ front.flatMap Prod.fst ∧ s'.due keymap last.2 = false := by
  induction front generalizing s with
  | nil => exact ⟨s, rfl, (List.append_nil _).symm, early last rfl⟩
  | cons event rest ih =>
      have unfinished : keymap.continues (s.pending ++ event.1) = true := by
        apply (continues_iff _).mpr
        refine ⟨(rest ++ [last]).flatMap Prod.fst, binding, ?_, ?_⟩
        · simp [some_]
        · simpa using bound
      have waits : s.feedEvent keymap event.1 event.2 = ([], ⟨s.pending ++ event.1, event.2⟩) := by
        rw [Sequence.feedEvent_early (early event rfl), if_pos unfinished]
      have later := ih ⟨s.pending ++ event.1, event.2⟩ (by simpa using bound) (by
        intro second member
        apply InTime.early
        cases rest with
        | nil =>
            rw [← Option.mem_some_iff.mp member]
            exact (List.isChain_cons_cons.mp prompt).1
        | cons third more =>
            rw [← Option.mem_some_iff.mp member]
            exact (List.isChain_cons_cons.mp prompt).1) prompt.tail
      obtain ⟨s', fed, pending, waiting⟩ := later
      refine ⟨s', ?_, ?_, waiting⟩
      · simp [Sequence.feedAll, waits, fed]
      · simp [pending]

/-- One key bound alone and twice in a row. -/
def shortAndLong : Keymap where
  executable := ((Table.empty : Map (List Token) Binding).replace
    (["g".toList], Binding.new "insert_text".toList "short".toList)).replace
      (["g".toList, "g".toList], Binding.new "insert_text".toList "long".toList)
  timeout := 100

end Repartee.Ui
