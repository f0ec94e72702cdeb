import Repartee.Lib.Run
import Repartee.Lib.Table
import Repartee.Text

/-!
The typing notifications sent to a network: sources type into buffers, what their buffers need is
proposed, and what went out is confirmed. Times are in nanoseconds.
-/

namespace Repartee.Typing

open Repartee.Text
open Repartee.Lib

def throttle : Nat := 3 * 1000000000

inductive TypingState where
  | active
  | paused
  | done
  deriving DecidableEq

/-- Each web session is a source of its own. -/
inductive TypingSource where
  | tui
  | web (session : Str)
  deriving DecidableEq

structure SourceState where
  bufferId : Str
  active : Bool
  lastActivity : Nat
  deriving DecidableEq

structure TargetState where
  /-- The last state put on the wire, unless it was retracted. -/
  sent : Option TypingState
  lastSent : Option Nat
  deriving DecidableEq

structure TypingSender where
  sources : Map TypingSource SourceState
  targets : Map Str TargetState
  lastMessage : Map Str Nat

/-- A recorded time is too recent for anything more. -/
def blocks (last : Option Nat) (now : Nat) : Bool := last.any fun t => decide (now - t < throttle)

/-- What a target whose sources imply `desired` needs after `sent`. An active state is sent again
in each window. -/
def needed (desired sent : Option TypingState) : Option TypingState :=
  match desired, sent with
  | none, none => none
  | none, some _ => some .done
  | some .active, some .active => some .active
  | some d, some s => if d = s then none else some d
  | some d, none => some d

namespace TypingSender

def new : TypingSender := ⟨Table.empty, Table.empty, Table.empty⟩

def sent (sender : TypingSender) (bufferId : Str) : Option TypingState :=
  (sender.targets.get? bufferId).bind TargetState.sent

def lastSent (sender : TypingSender) (bufferId : Str) : Option Nat :=
  (sender.targets.get? bufferId).bind TargetState.lastSent

/-- The source has text waiting in the buffer. -/
def typesInto (bufferId : Str) (source : TypingSource × SourceState) : Bool :=
  decide (source.2.bufferId = bufferId) && source.2.active

def desired (sender : TypingSender) (bufferId : Str) (now : Nat) : Option TypingState :=
  if sender.sources.rows.any (typesInto bufferId) then
    some (if sender.sources.rows.any fun source =>
        typesInto bufferId source && decide (now - source.2.lastActivity < throttle)
      then .active else .paused)
  else none

def throttled (sender : TypingSender) (bufferId : Str) (now : Nat) : Bool :=
  blocks (sender.lastSent bufferId) now

def suppressedByMessage (sender : TypingSender) (bufferId : Str) (now : Nat) : Bool :=
  blocks (sender.lastMessage.get? bufferId) now

def nextState (sender : TypingSender) (bufferId : Str) (now : Nat) : Option TypingState :=
  match needed (sender.desired bufferId now) (sender.sent bufferId) with
  | none => none
  | some state =>
      if sender.throttled bufferId now then none
      else if sender.suppressedByMessage bufferId now then none
      else some state

def propose (sender : TypingSender) (bufferIds : List Str) (now : Nat) :
    List (Str × TypingState) :=
  bufferIds.filterMap fun bufferId =>
    (sender.nextState bufferId now).map fun state => (bufferId, state)

/-- A source that moved releases its old buffer at once. -/
def onActivity (sender : TypingSender) (source : TypingSource) (bufferId : Str) (active : Bool)
    (now : Nat) : TypingSender × List (Str × TypingState) :=
  let moved := { sender with sources := sender.sources.insert source ⟨bufferId, active, now⟩ }
  let released := ((sender.sources.get? source).map SourceState.bufferId).filter
    fun previous => decide (previous ≠ bufferId)
  (moved, moved.propose (bufferId :: released.toList) now)

/-- The message is the retraction: the target is retired without one of its own. -/
def onMessageSent (sender : TypingSender) (bufferId : Str) (now : Nat) :
    TypingSender × List (Str × TypingState) :=
  let retired := { sender with
    lastMessage := sender.lastMessage.insert bufferId now
    targets := sender.targets.adjust bufferId fun target => { target with sent := none } }
  (retired, retired.propose [bufferId] now)

/-- Nothing counts as said unless a message reached the wire. -/
def onSubmit (sender : TypingSender) (source : TypingSource) (bufferId : Str) (sentMessage : Bool)
    (now : Nat) : TypingSender × List (Str × TypingState) :=
  let quiet := { sender with sources := sender.sources.adjust source fun state =>
    { state with active := false, lastActivity := now } }
  if sentMessage then quiet.onMessageSent bufferId now
  else (quiet, quiet.propose [bufferId] now)

def removeSource (sender : TypingSender) (source : TypingSource) (now : Nat) :
    TypingSender × List (Str × TypingState) :=
  match sender.sources.get? source with
  | none => (sender, [])
  | some previous =>
      let gone := { sender with sources := sender.sources.erase source }
      (gone, gone.propose [previous.bufferId] now)

/-- The targets, and the buffers of the sources that are no target yet. -/
def tickIds (sender : TypingSender) : List Str :=
  sender.sources.rows.foldl (fun ids source =>
    if source.2.bufferId ∈ ids then ids else ids ++ [source.2.bufferId])
    (sender.targets.rows.map Prod.fst)

def prune (sender : TypingSender) (now : Nat) : TypingSender :=
  let live := sender.sources.rows.map fun source => source.2.bufferId
  { sender with
    targets := sender.targets.retain fun bufferId target =>
      target.sent.isSome || decide (bufferId ∈ live) || blocks target.lastSent now
    lastMessage := sender.lastMessage.retain fun _ t => decide (now - t < throttle) }

def onTick (sender : TypingSender) (now : Nat) : TypingSender × List (Str × TypingState) :=
  (sender.prune now, sender.propose sender.tickIds now)

def confirmSent (sender : TypingSender) (bufferId : Str) (state : TypingState) (now : Nat) :
    TypingSender :=
  let confirmed : TargetState := ⟨if state = .done then none else some state, some now⟩
  { sender with targets := sender.targets.insert bufferId confirmed }

end TypingSender

inductive Call where
  | onActivity (source : TypingSource) (bufferId : Str) (active : Bool)
  | onSubmit (source : TypingSource) (bufferId : Str) (sentMessage : Bool)
  | onMessageSent (bufferId : Str)
  | removeSource (source : TypingSource)
  | onTick
  deriving DecidableEq

def TypingSender.call (sender : TypingSender) (now : Nat) :
    Call → TypingSender × List (Str × TypingState)
  | .onActivity source bufferId active => sender.onActivity source bufferId active now
  | .onSubmit source bufferId sentMessage => sender.onSubmit source bufferId sentMessage now
  | .onMessageSent bufferId => sender.onMessageSent bufferId now
  | .removeSource source => sender.removeSource source now
  | .onTick => sender.onTick now

/-- The buffer whose peers the call says a message has just reached. -/
def Call.spokenTo : Call → Option Str
  | .onSubmit _ bufferId true => some bufferId
  | .onMessageSent bufferId => some bufferId
  | _ => none

/-! ### The wire -/

inductive Said where
  | note (state : TypingState)
  | message
  deriving DecidableEq

structure WireEvent where
  time : Nat
  target : Str
  said : Said
  deriving DecidableEq

/-- The sender, what peers received so far (newest first), and the time. -/
structure Machine where
  sender : TypingSender
  heard : List WireEvent
  clock : Nat

/-- A call, and which of its proposals the network takes a moment later. -/
structure Op where
  now : Nat
  call : Call
  sentAt : Nat
  goes : Str × TypingState → Bool

namespace Machine

def new : Machine := ⟨TypingSender.new, [], 0⟩

def due (m : Machine) (op : Op) : List (Str × TypingState) := (m.sender.call op.now op.call).2

/-- What peers have received when the proposals of the call are made. -/
def heardBy (m : Machine) (op : Op) : List WireEvent :=
  (op.call.spokenTo.map fun target => WireEvent.mk op.now target .message).toList ++ m.heard

def called (m : Machine) (op : Op) : Machine :=
  ⟨(m.sender.call op.now op.call).1, m.heardBy op, op.sentAt⟩

def confirm (m : Machine) (proposal : Str × TypingState) : Machine :=
  { m with
    sender := m.sender.confirmSent proposal.1 proposal.2 m.clock
    heard := ⟨m.clock, proposal.1, .note proposal.2⟩ :: m.heard }

def exec (m : Machine) (op : Op) : Machine :=
  ((m.due op).filter op.goes).foldl confirm (m.called op)

def run (ops : List Op) : Machine := runFrom exec new ops

end Machine

/-- Time does not go back. -/
def InOrder (m : Machine) (op : Op) : Prop := m.clock ≤ op.now ∧ op.now ≤ op.sentAt

instance (m : Machine) (op : Op) : Decidable (InOrder m op) :=
  inferInstanceAs (Decidable (_ ∧ _))

/-- What peers show of us after receiving this. -/
def Said.shows : Said → Option TypingState
  | .note .active => some .active
  | .note .paused => some .paused
  | .note .done => none
  | .message => none

/-- What the peers of a target show of us: the last thing they received decides. -/
def shown (heard : List WireEvent) (target : Str) : Option TypingState :=
  (heard.find? fun e => decide (e.target = target)).bind fun e => e.said.shows

/-- When a target was notified. -/
def NotedAt (heard : List WireEvent) (target : Str) (t : Nat) : Prop :=
  ∃ state, WireEvent.mk t target (.note state) ∈ heard

/-- When a target was sent a message. -/
def SpokenAt (heard : List WireEvent) (target : Str) (t : Nat) : Prop :=
  WireEvent.mk t target .message ∈ heard

/-- Two notifications of one target, the later first, are a window apart. -/
def Spaced (later earlier : WireEvent) : Prop :=
  later.target = earlier.target → later.said ≠ .message → earlier.said ≠ .message →
    earlier.time + throttle ≤ later.time

/-! ### A clock that may forget what is over -/

/-- The recorded time is one of the times, and the latest of those that still block at the clock. -/
structure Records (last : Option Nat) (times : Nat → Prop) (clock : Nat) : Prop where
  real : ∀ t, last = some t → times t
  latest : ∀ t, times t → clock < t + throttle → ∃ kept, last = some kept ∧ t ≤ kept

section Records

variable {last : Option Nat} {times : Nat → Prop} {clock now : Nat}

theorem blocks_eq_false : blocks last now = false ↔ ∀ t, last = some t → t + throttle ≤ now := by
  have positive : 0 < throttle := by decide
  cases last with
  | none => simp [blocks]
  | some t =>
      simp only [blocks, Option.any_some, decide_eq_false_iff_not, Option.some.injEq, forall_eq']
      omega

/-- The record answers for all of the times. -/
theorem Records.blocks_eq_false (records : Records last times clock) (later : clock ≤ now) :
    blocks last now = false ↔ ∀ t, times t → t + throttle ≤ now := by
  rw [Typing.blocks_eq_false]
  constructor
  · intro free t held
    by_cases old : t + throttle ≤ clock
    · omega
    · rcases records.latest t held (by omega) with ⟨kept, recorded, le⟩
      have passed := free kept recorded
      omega
  · intro free t recorded
    exact free t (records.real t recorded)

theorem Records.mono (records : Records last times clock) (later : clock ≤ now) :
    Records last times now where
  real := records.real
  latest t held recent := records.latest t held (by omega)

theorem Records.congr {times' : Nat → Prop} (records : Records last times clock)
    (same : ∀ t, times' t ↔ times t) : Records last times' clock where
  real t recorded := (same t).mpr (records.real t recorded)
  latest t held recent := records.latest t ((same t).mp held) recent

/-- The newest time takes the place of the record. -/
theorem Records.renew {times' : Nat → Prop} (same : ∀ t, times' t ↔ t = now ∨ times t)
    (past : ∀ t, times t → t ≤ now) : Records (some now) times' clock where
  real t recorded := (same t).mpr (Or.inl (Option.some.inj recorded).symm)
  latest t held _ := by
    refine ⟨now, rfl, ?_⟩
    rcases (same t).mp held with rfl | held
    · exact Nat.le_refl t
    · exact past t held

/-- A record that blocks nothing any more may go. -/
theorem Records.forget (records : Records last times clock) (later : clock ≤ now)
    (free : Typing.blocks last now = false) : Records none times now where
  real t recorded := by cases recorded
  latest t held recent := by
    have passed := (records.blocks_eq_false later).mp free t held
    omega

end Records

/-! ### What a call does -/

namespace TypingSender

variable (sender : TypingSender) (now : Nat)

theorem nextState_eq_some {bufferId : Str} {state : TypingState}
    (next : sender.nextState bufferId now = some state) :
    needed (sender.desired bufferId now) (sender.sent bufferId) = some state ∧
      blocks (sender.lastSent bufferId) now = false ∧
      blocks (sender.lastMessage.get? bufferId) now = false := by
  simp only [nextState, throttled, suppressedByMessage] at next
  cases wanted : needed (sender.desired bufferId now) (sender.sent bufferId) with
  | none =>
      rw [wanted] at next
      cases next
  | some needs =>
      rw [wanted] at next
      cases throttles : blocks (sender.lastSent bufferId) now <;>
        cases suppresses : blocks (sender.lastMessage.get? bufferId) now <;>
        simp_all

theorem nextState_of_free {bufferId : Str} {state : TypingState}
    (wanted : needed (sender.desired bufferId now) (sender.sent bufferId) = some state)
    (unthrottled : blocks (sender.lastSent bufferId) now = false)
    (unsuppressed : blocks (sender.lastMessage.get? bufferId) now = false) :
    sender.nextState bufferId now = some state := by
  simp [nextState, throttled, suppressedByMessage, wanted, unthrottled, unsuppressed]

theorem mem_propose (ids : List Str) (proposal : Str × TypingState) :
    proposal ∈ sender.propose ids now ↔
      proposal.1 ∈ ids ∧ sender.nextState proposal.1 now = some proposal.2 := by
  rcases proposal with ⟨target, state⟩
  simp [propose, List.mem_filterMap]

theorem propose_distinct {ids : List Str} (distinct : ids.Nodup) :
    ((sender.propose ids now).map Prod.fst).Nodup := by
  induction ids with
  | nil => simp [propose]
  | cons bufferId rest ih =>
      rw [List.nodup_cons] at distinct
      have later := ih distinct.2
      cases next : sender.nextState bufferId now with
      | none => simpa [propose, next] using later
      | some state =>
          have split : sender.propose (bufferId :: rest) now =
              (bufferId, state) :: sender.propose rest now := by
            simp [propose, next]
          rw [split, List.map_cons, List.nodup_cons]
          refine ⟨?_, later⟩
          intro again
          rcases List.mem_map.mp again with ⟨proposal, member, same⟩
          have listed := ((mem_propose sender now rest proposal).mp member).1
          rw [same] at listed
          exact distinct.1 listed

theorem tickIds_spec : sender.tickIds.Nodup ∧ ∀ bufferId state,
    sender.targets.get? bufferId = some state → bufferId ∈ sender.tickIds := by
  have fold : ∀ (sources : List (TypingSource × SourceState)) (ids : List Str), ids.Nodup →
      (sources.foldl (fun ids source =>
        if source.2.bufferId ∈ ids then ids else ids ++ [source.2.bufferId]) ids).Nodup ∧
      ∀ id ∈ ids, id ∈ sources.foldl (fun ids source =>
        if source.2.bufferId ∈ ids then ids else ids ++ [source.2.bufferId]) ids := by
    intro sources
    induction sources with
    | nil => exact fun ids distinct => ⟨distinct, fun _ member => member⟩
    | cons source rest ih =>
        intro ids distinct
        rw [List.foldl_cons]
        split
        · exact ih ids distinct
        · rename_i fresh
          have more := ih (ids ++ [source.2.bufferId])
            (List.nodup_append.mpr ⟨distinct, by simp, by
              intro id member other last same
              rw [List.mem_singleton] at last
              exact fresh (last ▸ same ▸ member)⟩)
          exact ⟨more.1, fun id member => more.2 id (List.mem_append_left _ member)⟩
  have keys := fold sender.sources.rows (sender.targets.rows.map Prod.fst) sender.targets.unique
  refine ⟨keys.1, ?_⟩
  intro bufferId state held
  apply keys.2
  exact List.mem_map.mpr ⟨(bufferId, state), (Map.get?_eq_some _ _ _).mp held, rfl⟩

theorem sent_prune (bufferId : Str) : (sender.prune now).sent bufferId = sender.sent bufferId := by
  simp only [sent, prune, Map.get?_retain]
  cases sender.targets.get? bufferId with
  | none => rfl
  | some target => cases kept : target.sent <;> simp [Option.filter, kept]

theorem lastSent_prune (bufferId : Str) :
    (sender.prune now).lastSent bufferId = sender.lastSent bufferId ∨
      (sender.prune now).lastSent bufferId = none ∧
        blocks (sender.lastSent bufferId) now = false := by
  simp only [lastSent, prune, Map.get?_retain]
  cases sender.targets.get? bufferId with
  | none => exact Or.inl rfl
  | some target =>
      simp only [Option.filter]
      split
      · exact Or.inl rfl
      · rename_i dropped
        simp only [Bool.or_eq_true, not_or, Bool.not_eq_true] at dropped
        exact Or.inr ⟨rfl, dropped.2⟩

theorem lastMessage_prune (bufferId : Str) :
    (sender.prune now).lastMessage.get? bufferId = sender.lastMessage.get? bufferId ∨
      (sender.prune now).lastMessage.get? bufferId = none ∧
        blocks (sender.lastMessage.get? bufferId) now = false := by
  simp only [prune, Map.get?_retain]
  cases sender.lastMessage.get? bufferId with
  | none => exact Or.inl rfl
  | some t =>
      simp only [Option.filter]
      split
      · exact Or.inl rfl
      · rename_i dropped
        exact Or.inr ⟨rfl, by simpa [blocks] using dropped⟩

/-- A call proposes what the targets `ids` need once its own effect is in, and may prune then. -/
structure Stages (call : Call) (stage : TypingSender) (ids : List Str) : Prop where
  due : (sender.call now call).2 = stage.propose ids now
  after : (sender.call now call).1 = stage ∨ (sender.call now call).1 = stage.prune now
  distinct : ids.Nodup
  sent : ∀ b, stage.sent b = if call.spokenTo = some b then none else sender.sent b
  lastSent : ∀ b, stage.lastSent b = sender.lastSent b
  lastMessage : ∀ b, stage.lastMessage.get? b =
    if call.spokenTo = some b then some now else sender.lastMessage.get? b
  tick : call = .onTick → stage = sender ∧ ids = sender.tickIds

theorem retired_sent (bufferId b : Str) :
    (sender.onMessageSent bufferId now).1.sent b =
      if some bufferId = some b then none else sender.sent b := by
  simp only [onMessageSent, sent, Map.get?_adjust, Option.some.injEq]
  by_cases here : bufferId = b
  · subst here
    cases sender.targets.get? bufferId <;> simp
  · simp [here, Ne.symm here]

theorem retired_lastSent (bufferId b : Str) :
    (sender.onMessageSent bufferId now).1.lastSent b = sender.lastSent b := by
  simp only [onMessageSent, lastSent, Map.get?_adjust]
  split <;> cases sender.targets.get? b <;> rfl

theorem stages_onMessageSent (bufferId : Str) :
    Stages sender now (.onMessageSent bufferId) (sender.onMessageSent bufferId now).1
      [bufferId] where
  due := rfl
  after := Or.inl rfl
  distinct := by simp
  sent := retired_sent sender now bufferId
  lastSent := retired_lastSent sender now bufferId
  lastMessage b := by
    simp only [onMessageSent, Map.get?_insert, Call.spokenTo, Option.some.injEq]
  tick absurd := by cases absurd

/-- Every call is such a one. -/
theorem stages (call : Call) : ∃ stage ids, Stages sender now call stage ids := by
  cases call with
  | onActivity source bufferId active =>
      let moved := { sender with sources := sender.sources.insert source ⟨bufferId, active, now⟩ }
      let released := ((sender.sources.get? source).map SourceState.bufferId).filter
        fun previous => decide (previous ≠ bufferId)
      refine ⟨moved, bufferId :: released.toList, rfl, Or.inl rfl, ?_, fun _ => rfl, fun _ => rfl,
        fun _ => rfl, fun absurd => by cases absurd⟩
      cases eq : released with
      | none => simp
      | some previous =>
          have differs := (Option.filter_eq_some_iff.mp eq).2
          simp only [decide_eq_true_eq] at differs
          simp [Ne.symm differs]
  | onSubmit source bufferId sentMessage =>
      let quiet := { sender with sources := sender.sources.adjust source fun state =>
        { state with active := false, lastActivity := now } }
      cases sentMessage with
      | true =>
          have spoken := stages_onMessageSent quiet now bufferId
          exact ⟨(quiet.onMessageSent bufferId now).1, [bufferId], spoken.due, Or.inl rfl,
            spoken.distinct, spoken.sent, spoken.lastSent, spoken.lastMessage,
            fun absurd => by cases absurd⟩
      | false =>
          exact ⟨quiet, [bufferId], rfl, Or.inl rfl, by simp, fun _ => rfl, fun _ => rfl,
            fun _ => rfl, fun absurd => by cases absurd⟩
  | onMessageSent bufferId => exact ⟨_, _, stages_onMessageSent sender now bufferId⟩
  | removeSource source =>
      cases found : sender.sources.get? source with
      | none =>
          refine ⟨sender, [], ?_, Or.inl ?_, by simp, fun _ => rfl, fun _ => rfl, fun _ => rfl,
            fun absurd => by cases absurd⟩
          · simp [call, removeSource, found, propose]
          · simp [call, removeSource, found]
      | some previous =>
          refine ⟨{ sender with sources := sender.sources.erase source }, [previous.bufferId], ?_,
            Or.inl ?_, by simp, fun _ => rfl, fun _ => rfl, fun _ => rfl,
            fun absurd => by cases absurd⟩
          · simp [call, removeSource, found]
          · simp [call, removeSource, found]
  | onTick =>
      exact ⟨sender, sender.tickIds, rfl, Or.inr rfl, (tickIds_spec sender).1, fun _ => rfl,
        fun _ => rfl, fun _ => rfl, fun _ => ⟨rfl, rfl⟩⟩

end TypingSender

/-! ### What holds along a run -/

section Hearing

variable (heard : List WireEvent) (b : Str) (t : Nat) (e : WireEvent)

theorem shown_cons :
    shown (e :: heard) b = if e.target = b then e.said.shows else shown heard b := by
  by_cases here : e.target = b <;> simp [shown, here]

theorem notedAt_cons : NotedAt (e :: heard) b t ↔
    (e.target = b ∧ e.said ≠ .message ∧ t = e.time) ∨ NotedAt heard b t := by
  rcases e with ⟨time, target, said⟩
  simp only [NotedAt, List.mem_cons, WireEvent.mk.injEq, exists_or]
  apply or_congr _ Iff.rfl
  cases said with
  | note state =>
      constructor
      · rintro ⟨_, rfl, rfl, -⟩
        exact ⟨rfl, by simp, rfl⟩
      · rintro ⟨rfl, -, rfl⟩
        exact ⟨state, rfl, rfl, rfl⟩
  | message => simp

theorem spokenAt_cons : SpokenAt (e :: heard) b t ↔
    (e.target = b ∧ e.said = .message ∧ t = e.time) ∨ SpokenAt heard b t := by
  rcases e with ⟨time, target, said⟩
  simp only [SpokenAt, List.mem_cons, WireEvent.mk.injEq]
  apply or_congr _ Iff.rfl
  constructor
  · rintro ⟨rfl, rfl, rfl⟩
    exact ⟨rfl, rfl, rfl⟩
  · rintro ⟨rfl, rfl, rfl⟩
    exact ⟨rfl, rfl, rfl⟩

theorem shows_note (state : TypingState) :
    (Said.note state).shows = if state = .done then none else some state := by
  cases state <;> rfl

end Hearing

/-- What the sender remembers is what peers received, as far as it still matters. -/
structure Faithful (m : Machine) : Prop where
  sent : ∀ b, m.sender.sent b = shown m.heard b
  noted : ∀ b, Records (m.sender.lastSent b) (NotedAt m.heard b) m.clock
  spoken : ∀ b, Records (m.sender.lastMessage.get? b) (SpokenAt m.heard b) m.clock
  past : ∀ e ∈ m.heard, e.time ≤ m.clock
  spaced : m.heard.Pairwise Spaced

theorem faithful_new : Faithful Machine.new where
  sent _ := rfl
  noted _ := ⟨fun _ recorded => (by cases recorded), by simp [NotedAt, Machine.new]⟩
  spoken _ := ⟨fun _ recorded => (by cases recorded), by simp [SpokenAt, Machine.new]⟩
  past _ member := by cases member
  spaced := List.Pairwise.nil

theorem heardBy_eq (m : Machine) (op : Op) :
    (op.call.spokenTo = none ∧ m.heardBy op = m.heard) ∨
      ∃ target, op.call.spokenTo = some target ∧
        m.heardBy op = ⟨op.now, target, .message⟩ :: m.heard := by
  cases spoken : op.call.spokenTo with
  | none => exact Or.inl ⟨rfl, by simp [Machine.heardBy, spoken]⟩
  | some target => exact Or.inr ⟨target, rfl, by simp [Machine.heardBy, spoken]⟩

section Step

variable {m : Machine} {op : Op} {stage : TypingSender} {ids : List Str}

/-- The memory of the sender when the call makes its proposals. -/
theorem Faithful.staged (faithful : Faithful m) (ordered : m.clock ≤ op.now)
    (stages : m.sender.Stages op.now op.call stage ids) :
    Faithful ⟨stage, m.heardBy op, op.now⟩ := by
  have past : ∀ e ∈ m.heard, e.time ≤ op.now :=
    fun e member => (faithful.past e member).trans ordered
  rcases heardBy_eq m op with ⟨silent, same⟩ | ⟨target, spoken, more⟩
  · rw [same]
    refine ⟨?_, ?_, ?_, past, faithful.spaced⟩
    · intro b
      rw [stages.sent, silent, if_neg (by simp)]
      exact faithful.sent b
    · intro b
      rw [stages.lastSent]
      exact (faithful.noted b).mono ordered
    · intro b
      rw [stages.lastMessage, silent, if_neg (by simp)]
      exact (faithful.spoken b).mono ordered
  · rw [more]
    refine ⟨?_, ?_, ?_, ?_, List.Pairwise.cons ?_ faithful.spaced⟩
    · intro b
      simp only [stages.sent, spoken, shown_cons, Option.some.injEq]
      split
      · rfl
      · exact faithful.sent b
    · intro b
      rw [stages.lastSent]
      apply ((faithful.noted b).mono ordered).congr
      intro t
      simp [notedAt_cons]
    · intro b
      simp only [stages.lastMessage, spoken, Option.some.injEq]
      split
      · rename_i here
        have before : ∀ t, SpokenAt m.heard b t → t ≤ op.now :=
          fun t held => past ⟨t, b, .message⟩ held
        refine Records.renew ?_ before
        intro t
        simp [spokenAt_cons, here]
      · rename_i elsewhere
        apply ((faithful.spoken b).mono ordered).congr
        intro t
        simp [spokenAt_cons, elsewhere]
    · intro e member
      rcases List.mem_cons.mp member with rfl | member
      · exact Nat.le_refl _
      · exact past e member
    · intro earlier _ _ message _
      exact absurd rfl message

theorem Faithful.prune (faithful : Faithful m) :
    Faithful { m with sender := m.sender.prune m.clock } where
  sent b := (TypingSender.sent_prune m.sender m.clock b).trans (faithful.sent b)
  noted b := by
    rcases m.sender.lastSent_prune m.clock b with same | ⟨gone, free⟩
    · exact same.symm ▸ faithful.noted b
    · exact gone.symm ▸ (faithful.noted b).forget (Nat.le_refl _) free
  spoken b := by
    rcases m.sender.lastMessage_prune m.clock b with same | ⟨gone, free⟩
    · exact same.symm ▸ faithful.spoken b
    · exact gone.symm ▸ (faithful.spoken b).forget (Nat.le_refl _) free
  past := faithful.past
  spaced := faithful.spaced

theorem Faithful.wait (faithful : Faithful m) {clock : Nat} (later : m.clock ≤ clock) :
    Faithful { m with clock := clock } where
  sent := faithful.sent
  noted b := (faithful.noted b).mono later
  spoken b := (faithful.spoken b).mono later
  past e member := (faithful.past e member).trans later
  spaced := faithful.spaced

theorem Faithful.called (faithful : Faithful m) (ordered : InOrder m op) :
    Faithful (m.called op) := by
  rcases m.sender.stages op.now op.call with ⟨stage, ids, stages⟩
  have heeded := faithful.staged ordered.1 stages
  rcases stages.after with same | pruned
  · simp only [Machine.called, same]
    exact heeded.wait ordered.2
  · simp only [Machine.called, pruned]
    exact heeded.prune.wait ordered.2

/-- A notification that keeps its distance from the earlier ones of its target. -/
theorem Faithful.confirm (faithful : Faithful m) (proposal : Str × TypingState)
    (apart : ∀ t, NotedAt m.heard proposal.1 t → t + throttle ≤ m.clock) :
    Faithful (m.confirm proposal) := by
  rcases proposal with ⟨target, state⟩
  refine ⟨?_, ?_, ?_, ?_, List.Pairwise.cons ?_ faithful.spaced⟩
  · intro b
    simp only [Machine.confirm, TypingSender.confirmSent, TypingSender.sent, Map.get?_insert,
      shown_cons, shows_note]
    split
    · rfl
    · exact faithful.sent b
  · intro b
    simp only [Machine.confirm, TypingSender.confirmSent, TypingSender.lastSent, Map.get?_insert]
    by_cases here : target = b
    · rw [if_pos here]
      have past : ∀ t, NotedAt m.heard b t → t ≤ m.clock := by
        intro t held
        rcases held with ⟨_, member⟩
        exact faithful.past _ member
      refine Records.renew ?_ past
      intro t
      simp [notedAt_cons, here]
    · rw [if_neg here]
      apply (faithful.noted b).congr
      intro t
      simp [notedAt_cons, here]
  · intro b
    apply (faithful.spoken b).congr
    intro t
    simp [Machine.confirm, spokenAt_cons]
  · intro e member
    rcases List.mem_cons.mp member with rfl | member
    · exact Nat.le_refl _
    · exact faithful.past e member
  · intro earlier member same _ note
    rcases earlier with ⟨time, earlierTarget, said⟩
    cases said with
    | note earlierState =>
        have here : target = earlierTarget := same
        rw [← here] at member
        exact apart time ⟨earlierState, member⟩
    | message => exact absurd rfl note

/-- The confirmed proposals of one call name different targets, so none comes too close. -/
theorem Faithful.confirmAll (proposals : List (Str × TypingState)) (m : Machine)
    (faithful : Faithful m) (distinct : (proposals.map Prod.fst).Nodup)
    (apart : ∀ proposal ∈ proposals, ∀ t, NotedAt m.heard proposal.1 t → t + throttle ≤ m.clock) :
    Faithful (proposals.foldl Machine.confirm m) := by
  induction proposals generalizing m with
  | nil => exact faithful
  | cons proposal rest ih =>
      rw [List.map_cons, List.nodup_cons] at distinct
      apply ih (m.confirm proposal)
      · exact faithful.confirm proposal (apart proposal (by simp))
      · exact distinct.2
      · intro other member t held
        rcases (notedAt_cons _ _ _ _).mp held with ⟨same, -, -⟩ | held
        · exact absurd (List.mem_map.mpr ⟨other, member, same.symm⟩) distinct.1
        · exact apart other (by simp [member]) t held

theorem due_distinct (m : Machine) (op : Op) : ((m.due op).map Prod.fst).Nodup := by
  rcases m.sender.stages op.now op.call with ⟨stage, ids, stages⟩
  rw [Machine.due, stages.due]
  exact stage.propose_distinct op.now stages.distinct

/-- A proposal keeps its distance from the notifications and messages before it, and retracts
only what is shown. -/
theorem Faithful.proposal (faithful : Faithful m) (ordered : m.clock ≤ op.now)
    (proposal : Str × TypingState) (member : proposal ∈ m.due op) :
    (∀ t, NotedAt (m.heardBy op) proposal.1 t → t + throttle ≤ op.now) ∧
      (∀ t, SpokenAt (m.heardBy op) proposal.1 t → t + throttle ≤ op.now) ∧
      (proposal.2 = .done → (shown (m.heardBy op) proposal.1).isSome = true) := by
  rcases m.sender.stages op.now op.call with ⟨stage, ids, stages⟩
  have heeded := faithful.staged ordered stages
  rw [Machine.due, stages.due, stage.mem_propose] at member
  have next := stage.nextState_eq_some op.now member.2
  refine ⟨((heeded.noted proposal.1).blocks_eq_false (Nat.le_refl _)).mp next.2.1,
    ((heeded.spoken proposal.1).blocks_eq_false (Nat.le_refl _)).mp next.2.2, ?_⟩
  intro done
  rw [← show stage.sent proposal.1 = shown (m.heardBy op) proposal.1 from heeded.sent proposal.1]
  have wanted := next.1
  rw [done] at wanted
  cases sent : stage.sent proposal.1 with
  | some _ => rfl
  | none =>
      rw [sent] at wanted
      simp only [TypingSender.desired] at wanted
      split at wanted
      · split at wanted <;> cases wanted
      · cases wanted

theorem Faithful.exec (faithful : Faithful m) (ordered : InOrder m op) :
    Faithful (m.exec op) := by
  apply Faithful.confirmAll
  · exact faithful.called ordered
  · exact (due_distinct m op).sublist (List.filter_sublist.map Prod.fst)
  · intro proposal member t held
    have apart := (faithful.proposal ordered.1 proposal (List.mem_filter.mp member).1).1 t held
    exact apart.trans ordered.2

end Step

/-- What the typing specification asks of one call. -/
structure Keeps (m : Machine) (op : Op) : Prop where
  /-- A message announces us well enough for a while. -/
  unsuppressed : ∀ proposal ∈ m.due op, ∀ t, SpokenAt (m.heardBy op) proposal.1 t →
    t + throttle ≤ op.now
  /-- Nothing is retracted that peers do not show. -/
  owed : ∀ target, (target, .done) ∈ m.due op → (shown (m.heardBy op) target).isSome = true
  /-- A tick retracts what no source stands for, once both windows have passed. -/
  retracted : op.call = .onTick → ∀ target, (shown m.heard target).isSome = true →
    (∀ source state, m.sender.sources.get? source = some state → state.bufferId = target →
      state.active = false) →
    (∀ t, NotedAt m.heard target t ∨ SpokenAt m.heard target t → t + throttle ≤ op.now) →
    (target, .done) ∈ m.due op

theorem desired_eq_none (sender : TypingSender) (target : Str) (now : Nat)
    (idle : ∀ source state, sender.sources.get? source = some state → state.bufferId = target →
      state.active = false) : sender.desired target now = none := by
  apply if_neg
  intro typing
  rcases List.any_eq_true.mp typing with ⟨⟨source, state⟩, member, types⟩
  simp only [TypingSender.typesInto, Bool.and_eq_true, decide_eq_true_eq] at types
  have stopped := idle source state ((Map.get?_eq_some _ _ _).mpr member) types.1
  rw [stopped] at types
  cases types.2

theorem Faithful.retracts {m : Machine} (faithful : Faithful m) (now : Nat) (later : m.clock ≤ now)
    (target : Str) (seen : (shown m.heard target).isSome = true)
    (idle : ∀ source state, m.sender.sources.get? source = some state → state.bufferId = target →
      state.active = false)
    (passed : ∀ t, NotedAt m.heard target t ∨ SpokenAt m.heard target t → t + throttle ≤ now) :
    (target, .done) ∈ m.sender.propose m.sender.tickIds now := by
  rw [← faithful.sent] at seen
  rw [TypingSender.mem_propose]
  constructor
  · cases held : m.sender.targets.get? target with
    | none => simp [TypingSender.sent, held] at seen
    | some state => exact m.sender.tickIds_spec.2 target state held
  · apply TypingSender.nextState_of_free
    · rw [desired_eq_none m.sender target now idle]
      cases sent : m.sender.sent target with
      | none => simp [sent] at seen
      | some _ => rfl
    · exact ((faithful.noted target).blocks_eq_false later).mpr fun t held => passed t (Or.inl held)
    · exact ((faithful.spoken target).blocks_eq_false later).mpr fun t held =>
        passed t (Or.inr held)

/-- Any number of sources, any subset of the proposals sent: notifications of one target keep
their distance, and every call keeps the specification. -/
theorem typing_keeps_the_specification (ops : List Op) (op : Op)
    (ordered : Along InOrder Machine.exec Machine.new (ops ++ [op])) :
    (Machine.run (ops ++ [op])).heard.Pairwise Spaced ∧ Keeps (Machine.run ops) op := by
  have along := (along_append Machine.new ops [op]).mp ordered
  have faithful : Faithful (Machine.run ops) :=
    along.1.invariant (fun m op held inOrder => held.exec inOrder) faithful_new
  have inOrder : InOrder (Machine.run ops) op := along.2.1
  have last : Machine.run (ops ++ [op]) = (Machine.run ops).exec op := runFrom_append _ _ _
  constructor
  · rw [last]
    exact (faithful.exec inOrder).spaced
  · constructor
    · intro proposal member
      exact (faithful.proposal inOrder.1 proposal member).2.1
    · intro target member
      exact (faithful.proposal inOrder.1 (target, .done) member).2.2 rfl
    · intro tick target seen idle passed
      rw [Machine.due, tick]
      exact faithful.retracts op.now inOrder.1 target seen idle passed

/-- A draft that is started, sent on the wire and then abandoned. -/
def abandoned : List Op :=
  [⟨0, .onActivity .tui "#a".toList true, 0, fun _ => true⟩,
   ⟨1000000000, .removeSource .tui, 1000000000, fun _ => false⟩]

def laterTick : Op := ⟨4000000000, .onTick, 4000000000, fun _ => true⟩

theorem an_abandoned_draft_is_retracted :
    ((Machine.run (abandoned ++ [laterTick])).heard.Pairwise Spaced ∧
      Keeps (Machine.run abandoned) laterTick) ∧
      (Machine.run abandoned).due laterTick = [("#a".toList, .done)] :=
  ⟨typing_keeps_the_specification abandoned laterTick (by decide), by decide⟩

end Repartee.Typing
