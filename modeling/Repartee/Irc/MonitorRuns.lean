import Repartee.Irc.MonitorLink

/-!
Runs of the client's MONITOR against the server: what is under way between the two in any reachable
state. Whenever the client thinks itself synchronized it is.
-/

namespace Repartee.Monitor

open Repartee.Lib
open Repartee.Text
open Repartee.State (casefold)

section Client

variable {m : MonitorState}

/-- Every table is keyed by the mapping in force. -/
structure Proper (m : MonitorState) : Prop where
  wanted : ∀ names, m.wanted = some names → Keyed m.mapping names
  confirmed : ∀ names, m.confirmed = some names → Keyed m.mapping names
  snapshot : ∀ snapshot, m.snapshot = some snapshot → Keyed m.mapping snapshot.names
  pending : ∀ change ∈ m.pendingChanges, ∀ name ∈ change.names, invalidTarget name = false

theorem proper_new (mapping : Str) : Proper (.new mapping) where
  wanted := by
    intro names held
    cases held
  confirmed := by
    intro names held
    cases held
  snapshot := by
    intro snapshot held
    cases held
  pending := by
    intro change member
    cases member

theorem Proper.resetTransport (proper : Proper m) : Proper m.resetTransport where
  wanted := proper.wanted
  confirmed := by
    intro names held
    cases held
  snapshot := by
    intro snapshot held
    cases held
  pending := proper.pending

theorem Proper.setSupported (proper : Proper m) (supported : Bool) :
    Proper (m.setSupported supported) := by
  unfold MonitorState.setSupported
  split
  · exact proper
  · constructor
    · exact proper.wanted
    · intro names held
      cases held
    · intro snapshot held
      cases held
    · exact proper.pending

theorem Proper.setMapping (proper : Proper m) (mapping : Str) : Proper (m.setMapping mapping) := by
  unfold MonitorState.setMapping
  split
  · exact proper
  · constructor
    · intro names held
      rcases Option.map_eq_some_iff.mp held with ⟨before, some_, rfl⟩
      exact (proper.wanted before some_).refold mapping
    · intro names held
      rcases Option.map_eq_some_iff.mp held with ⟨before, some_, rfl⟩
      exact (proper.confirmed before some_).refold mapping
    · intro snapshot held
      rcases Option.map_eq_some_iff.mp held with ⟨before, some_, rfl⟩
      exact (proper.snapshot before some_).refold mapping
    · exact proper.pending

theorem Proper.change (proper : Proper m) {change : Change} {after : MonitorState}
    (valid : ∀ name ∈ change.names, invalidTarget name = false)
    (changed : m.change change = .ok after) : Proper after := by
  unfold MonitorState.change at changed
  split at changed
  · next wanted some_ =>
      cases applied : apply wanted m.mapping change with
      | error text => simp [applied, Except.map] at changed
      | ok updated =>
          simp only [applied, Except.map, Except.ok.injEq] at changed
          rw [← changed]
          constructor
          · intro names held
            cases held
            exact (proper.wanted wanted some_).apply valid applied
          · exact proper.confirmed
          · exact proper.snapshot
          · exact proper.pending
  · split at changed
    · cases changed
    · cases changed
      constructor
      · exact proper.wanted
      · exact proper.confirmed
      · exact proper.snapshot
      · intro other member
        rcases List.mem_append.mp member with before | new_
        · exact proper.pending other before
        · rw [List.mem_singleton.mp new_]
          exact valid

theorem Proper.sent (proper : Proper m) (command : Command) (now : Nat) (success : Bool) :
    Proper (m.sent command now success) := by
  rcases command with ⟨operation, names⟩
  cases success with
  | false => exact ⟨proper.wanted, proper.confirmed, proper.snapshot, proper.pending⟩
  | true =>
      cases operation with
      | plus => exact ⟨proper.wanted, fun _ held => (by cases held), proper.snapshot, proper.pending⟩
      | minus => exact ⟨proper.wanted, fun _ held => (by cases held), proper.snapshot, proper.pending⟩
      | list =>
          constructor
          · exact proper.wanted
          · exact proper.confirmed
          · intro snapshot held
            cases held
            exact keyed_empty
          · exact proper.pending
      | status => exact ⟨proper.wanted, proper.confirmed, proper.snapshot, proper.pending⟩

theorem Proper.expire (proper : Proper m) (now : Nat) : Proper (m.expire now) where
  wanted := proper.wanted
  confirmed := proper.confirmed
  snapshot := by
    intro snapshot held
    rcases Option.map_eq_some_iff.mp held with ⟨before, some_, rfl⟩
    have keyed := proper.snapshot before some_
    split
    · exact keyed
    · exact keyed
  pending := proper.pending

theorem targets_valid {input names : List Str} (read : targets input = .ok names) :
    ∀ name ∈ names, invalidTarget name = false := by
  simp only [targets] at read
  split at read
  · cases read
  · next fine =>
      cases read
      intro name member
      by_contra bad
      apply fine
      rw [Bool.or_eq_true]
      right
      exact List.any_eq_true.mpr ⟨name, member, by simpa using bad⟩

theorem readLine_keyed {mapping : Str} {snapshot : Snapshot} {names : List Str}
    (keyed : Keyed mapping snapshot.names) (valid : ∀ name ∈ names, invalidTarget name = false) :
    Keyed mapping (readLine mapping snapshot names).names := by
  induction names generalizing snapshot with
  | nil => exact keyed
  | cons name rest ih =>
      rw [readLine]
      split
      · exact keyed
      · apply ih (keyed.insert (valid name List.mem_cons_self))
        exact fun other member => valid other (List.mem_cons_of_mem _ member)

/-- A line that is read to its end adds its names. -/
theorem readLine_keys {mapping : Str} {snapshot : Snapshot} {names : List Str}
    (whole : (readLine mapping snapshot names).valid = true) :
    snapshot.valid = true ∧
      (readLine mapping snapshot names).names.keys = snapshot.names.keys ∪ keysOf mapping names := by
  induction names generalizing snapshot with
  | nil => exact ⟨whole, by simp [readLine, keysOf]⟩
  | cons name rest ih =>
      rw [readLine] at whole ⊢
      split at whole
      · cases whole
      · next fits =>
          rw [if_neg fits]
          rcases ih whole with ⟨valid, keys⟩
          refine ⟨valid, ?_⟩
          rw [keys, Map.insert, Table.keys_replace, keysOf_cons, Finset.insert_union,
            Finset.union_insert]

theorem readLine_expired (mapping : Str) (snapshot : Snapshot) (names : List Str) :
    (readLine mapping snapshot names).expired = snapshot.expired := by
  induction names generalizing snapshot with
  | nil => rfl
  | cons name rest ih =>
      rw [readLine]
      split
      · rfl
      · exact ih _

theorem Proper.receiveLine (proper : Proper m) (args : List Str) : Proper (m.receiveLine args) where
  wanted := proper.wanted
  confirmed := proper.confirmed
  snapshot := by
    intro snapshot held
    rcases Option.map_eq_some_iff.mp held with ⟨before, some_, rfl⟩
    have keyed := proper.snapshot before some_
    split
    · exact keyed
    · split
      · next names read =>
          rcases Option.map_eq_some_iff.mp read with ⟨text, _, parsed⟩
          exact readLine_keyed keyed (targets_valid parsed)
      · exact keyed
  pending := proper.pending

theorem applyPending_keyed {mapping : Str} {names : Names} {changes : List Change}
    (keyed : Keyed mapping names)
    (valid : ∀ change ∈ changes, ∀ name ∈ change.names, invalidTarget name = false) :
    Keyed mapping (applyPending mapping names changes) := by
  induction changes generalizing names with
  | nil => exact keyed
  | cons change rest ih =>
      have later := fun other member => valid other (List.mem_cons_of_mem change member)
      rw [applyPending, List.foldl_cons]
      cases applied : apply names mapping change with
      | error text => exact ih keyed later
      | ok updated => exact ih (keyed.apply (valid change List.mem_cons_self) applied) later

theorem Proper.adopt (proper : Proper m) {names : Names} (keyed : Keyed m.mapping names) :
    Proper (m.adopt names) := by
  unfold MonitorState.adopt
  split
  · exact proper
  · constructor
    · intro wanted held
      cases held
      exact applyPending_keyed keyed proper.pending
    · exact proper.confirmed
    · exact proper.snapshot
    · intro change member
      cases member

theorem Proper.verifyChange (proper : Proper m) (names : Names) : Proper (m.verifyChange names) := by
  unfold MonitorState.verifyChange
  split
  · constructor
    · intro wanted held
      rcases Option.map_eq_some_iff.mp held with ⟨before, some_, rfl⟩
      exact (proper.wanted before some_).removeAll _
    · exact proper.confirmed
    · exact proper.snapshot
    · exact proper.pending
  · exact ⟨proper.wanted, proper.confirmed, proper.snapshot, proper.pending⟩
  · exact ⟨proper.wanted, proper.confirmed, proper.snapshot, proper.pending⟩
  · exact proper

@[simp] theorem adopt_mapping (names : Names) : (m.adopt names).mapping = m.mapping := by
  unfold MonitorState.adopt
  split <;> rfl

@[simp] theorem verifyChange_mapping (names : Names) :
    (m.verifyChange names).mapping = m.mapping := by
  unfold MonitorState.verifyChange
  split <;> rfl

@[simp] theorem adopt_snapshot (names : Names) : (m.adopt names).snapshot = m.snapshot := by
  unfold MonitorState.adopt
  split <;> rfl

@[simp] theorem verifyChange_snapshot (names : Names) :
    (m.verifyChange names).snapshot = m.snapshot := by
  unfold MonitorState.verifyChange
  split <;> rfl

@[simp] theorem adopt_supported (names : Names) : (m.adopt names).supported = m.supported := by
  unfold MonitorState.adopt
  split <;> rfl

@[simp] theorem verifyChange_supported (names : Names) :
    (m.verifyChange names).supported = m.supported := by
  unfold MonitorState.verifyChange
  split <;> rfl

theorem verifyChange_submitted (names : Names) : (m.verifyChange names).submitted = none := by
  unfold MonitorState.verifyChange
  split
  · rfl
  · rfl
  · rfl
  · next none_ => exact none_

theorem Proper.receiveEnd (proper : Proper m) : Proper m.receiveEnd := by
  unfold MonitorState.receiveEnd
  split
  · exact proper
  · next snapshot held =>
      split
      · constructor
        · exact proper.wanted
        · intro names some_
          cases some_
        · intro other some_
          cases some_
        · exact proper.pending
      · have keyed := proper.snapshot snapshot held
        have cleared : Proper { m with snapshot := none } :=
          ⟨proper.wanted, proper.confirmed, fun _ some_ => (by cases some_), proper.pending⟩
        have verified := (cleared.adopt keyed).verifyChange snapshot.names
        constructor
        · exact verified.wanted
        · intro names some_
          cases some_
          simpa using keyed
        · exact verified.snapshot
        · exact verified.pending

theorem Proper.receiveFull (proper : Proper m) (args : List Str) : Proper (m.receiveFull args) := by
  unfold MonitorState.receiveFull
  split
  · constructor
    · intro names held
      rcases Option.map_eq_some_iff.mp held with ⟨before, some_, rfl⟩
      exact (proper.wanted before some_).removeAll _
    · exact proper.confirmed
    · exact proper.snapshot
    · exact proper.pending
  · exact proper

/-! ### What the client makes of each answer -/

theorem receive_status (online : Bool) (masks : Str) :
    m.receive (Reply.status online masks).number (Reply.status online masks).args = m := by
  cases online <;> simp [MonitorState.receive, Reply.number]

theorem receive_line (supported : m.supported = true) (names : List Str) :
    m.receive (Reply.line names).number (Reply.line names).args =
      m.receiveLine (Reply.line names).args := by
  simp [MonitorState.receive, Reply.number, supported]

theorem receive_end (supported : m.supported = true) :
    m.receive Reply.endOfList.number Reply.endOfList.args = m.receiveEnd := by
  simp [MonitorState.receive, Reply.number, supported]

theorem receive_full (supported : m.supported = true) (names : List Str) :
    m.receive (Reply.full names).number (Reply.full names).args =
      m.receiveFull (Reply.full names).args := by
  simp [MonitorState.receive, Reply.number, supported]

theorem splitOn_join {names : List Str} (joinable : Joinable names) :
    (joinNames names).splitOn ',' = names :=
  List.splitOn_intercalate ',' joinable.2 joinable.1

theorem receiveFull_eq {names : List Str} (joinable : Joinable names) :
    m.receiveFull (Reply.full names).args =
      { m with wanted := m.wanted.map fun wanted => wanted.removeAll m.mapping names } := by
  have read := splitOn_join joinable
  simp only [MonitorState.receiveFull, Reply.args]
  exact congrArg (fun names : List Str =>
    { m with wanted := m.wanted.map fun wanted : Names => wanted.removeAll m.mapping names }) read

theorem targets_join {names read : List Str} (joinable : Joinable names)
    (parsed : targets [joinNames names] = .ok read) : read = names := by
  simp only [targets, List.flatMap_cons, List.flatMap_nil, List.append_nil,
    splitOn_join joinable] at parsed
  split at parsed
  · cases parsed
  · cases parsed
    rfl

/-- A line is read into the running snapshot, to its end if the snapshot stays valid. -/
theorem receiveLine_snapshot {names : List Str} (joinable : Joinable names) {before : Snapshot}
    (running : m.snapshot = some before) :
    ∃ after, (m.receiveLine (Reply.line names).args).snapshot = some after ∧
      after.expired = before.expired ∧
      (after.expired = false → after.valid = true → before.valid = true ∧
        after.names.keys = before.names.keys ∪ keysOf m.mapping names) := by
  simp only [MonitorState.receiveLine, running, Option.map_some]
  refine ⟨_, rfl, ?_⟩
  split
  · next late =>
      refine ⟨rfl, ?_⟩
      intro live
      rw [late] at live
      cases live
  · split
    · next read parsed =>
        have parsed_ : targets [joinNames names] = .ok read := Option.some.inj parsed
        rw [targets_join joinable parsed_, readLine_expired]
        exact ⟨rfl, fun _ whole => readLine_keys whole⟩
    · refine ⟨rfl, ?_⟩
      intro _ valid
      cases valid

end Client

/-! ### What is under way -/

def Command.isStatus (command : Command) : Bool := command.operation == .status

def Reply.isStatus : Reply → Bool
  | .status _ _ => true
  | .line _ => false
  | .endOfList => false
  | .full _ => false

/-- The commands and answers that matter to the two sets. -/
def World.commands (w : World) : List Command := w.toServer.filter fun command => !command.isStatus

def World.replies (w : World) : List Reply := w.toClient.filter fun reply => !reply.isStatus

def listCommand : Command := ⟨.list, none⟩

section Link

variable (net : Network)

/-- The rejections on their way are of names that the server does not hold. -/
structure Rejected (submitted : Option Change) (held : Finset Str) (fulls : List (List Str)) :
    Prop where
  asked : submitted = none → fulls = []
  absent : ∀ names ∈ fulls, Joinable names ∧ keysOf net.mapping names ∩ held = ∅

/-- The list read so far and the lines on their way make up the server's set. -/
structure Listing (held : Finset Str) (snapshot : Snapshot) (lines : List (List Str)) : Prop where
  joinable : ∀ names ∈ lines, Joinable names
  whole : snapshot.expired = false → snapshot.valid = true →
    snapshot.names.keys ∪ keysOf net.mapping lines.flatten = held

/-- The stages of a round: a change is under way or taken in, and the list that tells what became of
it is not asked for yet, under way, or being answered. -/
inductive Pipe (held : Finset Str) :
    Option Change → Option Snapshot → List Command → List Reply → Prop where
  | told (submitted : Option Change) (fulls : List (List Str))
      (rejected : Rejected net submitted held fulls) :
      Pipe held submitted none [] (fulls.map .full)
  | listing (submitted : Option Change) (fulls : List (List Str)) (snapshot : Snapshot)
      (rejected : Rejected net submitted held fulls) (fresh : snapshot.names.keys = ∅) :
      Pipe held submitted (some snapshot) [listCommand] (fulls.map .full)
  | answered (submitted : Option Change) (fulls lines : List (List Str)) (snapshot : Snapshot)
      (rejected : Rejected net submitted held fulls) (content : Listing net held snapshot lines) :
      Pipe held submitted (some snapshot) [] (fulls.map .full ++ (lines.map .line ++ [.endOfList]))
  | asked (command : Command) (change : Change) (asks : command.asked = some change) :
      Pipe held (some change) none [command] []
  | askedListing (command : Command) (change : Change) (snapshot : Snapshot)
      (asks : command.asked = some change) (fresh : snapshot.names.keys = ∅) :
      Pipe held (some change) (some snapshot) [command, listCommand] []

/-- The connection is up and the client knows its mapping. -/
structure Linked (w : World) : Prop where
  online : w.online = true
  mapping : w.client.mapping = net.mapping
  supported : w.client.supported = true
  pipe : Pipe net w.held w.client.submitted w.client.snapshot w.commands w.replies
  confirmed : ∀ names, w.client.confirmed = some names →
    names.keys = w.held ∧ w.client.submitted = none

/-- Nothing is under way. -/
structure Silent (w : World) : Prop where
  toServer : w.toServer = []
  replies : w.replies = []
  confirmed : w.client.confirmed = none
  submitted : w.client.submitted = none
  snapshot : w.client.snapshot = none

structure Sound (w : World) : Prop where
  proper : Proper w.client
  link : Linked net w ∨ Silent w

variable {net} {w : World}

theorem rejected_nil (submitted : Option Change) (held : Finset Str) :
    Rejected net submitted held [] where
  asked := fun _ => rfl
  absent := by
    intro names member
    cases member

theorem sound_start (mapping : Str) : Sound net (World.start mapping) where
  proper := proper_new mapping
  link := Or.inr ⟨rfl, rfl, rfl, rfl, rfl⟩

/-- Being told again what it knows changes nothing. -/
theorem ensure_linked (linked : Linked net w) : w.ensure net = w := by
  have same : (w.client.setMapping (if w.online then net.mapping else defaultMapping)).setSupported
      w.online = w.client := by
    rw [linked.online, if_pos rfl, MonitorState.setMapping, if_pos linked.mapping,
      MonitorState.setSupported, if_pos linked.supported]
  unfold World.ensure
  rw [same]

theorem setMapping_mapping (m : MonitorState) (mapping : Str) :
    (m.setMapping mapping).mapping = mapping := by
  unfold MonitorState.setMapping
  split
  · next same => exact same
  · rfl

theorem setSupported_mapping (m : MonitorState) (supported : Bool) :
    (m.setSupported supported).mapping = m.mapping := by
  unfold MonitorState.setSupported
  split <;> rfl

theorem setSupported_supported (m : MonitorState) (supported : Bool) :
    (m.setSupported supported).supported = supported := by
  unfold MonitorState.setSupported
  split
  · next same => exact same
  · rfl

theorem ensure_silent (net : Network) (silent : Silent w) : Silent (w.ensure net) := by
  have quiet : ∀ (m : MonitorState) (mapping : Str) (supported : Bool), m.confirmed = none →
      m.submitted = none → m.snapshot = none →
      ((m.setMapping mapping).setSupported supported).confirmed = none ∧
        ((m.setMapping mapping).setSupported supported).submitted = none ∧
        ((m.setMapping mapping).setSupported supported).snapshot = none := by
    intro m mapping supported confirmed submitted snapshot
    unfold MonitorState.setMapping MonitorState.setSupported
    split <;> split <;> simp [confirmed, submitted, snapshot]
  have after := quiet w.client (if w.online then net.mapping else defaultMapping) w.online
    silent.confirmed silent.submitted silent.snapshot
  exact ⟨silent.toServer, silent.replies, after.1, after.2.1, after.2.2⟩

/-- Once the connection is up and the client has been told, the two are linked. -/
theorem linked_of_silent (silent : Silent w) (online : w.online = true) :
    Linked net (w.ensure net) := by
  have after := ensure_silent net silent
  constructor
  · exact online
  · simp [World.ensure, online, setSupported_mapping, setMapping_mapping]
  · simp [World.ensure, online, setSupported_supported]
  · rw [after.submitted, after.snapshot, World.commands, after.toServer, after.replies]
    exact Pipe.told none [] (rejected_nil none _)
  · intro names held
    rw [after.confirmed] at held
    cases held

theorem Sound.ensure (sound : Sound net w) : Sound net (w.ensure net) where
  proper := (sound.proper.setMapping _).setSupported _
  link := by
    rcases sound.link with linked | silent
    · left
      rw [ensure_linked linked]
      exact linked
    · right
      exact ensure_silent net silent

/-- With the connection up the client is linked before each use. -/
theorem Sound.linked (sound : Sound net w) (online : w.online = true) :
    Linked net (w.ensure net) := by
  rcases sound.link with linked | silent
  · rw [ensure_linked linked]
    exact linked
  · exact linked_of_silent silent online

/-! ### One event -/

theorem Sound.edit (sound : Sound net w) {change : Change}
    (valid : ∀ name ∈ change.names, invalidTarget name = false) : Sound net (w.edit change) := by
  unfold World.edit
  cases changed : w.client.change change with
  | error text => exact sound
  | ok after =>
      have kept : after.mapping = w.client.mapping ∧ after.supported = w.client.supported ∧
          after.submitted = w.client.submitted ∧ after.snapshot = w.client.snapshot ∧
          after.confirmed = w.client.confirmed := by
        unfold MonitorState.change at changed
        split at changed
        · next wanted some_ =>
            cases applied : apply wanted w.client.mapping change with
            | error text => simp [applied, Except.map] at changed
            | ok updated =>
                simp only [applied, Except.map, Except.ok.injEq] at changed
                rw [← changed]
                exact ⟨rfl, rfl, rfl, rfl, rfl⟩
        · split at changed
          · cases changed
          · cases changed
            exact ⟨rfl, rfl, rfl, rfl, rfl⟩
      rcases kept with ⟨mapping, supported, submitted, snapshot, confirmed⟩
      constructor
      · exact sound.proper.change valid changed
      · rcases sound.link with linked | silent
        · left
          constructor
          · exact linked.online
          · exact mapping.trans linked.mapping
          · exact supported.trans linked.supported
          · rw [submitted, snapshot]
            exact linked.pipe
          · intro names held
            rw [submitted]
            exact linked.confirmed names (confirmed ▸ held)
        · right
          exact ⟨silent.toServer, silent.replies, confirmed.trans silent.confirmed,
            submitted.trans silent.submitted, snapshot.trans silent.snapshot⟩

theorem Listing.expired {held : Finset Str} {snapshot : Snapshot} {lines : List (List Str)}
    (content : Listing net held snapshot lines) :
    Listing net held { snapshot with expired := true } lines where
  joinable := content.joinable
  whole := by
    intro live
    cases live

theorem Pipe.expire {held : Finset Str} {submitted : Option Change} {snapshot : Option Snapshot}
    {commands : List Command} {replies : List Reply}
    (pipe : Pipe net held submitted snapshot commands replies) (late : Snapshot → Bool) :
    Pipe net held submitted
      (snapshot.map fun snapshot =>
        if late snapshot then { snapshot with expired := true } else snapshot) commands replies := by
  cases pipe with
  | told _ fulls rejected => exact Pipe.told _ fulls rejected
  | listing _ fulls snapshot rejected fresh =>
      rw [Option.map_some]
      split
      · exact Pipe.listing _ fulls _ rejected fresh
      · exact Pipe.listing _ fulls _ rejected fresh
  | answered _ fulls lines snapshot rejected content =>
      rw [Option.map_some]
      split
      · exact Pipe.answered _ fulls lines _ rejected content.expired
      · exact Pipe.answered _ fulls lines _ rejected content
  | asked command change asks => exact Pipe.asked command change asks
  | askedListing command change snapshot asks fresh =>
      rw [Option.map_some]
      split
      · exact Pipe.askedListing command change _ asks fresh
      · exact Pipe.askedListing command change _ asks fresh

theorem Linked.expire (linked : Linked net w) (now : Nat) :
    Linked net { w with client := w.client.expire now } where
  online := linked.online
  mapping := linked.mapping
  supported := linked.supported
  pipe := linked.pipe.expire fun snapshot => !snapshot.expired && 30000 ≤ now - snapshot.started
  confirmed := linked.confirmed

/-- What a tick may send: a change only between the rounds, a list only when none is under way. -/
theorem nextCommand_cases {m : MonitorState} {now : Nat} {command : Command}
    (next : m.nextCommand now = some command) :
    m.snapshot = none ∧
      ((command = listCommand ∨ command = ⟨.status, none⟩) ∧
          (∀ confirmed wanted, m.confirmed = some confirmed → m.wanted = some wanted →
            nextChange confirmed wanted = none) ∨
        ∃ confirmed wanted, m.confirmed = some confirmed ∧ m.wanted = some wanted ∧
          nextChange confirmed wanted = some command) := by
  unfold MonitorState.nextCommand at next
  split at next
  · cases next
  · next free =>
      have none_ : m.snapshot = none := by
        simp only [Bool.or_eq_true, not_or] at free
        simpa using free.1.2
      refine ⟨none_, ?_⟩
      split at next
      · next confirmed wanted held holds =>
          rcases Option.or_eq_some_iff.mp next with found | ⟨nothing, other⟩
          · exact Or.inr ⟨confirmed, wanted, held, holds, found⟩
          · left
            constructor
            · split at other
              · cases other
                exact Or.inl rfl
              · split at other
                · cases other
                  exact Or.inr rfl
                · cases other
            · intro c v sameConfirmed sameWanted
              rw [held] at sameConfirmed
              rw [holds] at sameWanted
              cases sameConfirmed
              cases sameWanted
              exact nothing
      · next unknown =>
          cases next
          left
          refine ⟨Or.inl rfl, ?_⟩
          intro confirmed wanted held holds
          exact absurd holds (unknown confirmed wanted held)

theorem nextChange_asked {confirmed wanted : Names} {command : Command}
    (next : nextChange confirmed wanted = some command) :
    command.operation = .minus ∧ command.names = some (pack [] (lacking confirmed wanted)) ∧
        pack [] (lacking confirmed wanted) ≠ [] ∨
      command.operation = .plus ∧ command.names = some (pack [] (lacking wanted confirmed)) ∧
        pack [] (lacking wanted confirmed) ≠ [] := by
  simp only [nextChange] at next
  split at next
  · next some_ =>
      cases next
      exact Or.inl ⟨rfl, rfl, some_⟩
  · split at next
    · next some_ =>
        cases next
        exact Or.inr ⟨rfl, rfl, some_⟩
    · cases next

theorem commands_sent {w' : World} {command : Command}
    (queue : w'.toServer = w.toServer ++ [command]) :
    w'.commands = w.commands ++ [command].filter fun command => !command.isStatus := by
  unfold World.commands
  rw [queue, List.filter_append]

/-- A list is asked for when none is under way. -/
theorem Pipe.list {held : Finset Str} {submitted : Option Change} {commands : List Command}
    {replies : List Reply} (pipe : Pipe net held submitted none commands replies)
    {snapshot : Snapshot} (fresh : snapshot.names.keys = ∅) :
    Pipe net held submitted (some snapshot) (commands ++ [listCommand]) replies := by
  cases pipe with
  | told _ fulls rejected => exact Pipe.listing _ fulls snapshot rejected fresh
  | asked command change asks => exact Pipe.askedListing command change snapshot asks fresh

/-- A change is asked for when nothing is under way. -/
theorem Pipe.ask {held : Finset Str} {commands : List Command} {replies : List Reply}
    (pipe : Pipe net held none none commands replies) {command : Command} {change : Change}
    (asks : command.asked = some change) :
    Pipe net held (some change) none (commands ++ [command]) replies := by
  cases pipe with
  | told _ fulls rejected =>
      rw [rejected.asked rfl]
      exact Pipe.asked command change asks

/-- One command of a tick. -/
theorem Linked.send (linked : Linked net w) {now : Nat} {command : Command}
    (next : w.client.nextCommand now = some command) :
    Linked net
      { w with
        client := w.client.sent command now true
        toServer := w.toServer ++ [command] } := by
  rcases nextCommand_cases next with ⟨none_, kind⟩
  have pipe := linked.pipe
  rw [none_] at pipe
  have grown : World.commands
      { w with
        client := w.client.sent command now true
        toServer := w.toServer ++ [command] } =
        w.commands ++ [command].filter fun command => !command.isStatus := commands_sent rfl
  rcases kind with ⟨rfl | rfl, _⟩ | ⟨confirmed, wanted, held, holds, change⟩
  · constructor
    · exact linked.online
    · exact linked.mapping
    · exact linked.supported
    · exact grown ▸ pipe.list rfl
    · exact linked.confirmed
  · constructor
    · exact linked.online
    · exact linked.mapping
    · exact linked.supported
    · exact (grown.trans (List.append_nil _)).symm ▸ linked.pipe
    · exact linked.confirmed
  · have submitted := (linked.confirmed confirmed held).2
    rw [submitted] at pipe
    rcases command with ⟨operation, names⟩
    rcases nextChange_asked change with ⟨rfl, _, _⟩ | ⟨rfl, _, _⟩
    · have asks : Command.asked ⟨.minus, names⟩ =
          some (.remove ((names.getD []).splitOn ',')) := rfl
      have after := grown.symm ▸ pipe.ask asks
      constructor
      · exact linked.online
      · exact linked.mapping
      · exact linked.supported
      · exact none_.symm ▸ after
      · intro names held
        cases held
    · have asks : Command.asked ⟨.plus, names⟩ =
          some (.add ((names.getD []).splitOn ',')) := rfl
      have after := grown.symm ▸ pipe.ask asks
      constructor
      · exact linked.online
      · exact linked.mapping
      · exact linked.supported
      · exact none_.symm ▸ after
      · intro names held
        cases held

theorem Linked.failed (linked : Linked net w) (command : Command) (now : Nat) :
    Linked net { w with client := w.client.sent command now false } :=
  ⟨linked.online, linked.mapping, linked.supported, linked.pipe, linked.confirmed⟩

theorem Linked.polls (linked : Linked net w) (proper : Proper w.client) (now : Nat)
    (sends : List Bool) :
    Linked net (World.polls now sends w) ∧ Proper (World.polls now sends w).client := by
  induction sends generalizing w with
  | nil => exact ⟨linked, proper⟩
  | cons ok rest ih =>
      rw [World.polls]
      cases next : w.client.nextCommand now with
      | none => exact ⟨linked, proper⟩
      | some command =>
          cases ok with
          | false => exact ⟨linked.failed command now, proper.sent command now false⟩
          | true => exact ih (linked.send next) (proper.sent command now true)

theorem Sound.tick (sound : Sound net w) (linked : w.online = true → Linked net w) (now : Nat)
    (sends : List Bool) : Sound net (w.tick now sends) := by
  unfold World.tick
  split
  · next online =>
      have after := ((linked online).expire now).polls (sound.proper.expire now) now sends
      exact ⟨after.2, Or.inl after.1⟩
  · constructor
    · exact sound.proper.expire now
    · rcases sound.link with linked | silent
      · exact Or.inl (linked.expire now)
      · right
        exact ⟨silent.toServer, silent.replies, silent.confirmed, silent.submitted,
          by simp [MonitorState.expire, silent.snapshot]⟩

/-- The server takes the next command that matters. -/
theorem Pipe.serve {held : Finset Str} {submitted : Option Change} {snapshot : Option Snapshot}
    {command : Command} {rest : List Command} {replies : List Reply}
    (pipe : Pipe net held submitted snapshot (command :: rest) replies) :
    command = listCommand ∧ rest = [] ∧
        (∀ lines : List (List Str), (∀ names ∈ lines, Joinable names) → keysOf net.mapping lines.flatten = held →
          Pipe net held submitted snapshot [] (replies ++ (lines.map .line ++ [.endOfList]))) ∨
      ∃ change, command.asked = some change ∧ submitted = some change ∧
        (∀ other ∈ rest, other = listCommand) ∧ ∀ (held' : Finset Str) (fulls : List (List Str)), Rejected net submitted held' fulls →
          Pipe net held' submitted snapshot rest (replies ++ fulls.map .full) := by
  cases pipe with
  | listing _ fulls snapshot rejected fresh =>
      left
      refine ⟨rfl, rfl, ?_⟩
      intro lines joinable whole
      apply Pipe.answered _ fulls lines snapshot rejected
      refine ⟨joinable, fun _ _ => ?_⟩
      rw [fresh, Finset.empty_union, whole]
  | asked command change asks =>
      right
      refine ⟨change, asks, rfl, fun _ member => (by cases member), ?_⟩
      exact fun held' fulls rejected => Pipe.told _ fulls rejected
  | askedListing command change snapshot asks fresh =>
      right
      refine ⟨change, asks, rfl, fun _ member => List.mem_singleton.mp member, ?_⟩
      exact fun held' fulls rejected => Pipe.listing _ fulls snapshot rejected fresh

theorem filter_fulls (fulls : List (List Str)) :
    (fulls.map Reply.full).filter (fun reply => !reply.isStatus) = fulls.map Reply.full := by
  rw [List.filter_eq_self]
  intro reply member
  rcases List.mem_map.mp member with ⟨names, _, rfl⟩
  rfl

theorem filter_lines (lines : List (List Str)) :
    (lines.map Reply.line ++ [Reply.endOfList]).filter (fun reply => !reply.isStatus) =
      lines.map Reply.line ++ [.endOfList] := by
  rw [List.filter_eq_self]
  intro reply member
  rcases List.mem_append.mp member with line | last
  · rcases List.mem_map.mp line with ⟨names, _, rfl⟩
    rfl
  · rw [List.mem_singleton.mp last]
    rfl

theorem asked_eq_some {command : Command} {change : Change} (asks : command.asked = some change) :
    command.operation = .plus ∧ change = .add command.asks ∨
      command.operation = .minus ∧ change = .remove command.asks := by
  rcases command with ⟨operation, names⟩
  cases operation with
  | plus =>
      cases asks
      exact Or.inl ⟨rfl, rfl⟩
  | minus =>
      cases asks
      exact Or.inr ⟨rfl, rfl⟩
  | list => cases asks
  | status => cases asks

theorem Linked.serve (linked : Linked net w) {answer : Answer}
    (faithful : ∀ command ∈ w.toServer.head?, Faithful net w.held command answer) :
    Linked net (w.serve net answer) := by
  unfold World.serve
  cases queue : w.toServer with
  | nil => exact linked
  | cons command rest =>
      have fair := faithful command (by rw [queue]; rfl)
      have pipe := linked.pipe
      by_cases idle : command.isStatus = true
      · have status : command.operation = .status := by simpa [Command.isStatus] using idle
        have same : w.commands = World.commands { w with toServer := rest } := by
          simp [World.commands, queue, idle]
        rw [same] at pipe
        simp only [status]
        exact ⟨linked.online, linked.mapping, linked.supported, pipe, linked.confirmed⟩
      · have front : w.commands = command :: World.commands { w with toServer := rest } := by
          simp [World.commands, queue, idle]
        rw [front] at pipe
        rcases pipe.serve with ⟨rfl, empty, list⟩ | ⟨change, asks, submitted, _, done⟩
        · have after := list answer.lines fair.1 fair.2
          have replies : World.replies
              { w with
                toServer := rest
                toClient := w.toClient ++ (answer.lines.map Reply.line ++ [.endOfList]) } =
              w.replies ++ (answer.lines.map .line ++ [.endOfList]) := by
            simp only [World.replies, List.filter_append (w.toClient), filter_lines]
          rw [← replies, ← empty] at after
          exact ⟨linked.online, linked.mapping, linked.supported, after, linked.confirmed⟩
        · have unconfirmed : ∀ names, w.client.confirmed ≠ some names := by
            intro names held
            rw [(linked.confirmed names held).2] at submitted
            cases submitted
          rcases asked_eq_some asks with ⟨plus, rfl⟩ | ⟨minus, rfl⟩
          · simp only [Faithful, plus] at fair
            have rejected : Rejected net w.client.submitted answer.held answer.fulls := by
              constructor
              · intro none_
                rw [none_] at submitted
                cases submitted
              · intro names member
                have reported := fair.2.2.2.2 names member
                exact ⟨reported.1, reported.2.1⟩
            have after := done answer.held answer.fulls rejected
            have replies : World.replies
                { w with
                  toServer := rest
                  held := answer.held
                  toClient := w.toClient ++ answer.fulls.map Reply.full } =
                w.replies ++ answer.fulls.map .full := by
              simp only [World.replies, List.filter_append (w.toClient), filter_fulls]
            rw [← replies] at after
            simp only [plus]
            refine ⟨linked.online, linked.mapping, linked.supported, after, ?_⟩
            intro names held
            exact absurd held (unconfirmed names)
          · have after := done (w.held \ keysOf net.mapping command.asks) []
              (rejected_nil _ _)
            rw [List.map_nil, List.append_nil] at after
            simp only [minus]
            refine ⟨linked.online, linked.mapping, linked.supported, after, ?_⟩
            intro names held
            exact absurd held (unconfirmed names)

section Receive

variable {held : Finset Str} {submitted : Option Change} {snapshot : Option Snapshot}
variable {commands : List Command} {replies rest : List Reply}

/-- The next answer is a rejection. -/
theorem Pipe.full (pipe : Pipe net held submitted snapshot commands replies) {names : List Str}
    (next : replies = .full names :: rest) :
    Joinable names ∧ keysOf net.mapping names ∩ held = ∅ ∧
      Pipe net held submitted snapshot commands rest := by
  have fewer : ∀ fulls : List (List Str), Rejected net submitted held (names :: fulls) →
      Rejected net submitted held fulls := by
    intro fulls rejected
    constructor
    · intro none_
      cases rejected.asked none_
    · exact fun other member => rejected.absent other (List.mem_cons_of_mem _ member)
  cases pipe with
  | told _ fulls rejected =>
      cases fulls with
      | nil => cases next
      | cons first fulls =>
          cases next
          have absent := rejected.absent names List.mem_cons_self
          exact ⟨absent.1, absent.2, Pipe.told _ fulls (fewer fulls rejected)⟩
  | listing _ fulls snapshot rejected fresh =>
      cases fulls with
      | nil => cases next
      | cons first fulls =>
          cases next
          have absent := rejected.absent names List.mem_cons_self
          exact ⟨absent.1, absent.2, Pipe.listing _ fulls snapshot (fewer fulls rejected) fresh⟩
  | answered _ fulls lines snapshot rejected content =>
      cases fulls with
      | nil =>
          cases lines with
          | nil => cases next
          | cons line lines => cases next
      | cons first fulls =>
          cases next
          have absent := rejected.absent names List.mem_cons_self
          exact ⟨absent.1, absent.2,
            Pipe.answered _ fulls lines snapshot (fewer fulls rejected) content⟩
  | asked command change asks => cases next
  | askedListing command change snapshot asks fresh => cases next

/-- The next answer is a line of a list: it is to be added to what was read. -/
theorem Pipe.line (pipe : Pipe net held submitted snapshot commands replies) {names : List Str}
    (next : replies = .line names :: rest) :
    Joinable names ∧ ∃ before, snapshot = some before ∧
      ∀ after : Snapshot, after.expired = before.expired →
        (after.expired = false → after.valid = true → before.valid = true ∧
          after.names.keys = before.names.keys ∪ keysOf net.mapping names) →
        Pipe net held submitted (some after) commands rest := by
  cases pipe with
  | told _ fulls rejected => cases fulls <;> cases next
  | listing _ fulls snapshot rejected fresh => cases fulls <;> cases next
  | answered _ fulls lines before rejected content =>
      cases fulls with
      | cons first fulls => cases next
      | nil =>
          cases lines with
          | nil => cases next
          | cons line lines =>
              cases next
              refine ⟨content.joinable names List.mem_cons_self, before, rfl, ?_⟩
              intro after expired grown
              apply Pipe.answered _ [] lines after (rejected_nil _ _)
              constructor
              · exact fun other member => content.joinable other (List.mem_cons_of_mem _ member)
              · intro live valid
                rcases grown live valid with ⟨valid_, keys⟩
                have whole := content.whole (expired ▸ live) valid_
                rw [List.flatten_cons, keysOf_append, ← Finset.union_assoc, ← keys] at whole
                exact whole
  | asked command change asks => cases next
  | askedListing command change snapshot asks fresh => cases next

/-- The next answer ends a list: what was read, if all was, is the server's set. -/
theorem Pipe.ended (pipe : Pipe net held submitted snapshot commands replies)
    (next : replies = .endOfList :: rest) :
    commands = [] ∧ rest = [] ∧ ∃ before, snapshot = some before ∧
      (before.expired = false → before.valid = true → before.names.keys = held) := by
  cases pipe with
  | told _ fulls rejected => cases fulls <;> cases next
  | listing _ fulls snapshot rejected fresh => cases fulls <;> cases next
  | answered _ fulls lines before rejected content =>
      cases fulls with
      | cons first fulls => cases next
      | nil =>
          cases lines with
          | cons line lines => cases next
          | nil =>
              cases next
              refine ⟨rfl, rfl, before, rfl, ?_⟩
              intro live valid
              have whole := content.whole live valid
              rwa [List.flatten_nil, keysOf, List.map_nil, List.toFinset_nil,
                Finset.union_empty] at whole
  | asked command change asks => cases next
  | askedListing command change snapshot asks fresh => cases next

end Receive

theorem receive_nil (queue : w.toClient = []) : w.receive = w := by
  unfold World.receive
  rw [queue]

theorem receive_cons {reply : Reply} {rest : List Reply} (queue : w.toClient = reply :: rest) :
    w.receive =
      { w with client := w.client.receive reply.number reply.args, toClient := rest } := by
  unfold World.receive
  rw [queue]

/-- The client reads the next answer. -/
theorem Linked.receive (linked : Linked net w) (proper : Proper w.client) :
    Linked net w.receive ∧ Proper w.receive.client := by
  cases queue : w.toClient with
  | nil =>
      rw [receive_nil queue]
      exact ⟨linked, proper⟩
  | cons reply rest =>
      rw [receive_cons queue]
      have pipe := linked.pipe
      cases reply with
      | status online masks =>
          have same : w.replies = World.replies { w with toClient := rest } := by
            simp [World.replies, queue, Reply.isStatus]
          rw [same] at pipe
          simp only [receive_status]
          exact ⟨⟨linked.online, linked.mapping, linked.supported, pipe, linked.confirmed⟩, proper⟩
      | full names =>
          have front : w.replies = .full names :: World.replies { w with toClient := rest } := by
            simp [World.replies, queue, Reply.isStatus]
          rcases pipe.full front with ⟨joinable, _, after⟩
          rw [receive_full linked.supported]
          have kept := proper.receiveFull (Reply.full names).args
          refine ⟨?_, kept⟩
          rw [receiveFull_eq joinable]
          exact ⟨linked.online, linked.mapping, linked.supported, after, linked.confirmed⟩
      | line names =>
          have front : w.replies = .line names :: World.replies { w with toClient := rest } := by
            simp [World.replies, queue, Reply.isStatus]
          rcases pipe.line front with ⟨joinable, before, running, grow⟩
          rw [receive_line linked.supported]
          have kept := proper.receiveLine (Reply.line names).args
          refine ⟨?_, kept⟩
          rcases receiveLine_snapshot joinable running with ⟨after, read, expired, whole⟩
          rw [linked.mapping] at whole
          constructor
          · exact linked.online
          · exact linked.mapping
          · exact linked.supported
          · rw [read]
            exact grow after expired whole
          · exact linked.confirmed
      | endOfList =>
          have front : w.replies = .endOfList :: World.replies { w with toClient := rest } := by
            simp [World.replies, queue, Reply.isStatus]
          rcases pipe.ended front with ⟨commands, replies, before, running, whole⟩
          rw [receive_end linked.supported]
          refine ⟨?_, proper.receiveEnd⟩
          have told : ∀ submitted, Pipe net w.held submitted none w.commands
              (World.replies { w with toClient := rest }) := by
            intro submitted
            rw [commands, replies]
            exact Pipe.told submitted [] (rejected_nil _ _)
          unfold MonitorState.receiveEnd
          rw [running]
          dsimp only
          split
          · constructor
            · exact linked.online
            · exact linked.mapping
            · exact linked.supported
            · exact told _
            · intro names held
              cases held
          · next fine =>
              simp only [Bool.or_eq_true, not_or, Bool.not_eq_true, Bool.not_eq_false'] at fine
              constructor
              · exact linked.online
              · simpa using linked.mapping
              · simpa using linked.supported
              · show Pipe net w.held (MonitorState.verifyChange _ _).submitted
                  (MonitorState.verifyChange _ _).snapshot w.commands
                  (World.replies { w with toClient := rest })
                rw [verifyChange_submitted, verifyChange_snapshot, adopt_snapshot]
                exact told none
              · intro names held
                cases held
                exact ⟨whole fine.2 fine.1, verifyChange_submitted _⟩

theorem Silent.receive (silent : Silent w) : Silent w.receive ∧ w.receive.client = w.client := by
  cases queue : w.toClient with
  | nil =>
      rw [receive_nil queue]
      exact ⟨silent, rfl⟩
  | cons reply rest =>
      rw [receive_cons queue]
      have statuses := silent.replies
      rw [World.replies, queue] at statuses
      cases reply with
      | status online masks =>
          simp only [receive_status]
          exact ⟨⟨silent.toServer, statuses, silent.confirmed, silent.submitted, silent.snapshot⟩,
            trivial⟩
      | full names => cases statuses
      | line names => cases statuses
      | endOfList => cases statuses

theorem Sound.receive (sound : Sound net w) : Sound net w.receive := by
  rcases sound.link with linked | silent
  · have after := linked.receive sound.proper
    exact ⟨after.2, Or.inl after.1⟩
  · have after := silent.receive
    exact ⟨after.2.symm ▸ sound.proper, Or.inr after.1⟩

theorem Sound.serve (sound : Sound net w) {answer : Answer}
    (faithful : ∀ command ∈ w.toServer.head?, Faithful net w.held command answer) :
    Sound net (w.serve net answer) := by
  have untouched : (w.serve net answer).client = w.client := by
    unfold World.serve
    split
    · rfl
    · split <;> rfl
  refine ⟨untouched.symm ▸ sound.proper, ?_⟩
  rcases sound.link with linked | silent
  · exact Or.inl (linked.serve faithful)
  · right
    have same : w.serve net answer = w := by
      unfold World.serve
      rw [silent.toServer]
    rw [same]
    exact silent

theorem Sound.presence (sound : Sound net w) (online : Bool) (masks : Str) :
    Sound net { w with toClient := w.toClient ++ [.status online masks] } := by
  have same : World.replies { w with toClient := w.toClient ++ [.status online masks] } =
      w.replies := by
    simp [World.replies, Reply.isStatus]
  refine ⟨sound.proper, ?_⟩
  rcases sound.link with linked | silent
  · left
    exact ⟨linked.online, linked.mapping, linked.supported, same.symm ▸ linked.pipe,
      linked.confirmed⟩
  · right
    exact ⟨silent.toServer, same.trans silent.replies, silent.confirmed, silent.submitted,
      silent.snapshot⟩

/-- What each event keeps. -/
theorem Sound.exec (sound : Sound net w) {event : Event} (allowed : Allowed net w event) :
    Sound net (exec net w event) := by
  cases event with
  | edit change => exact sound.ensure.edit allowed
  | askList =>
      have told := sound.ensure
      refine ⟨⟨told.proper.wanted, told.proper.confirmed, told.proper.snapshot,
        told.proper.pending⟩, ?_⟩
      rcases told.link with linked | silent
      · exact Or.inl ⟨linked.online, linked.mapping, linked.supported, linked.pipe,
          linked.confirmed⟩
      · exact Or.inr ⟨silent.toServer, silent.replies, silent.confirmed, silent.submitted,
          silent.snapshot⟩
  | askStatus =>
      have told := sound.ensure
      refine ⟨⟨told.proper.wanted, told.proper.confirmed, told.proper.snapshot,
        told.proper.pending⟩, ?_⟩
      rcases told.link with linked | silent
      · exact Or.inl ⟨linked.online, linked.mapping, linked.supported, linked.pipe,
          linked.confirmed⟩
      · exact Or.inr ⟨silent.toServer, silent.replies, silent.confirmed, silent.submitted,
          silent.snapshot⟩
  | tick now sends => exact sound.ensure.tick (fun online => sound.linked online) now sends
  | serve answer => exact sound.serve allowed
  | presence online masks => exact sound.presence online masks
  | receive => exact sound.ensure.receive
  | disconnect => exact ⟨sound.proper.resetTransport, Or.inr ⟨rfl, rfl, rfl, rfl, rfl⟩⟩
  | connect held => exact ⟨sound.proper.resetTransport, Or.inr ⟨rfl, rfl, rfl, rfl, rfl⟩⟩

/-- A client that thinks itself synchronized is. -/
theorem Sound.agree (sound : Sound net w) (synchronized : w.client.synchronized = true) :
    ∃ confirmed wanted, w.client.confirmed = some confirmed ∧ w.client.wanted = some wanted ∧
      confirmed.keys = w.held ∧ wanted.keys = w.held := by
  simp only [MonitorState.synchronized, Bool.and_eq_true] at synchronized
  have same := synchronized.2
  split at same
  · next confirmed wanted held holds =>
      have keys : confirmed.keys = wanted.keys := by
        rw [← keyList_toFinset, ← keyList_toFinset, of_decide_eq_true same]
      rcases sound.link with linked | silent
      · have server := (linked.confirmed confirmed held).1
        exact ⟨confirmed, wanted, held, holds, server, keys.symm.trans server⟩
      · rw [silent.confirmed] at held
        cases held
  · cases same

theorem sound_run {events : List Event} (sound : Sound net w)
    (allowed : Along (Allowed net) (Monitor.exec net) w events) :
    Sound net (runFrom (Monitor.exec net) w events) :=
  allowed.invariant (fun _ _ sound allowed => sound.exec allowed) sound

end Link

end Repartee.Monitor
