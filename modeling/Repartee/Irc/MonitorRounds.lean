import Repartee.Irc.MonitorRuns

/-!
Each completed round brings the wanted set and the server's closer; and what the server holds leaves
the wanted set by the user's hand only, unless targets that the network tells apart fall together
under the default mapping while the connection is away.
-/

namespace Repartee.Monitor

open Repartee.Lib
open Repartee.Text
open Repartee.State (casefold)

/-! ### What leaves the wanted set -/

section Kept

variable (net : Network)

/-- The names the user wants. -/
def World.names (w : World) : List Str := (w.client.wanted.map Names.values).getD []

/-- The wanted set as the network folds it. -/
def World.wantedSet (w : World) : Finset Str := keysOf net.mapping w.names

def Event.names : Event → List Str
  | .edit change => change.names
  | .askList => []
  | .askStatus => []
  | .tick _ _ => []
  | .serve _ => []
  | .presence _ _ => []
  | .receive => []
  | .disconnect => []
  | .connect _ => []

/-- Names that the given mapping folds to one are one to the network. -/
def Faithfully (mapping : Str) (names : List Str) : Prop :=
  ∀ a ∈ names, ∀ b ∈ names, casefold a mapping = casefold b mapping →
    casefold a net.mapping = casefold b net.mapping

/-- While the connection is away no two of the user's targets fall together that the network tells
apart. -/
def Distinct (w : World) (event : Event) : Prop :=
  w.online = false → Faithfully net defaultMapping (w.names ++ event.names)

instance (mapping : Str) (names : List Str) : Decidable (Faithfully net mapping names) := by
  unfold Faithfully
  infer_instance

instance (w : World) (event : Event) : Decidable (Distinct net w event) := by
  unfold Distinct
  infer_instance

/-- The user takes the target out. -/
def Change.Removes (change : Change) (target : Str) : Prop :=
  match change with
  | .add _ => False
  | .remove names => target ∈ keysOf net.mapping names
  | .clear => True

variable {net} {w : World}

theorem Faithfully.mono {mapping : Str} {few many : List Str}
    (faithful : Faithfully net mapping many) (within : ∀ name ∈ few, name ∈ many) :
    Faithfully net mapping few :=
  fun a inA b inB => faithful a (within a inA) b (within b inB)

theorem faithfully_self (names : List Str) : Faithfully net net.mapping names :=
  fun _ _ _ _ same => same

/-- Nothing is lost by inserting names that fold together only where the network folds them. -/
theorem insertAll_keeps {mapping : Str} {names : Names} (keyed : Keyed mapping names)
    {added : List Str} (valid : ∀ name ∈ added, invalidTarget name = false)
    (faithful : Faithfully net mapping (names.values ++ added)) :
    keysOf net.mapping (names.values ++ added) ⊆
      keysOf net.mapping (names.insertAll mapping added).values := by
  intro target member
  rcases (mem_keysOf _ target).mp member with ⟨name, given, rfl⟩
  have stands : casefold name mapping ∈ (names.insertAll mapping added).keys := by
    rw [keys_insertAll, ← keyed.keysOf_values, ← keysOf_append, mem_keysOf]
    exact ⟨name, given, rfl⟩
  rcases (Table.mem_keys _ _).mp stands with ⟨entry, inside, same⟩
  have folded := (keyed.insertAll valid entry inside).1
  have known : entry.2 ∈ names.values ++ added := by
    rw [List.mem_append]
    rcases insertAll_within inside with before | new_
    · exact Or.inl ((mem_values _).mpr ⟨entry.1, before⟩)
    · exact Or.inr new_
  rw [mem_keysOf]
  exact ⟨entry.2, (mem_values _).mpr ⟨entry.1, inside⟩,
    faithful entry.2 known name given (folded.symm.trans same)⟩

theorem refold_keeps {before mapping : Str} {names : Names} (keyed : Keyed before names)
    (faithful : Faithfully net mapping names.values) :
    keysOf net.mapping names.values ⊆ keysOf net.mapping (names.refold mapping).values := by
  have valid : ∀ name ∈ names.values, invalidTarget name = false := by
    intro name member
    rcases (mem_values name).mp member with ⟨key, inside⟩
    exact (keyed _ inside).2
  have none_ : Names.values Table.empty = [] := rfl
  have faithful_ : Faithfully net mapping (Names.values Table.empty ++ names.values) := by
    rw [none_]
    exact faithful
  have kept := insertAll_keeps keyed_empty valid faithful_
  rw [none_] at kept
  exact kept

theorem wantedSet_some {names : Names} (held : w.client.wanted = some names) :
    w.wantedSet net = keysOf net.mapping names.values := by
  rw [World.wantedSet, World.names, held]
  rfl

theorem wantedSet_none (none_ : w.client.wanted = none) : w.wantedSet net = ∅ := by
  rw [World.wantedSet, World.names, none_]
  rfl

/-- For a linked client the wanted set is the keys of its table. -/
theorem wantedSet_keys (proper : Proper w.client) (linked : w.client.mapping = net.mapping)
    {names : Names} (held : w.client.wanted = some names) : w.wantedSet net = names.keys := by
  rw [wantedSet_some held, Keyed.keysOf_values (linked ▸ proper.wanted names held)]

theorem setSupported_wanted (m : MonitorState) (supported : Bool) :
    (m.setSupported supported).wanted = m.wanted := by
  unfold MonitorState.setSupported
  split <;> rfl

theorem setMapping_wanted (m : MonitorState) (mapping : Str) :
    (m.setMapping mapping).wanted = m.wanted ∨
      (m.setMapping mapping).wanted = m.wanted.map fun names => names.refold mapping := by
  unfold MonitorState.setMapping
  split
  · exact Or.inl rfl
  · exact Or.inr rfl

theorem ensure_wanted (net : Network) (w : World) : (w.ensure net).client.wanted = w.client.wanted ∨
    (w.ensure net).client.wanted = w.client.wanted.map fun names =>
      names.refold (if w.online then net.mapping else defaultMapping) := by
  have told : (w.ensure net).client.wanted =
      (w.client.setMapping (if w.online then net.mapping else defaultMapping)).wanted :=
    setSupported_wanted _ _
  rw [told]
  exact setMapping_wanted _ _

theorem refold_within {names : Names} {mapping name : Str}
    (member : name ∈ (names.refold mapping).values) : name ∈ names.values := by
  rcases (mem_values name).mp member with ⟨key, inside⟩
  rcases insertAll_within inside with before | there
  · exact absurd before (Table.not_mem_empty _)
  · exact there

theorem ensure_names (net : Network) (w : World) : ∀ name ∈ (w.ensure net).names, name ∈ w.names := by
  intro name member
  unfold World.names at member ⊢
  rcases ensure_wanted net w with same | refolded
  · rwa [same] at member
  · rw [refolded] at member
    cases held : w.client.wanted with
    | none =>
        rw [held] at member
        cases member
    | some names =>
        rw [held] at member
        exact refold_within member

theorem ensure_mapping (net : Network) (w : World) :
    (w.ensure net).client.mapping = if w.online then net.mapping else defaultMapping :=
  (setSupported_mapping _ _).trans (setMapping_mapping _ _)

/-- Telling the client its mapping loses nothing, if the mapping is faithful to the network's. -/
theorem ensure_keeps (sound : Sound net w)
    (faithful : w.online = false → Faithfully net defaultMapping w.names) :
    w.wantedSet net ⊆ (w.ensure net).wantedSet net := by
  cases held : w.client.wanted with
  | none =>
      rw [wantedSet_none held]
      exact Finset.empty_subset _
  | some names =>
      rcases ensure_wanted net w with same | refolded
      · rw [wantedSet_some held, wantedSet_some (same.trans held)]
      · rw [held, Option.map_some] at refolded
        rw [wantedSet_some held, wantedSet_some refolded]
        apply refold_keeps (sound.proper.wanted names held)
        cases online : w.online with
        | true => exact faithfully_self _
        | false =>
            have known := faithful online
            rw [World.names, held] at known
            exact known

theorem apply_loses {mapping : Str} {names updated : Names} (keyed : Keyed mapping names)
    {change : Change} (valid : ∀ name ∈ change.names, invalidTarget name = false)
    (faithful : Faithfully net mapping (names.values ++ change.names))
    (applied : apply names mapping change = .ok updated) {target : Str}
    (before : target ∈ keysOf net.mapping names.values)
    (after : target ∉ keysOf net.mapping updated.values) : change.Removes net target := by
  cases change with
  | add added =>
      simp only [apply] at applied
      split at applied
      · cases applied
      · cases applied
        apply absurd _ after
        apply insertAll_keeps keyed valid faithful
        rw [keysOf_append]
        exact Finset.mem_union_left _ before
  | remove gone =>
      cases applied
      rcases (mem_keysOf _ target).mp before with ⟨name, given, rfl⟩
      rcases (mem_values name).mp given with ⟨key, inside⟩
      have taken : casefold name mapping ∈ keysOf mapping gone := by
        by_contra stays
        apply after
        rw [mem_keysOf]
        have kept : (key, name) ∈ names.removeAll mapping gone := by
          rw [mem_removeAll]
          refine ⟨inside, ?_⟩
          rwa [(keyed _ inside).1]
        exact ⟨name, (mem_values name).mpr ⟨key, kept⟩, rfl⟩
      rcases (mem_keysOf _ _).mp taken with ⟨other, asked, same⟩
      apply (mem_keysOf _ _).mpr
      exact ⟨other, asked, faithful other (List.mem_append_right _ asked) name
        (List.mem_append_left _ given) same⟩
  | clear => trivial

theorem edit_loses (sound : Sound net w) {change : Change}
    (valid : ∀ name ∈ change.names, invalidTarget name = false)
    (faithful : Faithfully net w.client.mapping (w.names ++ change.names)) {target : Str}
    (before : target ∈ w.wantedSet net) (after : target ∉ (w.edit change).wantedSet net) :
    change.Removes net target := by
  unfold World.edit MonitorState.change at after
  cases held : w.client.wanted with
  | none =>
      rw [wantedSet_none held] at before
      exact absurd before (Finset.notMem_empty _)
  | some names =>
      rw [wantedSet_some held] at before
      rw [World.names, held] at faithful
      rw [held] at after
      cases applied : apply names w.client.mapping change with
      | error text =>
          simp only [applied, Except.map] at after
          rw [wantedSet_some held] at after
          exact absurd before after
      | ok updated =>
          simp only [applied, Except.map] at after
          exact apply_loses (sound.proper.wanted names held) valid faithful applied before after

theorem polls_wanted (now : Nat) (sends : List Bool) (w : World) :
    (World.polls now sends w).client.wanted = w.client.wanted := by
  have kept : ∀ (m : MonitorState) (command : Command) (success : Bool),
      (m.sent command now success).wanted = m.wanted := by
    intro m command success
    rcases command with ⟨operation, names⟩
    cases success with
    | false => rfl
    | true => cases operation <;> rfl
  induction sends generalizing w with
  | nil => rfl
  | cons ok rest ih =>
      rw [World.polls]
      split
      · rfl
      · split
        · rw [ih]
          exact kept _ _ _
        · exact kept _ _ _

theorem tick_wanted (w : World) (now : Nat) (sends : List Bool) :
    (w.tick now sends).client.wanted = w.client.wanted := by
  unfold World.tick
  split
  · exact polls_wanted now sends _
  · rfl

/-- What the end of a list gives up: what was asked for and is not held. -/
def givenUp (mapping : Str) (held : Finset Str) : Option Change → Finset Str
  | some (.add added) => keysOf mapping added \ held
  | some (.remove _) => ∅
  | some .clear => ∅
  | none => ∅

theorem verifyChange_wanted {m : MonitorState} {names snapshot : Names}
    (held : m.wanted = some names) :
    ∃ updated, (m.verifyChange snapshot).wanted = some updated ∧
      updated.keys = names.keys \ givenUp m.mapping snapshot.keys m.submitted := by
  unfold MonitorState.verifyChange
  split
  · next added asked =>
      refine ⟨_, by rw [held]; rfl, ?_⟩
      rw [keys_removeAll, asked, givenUp]
      congr 1
      ext key
      simp only [mem_keysOf, List.mem_filter, Bool.not_eq_true', Finset.mem_sdiff,
        ← Bool.not_eq_true, containsKey_iff]
      constructor
      · rintro ⟨nick, ⟨given, absent⟩, rfl⟩
        exact ⟨⟨nick, given, rfl⟩, absent⟩
      · rintro ⟨⟨nick, given, rfl⟩, absent⟩
        exact ⟨nick, ⟨given, absent⟩, rfl⟩
  · next removed asked => exact ⟨names, held, by rw [asked, givenUp, Finset.sdiff_empty]⟩
  · next asked => exact ⟨names, held, by rw [asked, givenUp, Finset.sdiff_empty]⟩
  · next asked => exact ⟨names, held, by rw [asked, givenUp, Finset.sdiff_empty]⟩

/-- The end of a list: it was incomplete and is ignored, or it is confirmed. -/
theorem receiveEnd_cases {m : MonitorState} {names : Names} {snapshot : Snapshot}
    (held : m.wanted = some names) (running : m.snapshot = some snapshot) :
    m.receiveEnd.wanted = some names ∧ m.receiveEnd.confirmed = none ∨
      snapshot.valid = true ∧ snapshot.expired = false ∧
        ∃ updated, m.receiveEnd.wanted = some updated ∧
          updated.keys = names.keys \ givenUp m.mapping snapshot.names.keys m.submitted := by
  unfold MonitorState.receiveEnd
  rw [running]
  dsimp only
  split
  · exact Or.inl ⟨held, rfl⟩
  · next fine =>
      right
      simp only [Bool.or_eq_true, not_or, Bool.not_eq_true, Bool.not_eq_false'] at fine
      refine ⟨fine.1, fine.2, ?_⟩
      have adopted : MonitorState.adopt { m with snapshot := none } snapshot.names =
          { m with snapshot := none } := by
        unfold MonitorState.adopt
        rw [held]
      rw [adopted]
      exact verifyChange_wanted held

/-- An answer takes out of the wanted set only what the server does not hold. -/
theorem receive_loses (linked : Linked net w) (proper : Proper w.client) {target : Str}
    (before : target ∈ w.wantedSet net) (after : target ∉ w.receive.wantedSet net) :
    target ∉ w.held := by
  cases held : w.client.wanted with
  | none =>
      rw [wantedSet_none held] at before
      exact absurd before (Finset.notMem_empty _)
  | some names =>
      have later := linked.receive proper
      rw [wantedSet_keys proper linked.mapping held] at before
      have gone : ∀ updated, w.receive.client.wanted = some updated → target ∉ updated.keys := by
        intro updated wanted
        rwa [wantedSet_keys later.2 later.1.mapping wanted] at after
      cases queue : w.toClient with
      | nil =>
          rw [receive_nil queue] at gone
          exact absurd before (gone names held)
      | cons reply rest =>
          rw [receive_cons queue] at gone
          have pipe := linked.pipe
          cases reply with
          | status online masks =>
              simp only [receive_status] at gone
              exact absurd before (gone names held)
          | full rejected =>
              have front : w.replies = .full rejected :: World.replies { w with toClient := rest } := by
                simp [World.replies, queue, Reply.isStatus]
              rcases pipe.full front with ⟨joinable, absent, _⟩
              rw [receive_full linked.supported, receiveFull_eq joinable] at gone
              have lost := gone (names.removeAll w.client.mapping rejected) (by simp [held])
              rw [keys_removeAll, linked.mapping, Finset.mem_sdiff, not_and_not_right] at lost
              intro present
              have both := Finset.mem_inter.mpr ⟨lost before, present⟩
              rw [absent] at both
              exact Finset.notMem_empty _ both
          | line listed =>
              rw [receive_line linked.supported] at gone
              exact absurd before (gone names held)
          | endOfList =>
              have front : w.replies = .endOfList :: World.replies { w with toClient := rest } := by
                simp [World.replies, queue, Reply.isStatus]
              rcases pipe.ended front with ⟨_, _, snapshot, running, whole⟩
              rw [receive_end linked.supported] at gone
              rcases receiveEnd_cases held running with ⟨same, _⟩ | ⟨valid, live, updated, wanted, keys⟩
              · exact absurd before (gone names same)
              · have lost := gone updated wanted
                rw [keys, whole live valid, Finset.mem_sdiff, not_and_not_right] at lost
                have up := lost before
                cases asked : w.client.submitted with
                | none =>
                    rw [asked] at up
                    exact absurd up (Finset.notMem_empty _)
                | some change =>
                    rw [asked] at up
                    cases change with
                    | add added => exact (Finset.mem_sdiff.mp up).2
                    | remove removed => exact absurd up (Finset.notMem_empty _)
                    | clear => exact absurd up (Finset.notMem_empty _)

/-- What an event takes out of the wanted set: what the user takes out, or what the server turns out
not to hold. -/
theorem exec_loses (sound : Sound net w) {event : Event} (allowed : Allowed net w event)
    (distinct : Distinct net w event) {target : Str} (before : target ∈ w.wantedSet net)
    (after : target ∉ (exec net w event).wantedSet net) :
    (∃ change, event = .edit change ∧ change.Removes net target) ∨
      event = .receive ∧ target ∉ w.held := by
  have told : target ∈ (w.ensure net).wantedSet net := by
    apply ensure_keeps sound _ before
    intro offline
    exact (distinct offline).mono fun name member => List.mem_append_left _ member
  cases event with
  | edit change =>
      left
      refine ⟨change, rfl, ?_⟩
      apply edit_loses sound.ensure allowed _ told after
      rw [ensure_mapping]
      cases online : w.online with
      | true => exact faithfully_self _
      | false =>
          apply (distinct online).mono
          intro name member
          rcases List.mem_append.mp member with known | new_
          · exact List.mem_append_left _ (ensure_names net w name known)
          · exact List.mem_append_right _ new_
  | askList => exact absurd told after
  | askStatus => exact absurd told after
  | tick now sends =>
      have same : (exec net w (.tick now sends)).wantedSet net = (w.ensure net).wantedSet net := by
        rw [World.wantedSet, World.names, exec, tick_wanted]
        rfl
      rw [same] at after
      exact absurd told after
  | serve answer =>
      have same : (exec net w (.serve answer)).wantedSet net = w.wantedSet net := by
        have client : (w.serve net answer).client = w.client := by
          unfold World.serve
          split
          · rfl
          · split <;> rfl
        rw [World.wantedSet, World.names, exec, client]
        rfl
      rw [same] at after
      exact absurd before after
  | presence online masks => exact absurd before after
  | receive =>
      right
      refine ⟨rfl, ?_⟩
      rcases sound.ensure.link with linked | silent
      · exact receive_loses linked sound.ensure.proper told after
      · have same : (exec net w .receive).wantedSet net = (w.ensure net).wantedSet net := by
          rw [World.wantedSet, World.names, exec, silent.receive.2]
          rfl
        rw [same] at after
        exact absurd told after
  | disconnect => exact absurd before after
  | connect held => exact absurd before after

end Kept

/-! ### Rounds -/

section Rounds

variable (net : Network)

/-- What the wanted set and the server's differ in. -/
def World.apart (w : World) : Finset Str := symmDiff (w.wantedSet net) w.held

/-- How far the two sets are apart. -/
def World.gap (w : World) : Nat := Reconcile.gap (w.wantedSet net) w.held

/-- Between two rounds, with the sets still apart. -/
structure Unsettled (w : World) : Prop where
  confirmed : w.client.confirmed.isSome = true
  wanted : w.client.wanted.isSome = true
  idle : w.client.snapshot = none
  apart : w.wantedSet net ≠ w.held

/-- The user leaves his targets alone and the connection stays. -/
def Event.isQuiet : Event → Bool
  | .edit _ => false
  | .askList => true
  | .askStatus => true
  | .tick _ _ => true
  | .serve _ => true
  | .presence _ _ => true
  | .receive => true
  | .disconnect => false
  | .connect _ => false

/-- The answer read ends a list, and the list is confirmed. -/
def Completes (w : World) (event : Event) : Prop :=
  event = .receive ∧ w.toClient.head? = some .endOfList ∧
    (exec net w event).client.confirmed.isSome = true

/-- A change asks for what is missing, or takes out what is too much. -/
def Planned (wanted held : Finset Str) : Change → Prop
  | .add names => keysOf net.mapping names ⊆ wanted \ held
  | .remove names => keysOf net.mapping names ⊆ held \ wanted
  | .clear => False

/-- What the server took in is wanted, what it was to let go it let go. -/
def Taken (wanted held : Finset Str) : Change → Prop
  | .add names => keysOf net.mapping names ∩ held ⊆ wanted
  | .remove names => keysOf net.mapping names ∩ (held ∪ wanted) = ∅
  | .clear => False

/-- The round's change, and that the sets have not grown further apart since its start. -/
structure Underway (start w : World) (change : Change) : Prop where
  wanted : w.client.wanted.isSome = true
  submitted : w.client.submitted = some change
  asks : (keysOf net.mapping change.names).Nonempty
  within : keysOf net.mapping change.names ⊆ start.apart net
  near : w.apart net ⊆ start.apart net

/-- The stages of a round, against the state it started in. -/
inductive Stage (start w : World) : Prop where
  | idle (wanted : w.client.wanted = start.client.wanted)
      (confirmed : w.client.confirmed = start.client.confirmed) (held : w.held = start.held)
      (snapshot : w.client.snapshot = none)
  | asked (change : Change) (underway : Underway net start w change)
      (pending : ∃ command ∈ w.commands, command.asked = some change)
      (planned : Planned net (w.wantedSet net) w.held change)
  | taken (change : Change) (underway : Underway net start w change)
      (gone : ∀ command ∈ w.commands, command = listCommand)
      (taken : Taken net (w.wantedSet net) w.held change)

variable {net} {start w : World}

/-- Only what the two sets, the submitted change and the commands are matters to the stage. -/
theorem wantedSet_congr {w' : World} (same : w'.client.wanted = w.client.wanted) :
    w'.wantedSet net = w.wantedSet net := by
  rw [World.wantedSet, World.names, same]
  rfl

theorem Underway.congr {change : Change} {w' : World} (underway : Underway net start w change)
    (wanted : w'.client.wanted = w.client.wanted) (held : w'.held = w.held)
    (submitted : w'.client.submitted = w.client.submitted) : Underway net start w' change where
  wanted := wanted ▸ underway.wanted
  submitted := submitted.trans underway.submitted
  asks := underway.asks
  within := underway.within
  near := by
    rw [World.apart, wantedSet_congr wanted, held]
    exact underway.near

theorem Stage.congr {w' : World} (stage : Stage net start w)
    (wanted : w'.client.wanted = w.client.wanted) (held : w'.held = w.held)
    (submitted : w'.client.submitted = w.client.submitted)
    (confirmed : w.client.snapshot = none → w'.client.confirmed = w.client.confirmed)
    (snapshot : w.client.snapshot = none → w'.client.snapshot = none)
    (commands : w'.commands = w.commands) : Stage net start w' := by
  have sets : w'.wantedSet net = w.wantedSet net := wantedSet_congr wanted
  cases stage with
  | idle wanted_ confirmed_ held_ snapshot_ =>
      exact Stage.idle (wanted.trans wanted_) ((confirmed snapshot_).trans confirmed_)
        (held.trans held_) (snapshot snapshot_)
  | asked change underway pending planned =>
      apply Stage.asked change (underway.congr wanted held submitted)
      · rwa [commands]
      · rwa [sets, held]
  | taken change underway gone taken =>
      apply Stage.taken change (underway.congr wanted held submitted)
      · rwa [commands]
      · rwa [sets, held]

theorem keysOf_nonempty {mapping : Str} {names : List Str} (some_ : names ≠ []) :
    (keysOf mapping names).Nonempty := by
  cases names with
  | nil => exact absurd rfl some_
  | cons name rest =>
      rw [keysOf_cons]
      exact Finset.insert_nonempty _ _

/-- What is read out of a planned parameter lacks in the other set. -/
theorem asks_lacking {mapping : Str} {names other : Names} (keyed : Keyed mapping names)
    (some_ : pack [] (lacking names other) ≠ []) :
    keysOf mapping ((pack [] (lacking names other)).splitOn ',') ⊆ names.keys \ other.keys := by
  intro key member
  rcases (mem_keysOf _ key).mp member with ⟨name, asked, rfl⟩
  rcases mem_lacking (pack_names (lacking_valid keyed other) some_ name asked) with
    ⟨key, inside, absent⟩
  have folded : key = casefold name mapping := (keyed _ inside).1
  rw [← folded, Finset.mem_sdiff]
  exact ⟨(Table.mem_keys _ _).mpr ⟨(key, name), inside, rfl⟩, absent⟩

/-- A command that is sent in a round under way is no change. -/
theorem Linked.sends_list (linked : Linked net w) {change : Change} {now : Nat} {command : Command}
    (submitted : w.client.submitted = some change)
    (next : w.client.nextCommand now = some command) :
    command = listCommand ∨ command = ⟨.status, none⟩ := by
  rcases (nextCommand_cases next).2 with ⟨kind, _⟩ | ⟨confirmed, wanted, held, _, _⟩
  · exact kind
  · rw [(linked.confirmed confirmed held).2] at submitted
    cases submitted

theorem sent_list (m : MonitorState) (now : Nat) {command : Command}
    (kind : command = listCommand ∨ command = ⟨.status, none⟩) :
    (m.sent command now true).wanted = m.wanted ∧
      (m.sent command now true).submitted = m.submitted := by
  rcases kind with rfl | rfl
  · exact ⟨rfl, rfl⟩
  · exact ⟨rfl, rfl⟩

/-- A round starts with the first change that is sent, and goes on with the list. -/
theorem Stage.send (unsettled : Unsettled net start) (linked : Linked net w)
    (proper : Proper w.client) (stage : Stage net start w) {now : Nat} {command : Command}
    (next : w.client.nextCommand now = some command) :
    Stage net start
      { w with
        client := w.client.sent command now true
        toServer := w.toServer ++ [command] } := by
  have grown : World.commands
      { w with
        client := w.client.sent command now true
        toServer := w.toServer ++ [command] } =
        w.commands ++ [command].filter fun command => !command.isStatus := commands_sent rfl
  cases stage with
  | idle wanted_ confirmed_ held_ snapshot_ =>
      rcases Option.isSome_iff_exists.mp unsettled.confirmed with ⟨confirmed, someConfirmed⟩
      rcases Option.isSome_iff_exists.mp unsettled.wanted with ⟨wanted, someWanted⟩
      have holds := confirmed_.trans someConfirmed
      have wants := wanted_.trans someWanted
      have server := (linked.confirmed confirmed holds).1
      have sets := wantedSet_keys proper linked.mapping wants
      have origin : w.wantedSet net = start.wantedSet net := wantedSet_congr wanted_
      have differ : wanted.keys ≠ w.held := by
        rw [← sets, origin, held_]
        exact unsettled.apart
      have confirmedKeyed : Keyed net.mapping confirmed :=
        linked.mapping ▸ proper.confirmed confirmed holds
      have wantedKeyed : Keyed net.mapping wanted := linked.mapping ▸ proper.wanted wanted wants
      have found : nextChange confirmed wanted = some command := by
        rcases (nextCommand_cases next).2 with ⟨_, nothing⟩ | ⟨c, v, sameC, sameV, found⟩
        · have equal := nextChange_none confirmedKeyed wantedKeyed (nothing _ _ holds wants)
          exact absurd (equal.symm.trans server) differ
        · rw [holds] at sameC
          rw [wants] at sameV
          cases sameC
          cases sameV
          exact found
      have apart : w.apart net = start.apart net := by
        rw [World.apart, World.apart, origin, held_]
      rcases command with ⟨operation, names⟩
      rcases nextChange_asked found with ⟨rfl, rfl, some_⟩ | ⟨rfl, rfl, some_⟩
      · have surplus := asks_lacking confirmedKeyed some_
        rw [server, ← sets] at surplus
        apply Stage.asked (.remove ((pack [] (lacking confirmed wanted)).splitOn ','))
        · constructor
          · exact Option.isSome_iff_exists.mpr ⟨wanted, wants⟩
          · rfl
          · exact keysOf_nonempty (List.splitOn_ne_nil _ _)
          · rw [← apart]
            exact fun key member => Finset.mem_symmDiff.mpr (Or.inr (Finset.mem_sdiff.mp (surplus member)))
          · exact apart.subset
        · refine ⟨⟨.minus, some (pack [] (lacking confirmed wanted))⟩, ?_, rfl⟩
          rw [grown]
          exact List.mem_append_right _ (List.mem_singleton.mpr rfl)
        · exact surplus
      · have missing := asks_lacking wantedKeyed some_
        rw [server, ← sets] at missing
        apply Stage.asked (.add ((pack [] (lacking wanted confirmed)).splitOn ','))
        · constructor
          · exact Option.isSome_iff_exists.mpr ⟨wanted, wants⟩
          · rfl
          · exact keysOf_nonempty (List.splitOn_ne_nil _ _)
          · rw [← apart]
            exact fun key member => Finset.mem_symmDiff.mpr (Or.inl (Finset.mem_sdiff.mp (missing member)))
          · exact apart.subset
        · refine ⟨⟨.plus, some (pack [] (lacking wanted confirmed))⟩, ?_, rfl⟩
          rw [grown]
          exact List.mem_append_right _ (List.mem_singleton.mpr rfl)
        · exact missing
  | asked change underway pending planned =>
      have same := sent_list w.client now (linked.sends_list underway.submitted next)
      have sets : World.wantedSet net
          { w with
            client := w.client.sent command now true
            toServer := w.toServer ++ [command] } = w.wantedSet net := wantedSet_congr same.1
      have after : Underway net start
          { w with
            client := w.client.sent command now true
            toServer := w.toServer ++ [command] } change := underway.congr same.1 rfl same.2
      apply Stage.asked change after
      · rcases pending with ⟨asked, inside, asks⟩
        refine ⟨asked, ?_, asks⟩
        rw [grown]
        exact List.mem_append_left _ inside
      · rwa [sets]
  | taken change underway gone taken =>
      have kind := linked.sends_list underway.submitted next
      have same := sent_list w.client now kind
      have sets : World.wantedSet net
          { w with
            client := w.client.sent command now true
            toServer := w.toServer ++ [command] } = w.wantedSet net := wantedSet_congr same.1
      have after : Underway net start
          { w with
            client := w.client.sent command now true
            toServer := w.toServer ++ [command] } change := underway.congr same.1 rfl same.2
      apply Stage.taken change after
      · intro other member
        rw [grown] at member
        rcases List.mem_append.mp member with before | new_
        · exact gone other before
        · rcases kind with rfl | rfl
          · exact List.mem_singleton.mp new_
          · cases new_
      · rwa [sets]

theorem Stage.polls (unsettled : Unsettled net start) (linked : Linked net w)
    (proper : Proper w.client) (stage : Stage net start w) (now : Nat) (sends : List Bool) :
    Stage net start (World.polls now sends w) := by
  induction sends generalizing w with
  | nil => exact stage
  | cons ok rest ih =>
      rw [World.polls]
      cases next : w.client.nextCommand now with
      | none => exact stage
      | some command =>
          cases ok with
          | false => exact stage.congr rfl rfl rfl (fun _ => rfl) (fun none_ => none_) rfl
          | true =>
              exact ih (linked.send next) (proper.sent command now true)
                (stage.send unsettled linked proper next)

theorem Stage.tick (unsettled : Unsettled net start) (linked : Linked net w)
    (proper : Proper w.client) (stage : Stage net start w) (now : Nat) (sends : List Bool) :
    Stage net start (w.tick now sends) := by
  unfold World.tick
  rw [if_pos linked.online]
  have later : Stage net start { w with client := w.client.expire now } := by
    have waits : w.client.snapshot = none → (w.client.expire now).snapshot = none := by
      intro none_
      simp [MonitorState.expire, none_]
    exact stage.congr rfl rfl rfl (fun _ => rfl) waits rfl
  exact later.polls unsettled (linked.expire now) (proper.expire now) now sends

theorem serve_wanted (net : Network) (w : World) (answer : Answer) :
    (w.serve net answer).client = w.client := by
  unfold World.serve
  split
  · rfl
  · split <;> rfl

/-- What the server made of a change. -/
def Served (net : Network) (held held' : Finset Str) : Change → Prop
  | .add names => held ⊆ held' ∧ held' ⊆ held ∪ keysOf net.mapping names
  | .remove names => held' = held \ keysOf net.mapping names
  | .clear => False

theorem Planned.served {wanted held held' : Finset Str} {change : Change}
    (planned : Planned net wanted held change) (served : Served net held held' change) :
    Taken net wanted held' change ∧ symmDiff wanted held' ⊆ symmDiff wanted held := by
  cases change with
  | add names =>
      constructor
      · intro key member
        exact (Finset.mem_sdiff.mp (planned (Finset.mem_inter.mp member).1)).1
      · intro key member
        have older := @served.1 key
        have newer := @served.2 key
        have asks := @planned key
        simp only [Finset.mem_symmDiff, Finset.mem_union, Finset.mem_sdiff] at *
        grind
  | remove names =>
      have let_ : held' = held \ keysOf net.mapping names := served
      constructor
      · show keysOf net.mapping names ∩ (held' ∪ wanted) = ∅
        rw [let_, Finset.eq_empty_iff_forall_notMem]
        intro key member
        have asks := @planned key
        simp only [Finset.mem_inter, Finset.mem_union, Finset.mem_sdiff] at *
        grind
      · intro key member
        have asks := @planned key
        rw [let_] at member
        simp only [Finset.mem_symmDiff, Finset.mem_sdiff] at *
        grind
  | clear => cases planned

/-- Between the rounds no change is on its way. -/
theorem Stage.unsubmitted (unsettled : Unsettled net start) (linked : Linked net w)
    (confirmed : w.client.confirmed = start.client.confirmed) : w.client.submitted = none := by
  rcases Option.isSome_iff_exists.mp unsettled.confirmed with ⟨names, held⟩
  exact (linked.confirmed names (confirmed.trans held)).2

/-- The server takes the round's change in, and answers for the list. -/
theorem Stage.serve (unsettled : Unsettled net start) (linked : Linked net w)
    (stage : Stage net start w) {answer : Answer}
    (faithful : ∀ command ∈ w.toServer.head?, Faithful net w.held command answer) :
    Stage net start (w.serve net answer) := by
  cases queue : w.toServer with
  | nil =>
      have same : w.serve net answer = w := by
        unfold World.serve
        rw [queue]
      rw [same]
      exact stage
  | cons command rest =>
      have fair := faithful command (by rw [queue]; rfl)
      have client := serve_wanted net w answer
      have sets : (w.serve net answer).wantedSet net = w.wantedSet net :=
        wantedSet_congr (by rw [client])
      have left_ : (w.serve net answer).commands = World.commands { w with toServer := rest } := by
        unfold World.commands World.serve
        rw [queue]
        dsimp only
        split <;> rfl
      by_cases idle : command.isStatus = true
      · have status : command.operation = .status := by simpa [Command.isStatus] using idle
        have held : (w.serve net answer).held = w.held := by
          unfold World.serve
          rw [queue]
          simp only [status]
        have same : (w.serve net answer).commands = w.commands := by
          rw [left_]
          simp [World.commands, queue, idle]
        exact stage.congr (by rw [client]) held (by rw [client]) (fun _ => by rw [client])
          (fun none_ => by rw [client]; exact none_) same
      · have front : w.commands = command :: World.commands { w with toServer := rest } := by
          simp [World.commands, queue, idle]
        have pipe := linked.pipe
        rw [front] at pipe
        rcases pipe.serve with ⟨rfl, empty, _⟩ | ⟨change, asks, submitted, lists, _⟩
        · have held : (w.serve net answer).held = w.held := by
            unfold World.serve
            rw [queue]
            rfl
          cases stage with
          | idle wanted_ confirmed_ held_ snapshot_ =>
              apply Stage.idle
              · rw [client]
                exact wanted_
              · rw [client]
                exact confirmed_
              · exact held.trans held_
              · rw [client]
                exact snapshot_
          | asked change underway pending planned =>
              rcases pending with ⟨other, inside, asks⟩
              rw [front, empty] at inside
              rw [List.mem_singleton.mp inside] at asks
              cases asks
          | taken change underway gone taken =>
              apply Stage.taken change (underway.congr (by rw [client]) held (by rw [client]))
              · intro other member
                rw [left_, empty] at member
                cases member
              · rwa [sets, held]
        · cases stage with
          | idle wanted_ confirmed_ held_ snapshot_ =>
              rw [Stage.unsubmitted unsettled linked confirmed_] at submitted
              cases submitted
          | taken other underway gone taken =>
              have listed := gone command (by rw [front]; exact List.mem_cons_self)
              rw [listed] at asks
              cases asks
          | asked other underway pending planned =>
              have same : other = change := by
                have both := underway.submitted.symm.trans submitted
                exact Option.some.inj both
              subst same
              have served : Served net w.held (w.serve net answer).held other := by
                rcases asked_eq_some asks with ⟨plus, rfl⟩ | ⟨minus, rfl⟩
                · simp only [Faithful, plus] at fair
                  unfold World.serve
                  rw [queue]
                  simp only [plus]
                  exact ⟨fair.1, fair.2.1⟩
                · unfold World.serve
                  rw [queue]
                  simp only [minus]
                  exact rfl
              have after := planned.served served
              apply Stage.taken other
              · constructor
                · rw [client]
                  exact underway.wanted
                · rw [client]
                  exact underway.submitted
                · exact underway.asks
                · exact underway.within
                · rw [World.apart, sets]
                  exact after.2.trans underway.near
              · intro more member
                rw [left_] at member
                exact lists more member
              · rw [sets]
                exact after.1

/-- A list that is not confirmed changes neither the targets nor the round's change. -/
theorem receiveEnd_unconfirmed {m : MonitorState} {snapshot : Snapshot}
    (running : m.snapshot = some snapshot) (none_ : m.receiveEnd.confirmed = none) :
    m.receiveEnd.wanted = m.wanted ∧ m.receiveEnd.submitted = m.submitted := by
  unfold MonitorState.receiveEnd at none_ ⊢
  rw [running] at none_ ⊢
  dsimp only at none_ ⊢
  split
  · exact ⟨rfl, rfl⟩
  · next fine =>
      rw [if_neg fine] at none_
      cases none_

theorem Taken.full {wanted held : Finset Str} {change : Change} (taken : Taken net wanted held change)
    {names : Finset Str} (absent : names ∩ held = ∅) : Taken net (wanted \ names) held change := by
  have apart : ∀ key ∈ names, key ∉ held := by
    intro key member inside
    have both := Finset.mem_inter.mpr ⟨member, inside⟩
    rw [absent] at both
    exact Finset.notMem_empty _ both
  cases change with
  | add asks =>
      intro key member
      have known := taken member
      have inside := (Finset.mem_inter.mp member).2
      exact Finset.mem_sdiff.mpr ⟨known, fun named => apart key named inside⟩
  | remove asks =>
      show keysOf net.mapping asks ∩ (held ∪ wanted \ names) = ∅
      have gone : keysOf net.mapping asks ∩ (held ∪ wanted) = ∅ := taken
      apply Finset.subset_empty.mp
      rw [← gone]
      apply Finset.inter_subset_inter_left
      exact Finset.union_subset_union_right Finset.sdiff_subset
  | clear => cases taken

/-- Rejections are told of a change only, and after the server took it. -/
theorem Pipe.full_submitted {held : Finset Str} {submitted : Option Change}
    {snapshot : Option Snapshot} {commands : List Command} {replies rest : List Reply}
    (pipe : Pipe net held submitted snapshot commands replies) {names : List Str}
    (next : replies = .full names :: rest) :
    submitted ≠ none ∧ ∀ command ∈ commands, command.asked = none := by
  have told : ∀ fulls : List (List Str), Rejected net submitted held fulls → fulls ≠ [] →
      submitted ≠ none := fun fulls rejected some_ none_ => some_ (rejected.asked none_)
  cases pipe with
  | told _ fulls rejected =>
      cases fulls with
      | nil => cases next
      | cons first fulls =>
          exact ⟨told _ rejected (List.cons_ne_nil _ _), fun _ member => (by cases member)⟩
  | listing _ fulls snapshot rejected fresh =>
      cases fulls with
      | nil => cases next
      | cons first fulls =>
          refine ⟨told _ rejected (List.cons_ne_nil _ _), ?_⟩
          intro command member
          rw [List.mem_singleton.mp member]
          rfl
  | answered _ fulls lines snapshot rejected content =>
      cases fulls with
      | nil =>
          cases lines with
          | nil => cases next
          | cons line lines => cases next
      | cons first fulls =>
          exact ⟨told _ rejected (List.cons_ne_nil _ _), fun _ member => (by cases member)⟩
  | asked command change asks => cases next
  | askedListing command change snapshot asks fresh => cases next

/-- Names taken out under the network's mapping are taken out of the wanted set. -/
theorem wantedSet_removeAll (proper : Proper w.client) (mapping : w.client.mapping = net.mapping)
    {w' : World} {names : List Str}
    (wanted : w'.client.wanted = w.client.wanted.map fun held => held.removeAll w.client.mapping names) :
    w'.wantedSet net = w.wantedSet net \ keysOf net.mapping names := by
  cases held : w.client.wanted with
  | none =>
      rw [held] at wanted
      rw [wantedSet_none held, wantedSet_none wanted, Finset.empty_sdiff]
  | some known =>
      rw [held, Option.map_some, mapping] at wanted
      have keyed : Keyed net.mapping known := mapping ▸ proper.wanted known held
      rw [wantedSet_some held, wantedSet_some wanted, (keyed.removeAll names).keysOf_values,
        keyed.keysOf_values, keys_removeAll]

/-- An answer that ends no round. -/
theorem Stage.receive (unsettled : Unsettled net start) (linked : Linked net w)
    (proper : Proper w.client) (stage : Stage net start w)
    (open_ : w.toClient.head? = some .endOfList → w.receive.client.confirmed = none) :
    Stage net start w.receive := by
  cases queue : w.toClient with
  | nil =>
      rw [receive_nil queue]
      exact stage
  | cons reply rest =>
      rw [queue] at open_
      rw [receive_cons queue] at open_ ⊢
      have pipe := linked.pipe
      cases reply with
      | status online masks =>
          simp only [receive_status]
          exact stage.congr rfl rfl rfl (fun _ => rfl) (fun none_ => none_) rfl
      | line names =>
          have front : w.replies = .line names :: World.replies { w with toClient := rest } := by
            simp [World.replies, queue, Reply.isStatus]
          rcases pipe.line front with ⟨_, before, running, _⟩
          rw [receive_line linked.supported]
          have never (none_ : w.client.snapshot = none) : False := by
            rw [none_] at running
            cases running
          exact stage.congr rfl rfl rfl (fun none_ => (never none_).elim)
            (fun none_ => (never none_).elim) rfl
      | full names =>
          have front : w.replies = .full names :: World.replies { w with toClient := rest } := by
            simp [World.replies, queue, Reply.isStatus]
          rcases pipe.full front with ⟨joinable, absent, _⟩
          rw [receive_full linked.supported, receiveFull_eq joinable]
          have told := pipe.full_submitted front
          cases stage with
          | idle wanted_ confirmed_ held_ snapshot_ =>
              exact absurd (Stage.unsubmitted unsettled linked confirmed_) told.1
          | asked change underway pending planned =>
              rcases pending with ⟨command, inside, asks⟩
              rw [told.2 command inside] at asks
              cases asks
          | taken change underway gone taken =>
              have sets : World.wantedSet net
                  { w with
                    client := { w.client with
                      wanted := w.client.wanted.map fun held =>
                        held.removeAll w.client.mapping names }
                    toClient := rest } = w.wantedSet net \ keysOf net.mapping names :=
                wantedSet_removeAll proper linked.mapping rfl
              apply Stage.taken change
              · refine ⟨?_, underway.submitted, underway.asks, underway.within, ?_⟩
                · rw [Option.isSome_map]
                  exact underway.wanted
                apply Finset.Subset.trans _ underway.near
                rw [World.apart, sets, World.apart]
                intro key member
                have apart (both : key ∈ keysOf net.mapping names ∧ key ∈ w.held) : False := by
                  have inside := Finset.mem_inter.mpr both
                  rw [absent] at inside
                  exact Finset.notMem_empty _ inside
                simp only [Finset.mem_symmDiff, Finset.mem_sdiff] at member ⊢
                grind
              · exact gone
              · rw [sets]
                exact taken.full absent
      | endOfList =>
          have front : w.replies = .endOfList :: World.replies { w with toClient := rest } := by
            simp [World.replies, queue, Reply.isStatus]
          rcases pipe.ended front with ⟨commands, _, before, running, _⟩
          have unconfirmed := open_ rfl
          simp only [receive_end linked.supported] at unconfirmed ⊢
          have same := receiveEnd_unconfirmed running unconfirmed
          have never (none_ : w.client.snapshot = none) : False := by
            rw [none_] at running
            cases running
          exact stage.congr same.1 rfl same.2 (fun none_ => (never none_).elim)
            (fun none_ => (never none_).elim) rfl

/-- What is given up at the end of a round leaves nothing of its change apart. -/
theorem Taken.settled {wanted held : Finset Str} {change : Change}
    (taken : Taken net wanted held change) :
    symmDiff (wanted \ givenUp net.mapping held (some change)) held ⊆
      symmDiff wanted held \ keysOf net.mapping change.names := by
  cases change with
  | add names =>
      intro key member
      have known := @taken key
      simp only [givenUp, Change.names, Finset.mem_symmDiff, Finset.mem_sdiff,
        Finset.mem_inter] at *
      grind
  | remove names =>
      have gone : keysOf net.mapping names ∩ (held ∪ wanted) = ∅ := taken
      intro key member
      have absent : key ∉ keysOf net.mapping names ∩ (held ∪ wanted) := by
        rw [gone]
        exact Finset.notMem_empty key
      simp only [givenUp, Change.names, Finset.mem_symmDiff, Finset.mem_sdiff, Finset.mem_inter,
        Finset.mem_union, Finset.sdiff_empty] at *
      grind
  | clear => cases taken

/-- The end of a round: the sets are closer than at its start. -/
theorem Stage.complete (linked : Linked net w) (proper : Proper w.client)
    (stage : Stage net start w) (ends : w.toClient.head? = some .endOfList)
    (confirmed : w.receive.client.confirmed.isSome = true) : w.receive.gap net < start.gap net := by
  cases queue : w.toClient with
  | nil =>
      rw [queue] at ends
      cases ends
  | cons reply rest =>
      rw [queue] at ends
      obtain rfl : reply = .endOfList := Option.some.inj ends
      have front : w.replies = .endOfList :: World.replies { w with toClient := rest } := by
        simp [World.replies, queue, Reply.isStatus]
      rcases linked.pipe.ended front with ⟨commands, _, before, running, whole⟩
      have later := linked.receive proper
      rw [receive_cons queue] at confirmed later ⊢
      simp only [receive_end linked.supported] at confirmed later ⊢
      cases stage with
      | idle wanted_ confirmed_ held_ snapshot_ =>
          rw [snapshot_] at running
          cases running
      | asked change underway pending planned =>
          rcases pending with ⟨command, inside, asks⟩
          rw [commands] at inside
          cases inside
      | taken change underway gone taken =>
          rcases Option.isSome_iff_exists.mp underway.wanted with ⟨names, known⟩
          rcases receiveEnd_cases known running with ⟨_, none_⟩ | ⟨valid, live, updated, wanted, keys⟩
          · rw [none_] at confirmed
            cases confirmed
          · rw [whole live valid, underway.submitted, linked.mapping,
              ← wantedSet_keys proper linked.mapping known] at keys
            have sets : World.wantedSet net
                { w with client := w.client.receiveEnd, toClient := rest } = updated.keys :=
              wantedSet_keys later.2 later.1.mapping wanted
            rw [World.gap, sets, keys]
            apply Reconcile.gap_lt underway.asks underway.within
            apply (taken.settled).trans
            exact Finset.sdiff_subset_sdiff underway.near (Finset.Subset.refl _)

/-- An event of a round that does not end it. -/
theorem Stage.goesOn (unsettled : Unsettled net start) (sound : Sound net w) (linked : Linked net w)
    (stage : Stage net start w) {event : Event} (quiet : event.isQuiet = true)
    (allowed : Allowed net w event) (goesOn : ¬Completes net w event) :
    Stage net start (exec net w event) ∧ Linked net (exec net w event) := by
  have told := ensure_linked linked
  cases event with
  | edit change => cases quiet
  | askList =>
      rw [exec, told]
      refine ⟨stage.congr rfl rfl rfl (fun _ => rfl) (fun none_ => none_) rfl, ?_⟩
      exact ⟨linked.online, linked.mapping, linked.supported, linked.pipe, linked.confirmed⟩
  | askStatus =>
      rw [exec, told]
      refine ⟨stage.congr rfl rfl rfl (fun _ => rfl) (fun none_ => none_) rfl, ?_⟩
      exact ⟨linked.online, linked.mapping, linked.supported, linked.pipe, linked.confirmed⟩
  | tick now sends =>
      rw [exec, told]
      refine ⟨stage.tick unsettled linked sound.proper now sends, ?_⟩
      unfold World.tick
      rw [if_pos linked.online]
      exact ((linked.expire now).polls (sound.proper.expire now) now sends).1
  | serve answer => exact ⟨stage.serve unsettled linked allowed, linked.serve allowed⟩
  | presence online masks =>
      have same : World.replies { w with toClient := w.toClient ++ [.status online masks] } =
          w.replies := by
        simp [World.replies, Reply.isStatus]
      refine ⟨stage.congr rfl rfl rfl (fun _ => rfl) (fun none_ => none_) rfl, ?_⟩
      exact ⟨linked.online, linked.mapping, linked.supported, same.symm ▸ linked.pipe,
        linked.confirmed⟩
  | receive =>
      rw [exec, told]
      refine ⟨stage.receive unsettled linked sound.proper ?_, (linked.receive sound.proper).1⟩
      intro ends
      by_contra confirmed
      apply goesOn
      refine ⟨rfl, ends, ?_⟩
      rw [exec, told]
      exact Option.isSome_iff_ne_none.mpr confirmed
  | disconnect => cases quiet
  | connect held => cases quiet

/-- The events of a round, up to the one that ends it. -/
def GoesOn (net : Network) (w : World) (event : Event) : Prop :=
  event.isQuiet = true ∧ Allowed net w event ∧ ¬Completes net w event

theorem round_run (unsettled : Unsettled net start) {events : List Event}
    (round : Along (GoesOn net) (exec net) w events) (sound : Sound net w) (linked : Linked net w)
    (stage : Stage net start w) :
    Sound net (runFrom (exec net) w events) ∧ Linked net (runFrom (exec net) w events) ∧
      Stage net start (runFrom (exec net) w events) := by
  have keeps : ∀ w event, (Sound net w ∧ Linked net w ∧ Stage net start w) → GoesOn net w event →
      Sound net (exec net w event) ∧ Linked net (exec net w event) ∧
        Stage net start (exec net w event) := by
    rintro w event ⟨sound, linked, stage⟩ ⟨quiet, allowed, goesOn⟩
    have next := stage.goesOn unsettled sound linked quiet allowed goesOn
    exact ⟨sound.exec allowed, next.2, next.1⟩
  exact round.invariant keeps ⟨sound, linked, stage⟩

/-- A round that is completed brings the sets closer. -/
theorem round_shrinks (sound : Sound net start) (unsettled : Unsettled net start)
    {round : List Event} {last : Event} (goesOn : Along (GoesOn net) (exec net) start round)
    (completes : Completes net (runFrom (exec net) start round) last) :
    (exec net (runFrom (exec net) start round) last).gap net < start.gap net := by
  have linked : Linked net start := by
    rcases sound.link with linked | silent
    · exact linked
    · have known := unsettled.confirmed
      rw [silent.confirmed] at known
      cases known
  have begins : Stage net start start := Stage.idle rfl rfl rfl unsettled.idle
  rcases round_run unsettled goesOn sound linked begins with ⟨sound_, linked_, stage⟩
  rcases completes with ⟨rfl, ends, confirmed⟩
  rw [exec, ensure_linked linked_] at confirmed ⊢
  exact stage.complete linked_ sound_.proper ends confirmed

end Rounds

section Reached

variable (net : Network) (mapping : Str)

/-- The three sets are one. -/
def World.Agrees (w : World) : Prop :=
  ∃ confirmed wanted, w.client.confirmed = some confirmed ∧ w.client.wanted = some wanted ∧
    confirmed.keys = w.held ∧ wanted.keys = w.held

/-- In every state that is reached: a client that thinks itself synchronized is; a round that is
completed while the user makes no change brings the wanted set and the server's closer; and what the
server holds leaves the wanted set by the user's hand only, in every event before which no two targets
fall together that the network tells apart. -/
theorem monitor_synchronizes {events : List Event}
    (allowed : Along (Allowed net) (exec net) (World.start mapping) events) :
    ((runFrom (exec net) (World.start mapping) events).client.synchronized = true →
        (runFrom (exec net) (World.start mapping) events).Agrees) ∧
      (Unsettled net (runFrom (exec net) (World.start mapping) events) →
        ∀ round last,
          Along (GoesOn net) (exec net) (runFrom (exec net) (World.start mapping) events) round →
          Completes net (runFrom (exec net) (World.start mapping) (events ++ round)) last →
          (exec net (runFrom (exec net) (World.start mapping) (events ++ round)) last).gap net <
            (runFrom (exec net) (World.start mapping) events).gap net) ∧
      ∀ event target, Allowed net (runFrom (exec net) (World.start mapping) events) event →
        Distinct net (runFrom (exec net) (World.start mapping) events) event →
        target ∈ (runFrom (exec net) (World.start mapping) events).wantedSet net →
        target ∈ (runFrom (exec net) (World.start mapping) events).held →
        target ∉ (exec net (runFrom (exec net) (World.start mapping) events) event).wantedSet net →
        ∃ change, event = .edit change ∧ change.Removes net target := by
  have sound := sound_run (sound_start mapping) allowed
  refine ⟨sound.agree, ?_, ?_⟩
  · intro unsettled round last goesOn completes
    rw [runFrom_append] at completes ⊢
    exact round_shrinks sound unsettled goesOn completes
  · intro event target allows distinct wanted held gone
    rcases exec_loses sound allows distinct wanted gone with removed | ⟨_, absent⟩
    · exact removed
    · exact absurd held absent

end Reached

/-- A network that tells brackets and braces apart. -/
def asciiNet : Network := ⟨"ascii".toList, none⟩

def bracket : Str := "a[".toList
def brace : Str := "a\x7b".toList

/-- Two targets are added, and both are accepted. -/
def bothAccepted : List Event :=
  [.connect ∅, .tick 0 [true], .serve ⟨∅, [], []⟩, .receive, .edit (.add [bracket, brace]),
    .tick 0 [true, true], .serve ⟨{bracket, brace}, [], []⟩,
    .serve ⟨∅, [], [[bracket, brace]]⟩, .receive, .receive]

theorem bothAccepted_allowed :
    Along (Allowed asciiNet) (exec asciiNet) (World.start defaultMapping) bothAccepted := by
  decide +kernel

/-- Where the client stands then. -/
def accepted : World := runFrom (exec asciiNet) (World.start defaultMapping) bothAccepted

theorem monitor_synchronizes_accepted :
    (accepted.client.synchronized = true → accepted.Agrees) ∧
      (Unsettled asciiNet accepted → ∀ round last,
        Along (GoesOn asciiNet) (exec asciiNet) accepted round →
        Completes asciiNet
          (runFrom (exec asciiNet) (World.start defaultMapping) (bothAccepted ++ round)) last →
        (exec asciiNet (runFrom (exec asciiNet) (World.start defaultMapping)
          (bothAccepted ++ round)) last).gap asciiNet < accepted.gap asciiNet) ∧
      ∀ event target, Allowed asciiNet accepted event → Distinct asciiNet accepted event →
        target ∈ accepted.wantedSet asciiNet → target ∈ accepted.held →
        target ∉ (exec asciiNet accepted event).wantedSet asciiNet →
        ∃ change, event = .edit change ∧ change.Removes asciiNet target :=
  monitor_synchronizes asciiNet defaultMapping bothAccepted_allowed

/-- The connection is lost, and the client folds its targets anew. -/
theorem accepted_target_lost :
    accepted.client.synchronized = true ∧ bracket ∈ accepted.wantedSet asciiNet ∧
      bracket ∈ accepted.held ∧
      Along (Allowed asciiNet) (exec asciiNet) accepted [.disconnect, .tick 0 []] ∧
      bracket ∉
        (runFrom (exec asciiNet) accepted [.disconnect, .tick 0 []]).wantedSet asciiNet := by
  decide +kernel

end Repartee.Monitor
