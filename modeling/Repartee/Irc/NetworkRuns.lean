import Repartee.Irc.BouncerNetworks

/-!
A bouncer that tells of every change of its networks and sends snapshots of them in between, and
the registry that follows it.
-/

namespace Repartee.Irc

open Text Lib

/-! ### The bouncer -/

/-- The attributes of a network that has any. -/
abbrev Known : Type := Str → Option Str

def unknown : Known := fun _ => none

structure BouncerServer where
  networks : Str → Option Known
  /-- The snapshots under way by their tags, each with the networks it has told of. -/
  snapshots : Str → Option (Str → Prop)

def BouncerServer.new : BouncerServer := ⟨fun _ => none, fun _ => none⟩

inductive BouncerAct where
  /-- A network appears or changes, and the line says how. -/
  | change (id : Str) (attributes : Known) (text : Str)
  | remove (id : Str)
  | openSnapshot (tag : Str)
  | list (tag id text : Str)
  | closeSnapshot (tag : Str)
  /-- A line about a network that cannot be read. -/
  | garble
  | other
  /-- Time passes on the side of the client. -/
  | tick

structure BouncerOp where
  now : Nat
  act : BouncerAct
  message : Message

def BouncerServer.act (server : BouncerServer) : BouncerAct → BouncerServer
  | .change id attributes _ =>
      { networks := fun x => if x = id then some attributes else server.networks x
        -- a network that appears while a snapshot is under way needs no line in it
        snapshots := fun tag => (server.snapshots tag).map fun told x =>
          told x ∨ (x = id ∧ server.networks id = none) }
  | .remove id => { server with networks := fun x => if x = id then none else server.networks x }
  | .openSnapshot tag =>
      { server with snapshots := fun x =>
          if x = tag then some fun _ => False else server.snapshots x }
  | .list tag id _ =>
      { server with snapshots := fun x =>
          if x = tag then (server.snapshots tag).map fun told y => told y ∨ y = id
          else server.snapshots x }
  | .closeSnapshot tag =>
      { server with snapshots := fun x => if x = tag then none else server.snapshots x }
  | .garble | .other | .tick => server

/-- The value a list of tags ends up with for a key. -/
def lastValue (key : Str) : List (Str × Option Str) → Option (Option Str)
  | [] => none
  | tag :: rest => (lastValue key rest).or (if tag.1 = key then some tag.2 else none)

/-- The attributes the tags lead to; an empty value clears. -/
def described (tags : List (Str × Option Str)) (before : Known) : Known := fun key =>
  match lastValue key tags with
  | none => before key
  | some value => value.filter fun value => decide (value ≠ [])

/-- The text says what becomes of the attributes. -/
def Tells (readTags : TagReader) (text : Str) (before after : Known) : Prop :=
  text ≠ [] ∧ text ≠ "*".toList ∧ ∃ tags, readTags text = some tags ∧ after = described tags before

/-- A line about the network, in a batch or outside of all. -/
def NetworkLine (message : Message) (batch : Option Str) (id text : Str) : Prop :=
  getBatchTag message = batch ∧ ∃ command sub spelled,
    message.command = .raw command [sub, spelled, text] ∧
      isNetworkLine command [sub, spelled, text] = true ∧ normalizeNetworkId spelled = some id

/-- What the server does, and the message it sends with it. -/
def Conduct (readTags : TagReader) (server : BouncerServer) (op : BouncerOp) : Prop :=
  match op.act with
  | .change id attributes text => NetworkLine op.message none id text ∧
      Tells readTags text ((server.networks id).getD unknown) attributes
  | .remove id => NetworkLine op.message none id "*".toList
  | .openSnapshot tag => server.snapshots tag = none ∧ ∃ kind params,
      op.message.command = .batch ('+' :: tag) (some kind) params ∧
        eqNocase kind networksCap = true
  | .list tag id text => (server.snapshots tag).isSome = true ∧
      NetworkLine op.message (some tag) id text ∧
      ∃ attributes, server.networks id = some attributes ∧ Tells readTags text unknown attributes
  | .closeSnapshot tag => ∃ told, server.snapshots tag = some told ∧
      (∀ id attributes, server.networks id = some attributes → told id) ∧
      ∃ kind params, op.message.command = .batch ('-' :: tag) kind params
  | .garble => ∃ command args, op.message.command = .raw command args ∧
      isNetworkLine command args = true ∧ parseUpdate readTags args = none
  | .other => match op.message.command with
      | .raw command args => isNetworkLine command args = false
      | .batch ('+' :: _) kind _ => (kind.any fun kind => eqNocase kind networksCap) = false
      | .batch ('-' :: tag) _ _ => server.snapshots tag = none
      | _ => True
  | .tick => True

/-- The text holds no white space and no control character. -/
def PlainText (text : Str) : Prop := (text.any fun c => isWhitespace c || isControl c) = false

instance (text : Str) : Decidable (PlainText text) := inferInstanceAs (Decidable (_ = _))

def BouncerAct.Plain : BouncerAct → Prop
  | .change _ _ text => PlainText text
  | .list _ _ text => PlainText text
  | _ => True

instance (act : BouncerAct) : Decidable act.Plain := by
  cases act <;> simp only [BouncerAct.Plain] <;> infer_instance

structure BouncerWorld where
  server : BouncerServer
  registry : NetworkRegistry

def BouncerWorld.new : BouncerWorld := ⟨.new, .new⟩

section Worlds

variable (readTags : TagReader)

def BouncerWorld.receive (w : BouncerWorld) (op : BouncerOp) : NetworkRegistry × RegistryEvent :=
  match op.act with
  | .tick => (w.registry.expire op.now, .unrelated)
  | _ => w.registry.handle readTags op.now op.message

def BouncerWorld.exec (w : BouncerWorld) (op : BouncerOp) : BouncerWorld :=
  ⟨w.server.act op.act, (w.receive readTags op).1⟩

def BouncerWorld.run (ops : List BouncerOp) : BouncerWorld :=
  runFrom (BouncerWorld.exec readTags) .new ops

end Worlds

/-! ### What the registry holds of a network -/

section Views

def Network.known (network : Network) : Known := network.attributes.get?

def view (networks : Map Str Network) (id : Str) : Option Known :=
  (networks.get? id).map Network.known

/-- Each network is filed under its own id. -/
def Filed (networks : Map Str Network) : Prop :=
  ∀ id network, networks.get? id = some network → network.id = id

theorem known_setAttribute (network : Network) (entry : Str × Option Str) (key : Str) :
    (network.setAttribute entry).known key =
      if entry.1 = key then entry.2.filter fun value => decide (value ≠ [])
      else network.known key := by
  simp only [Network.setAttribute]
  cases kept : entry.2.filter fun value => decide (value ≠ []) with
  | none => simp [Network.known, Map.get?_erase]
  | some value => simp [Network.known, Map.get?_insert]

@[simp] theorem id_setAttribute (network : Network) (entry : Str × Option Str) :
    (network.setAttribute entry).id = network.id := by
  simp only [Network.setAttribute]
  split <;> rfl

theorem known_setAttributes (entries : List (Str × Option Str))
    (distinct : (entries.map Prod.fst).Nodup) (network : Network) (key : Str) :
    (entries.foldl Network.setAttribute network).known key =
      match entries.find? fun entry => decide (entry.1 = key) with
      | none => network.known key
      | some entry => entry.2.filter fun value => decide (value ≠ []) := by
  induction entries generalizing network with
  | nil => rfl
  | cons entry rest ih =>
      rw [List.map_cons, List.nodup_cons] at distinct
      rw [List.foldl_cons, ih distinct.2, known_setAttribute]
      by_cases here : entry.1 = key
      · have gone : rest.find? (fun entry => decide (entry.1 = key)) = none := by
          rw [List.find?_eq_none]
          intro other member same
          exact distinct.1 (List.mem_map.mpr ⟨other, member, by simpa [here] using same⟩)
        simp [here, gone]
      · simp [here]

theorem known_applied (attributes : Attributes) (network : Network) (key : Str) :
    (attributes.rows.foldl Network.setAttribute network).known key =
      match attributes.get? key with
      | none => network.known key
      | some value => value.filter fun value => decide (value ≠ []) := by
  rw [known_setAttributes _ attributes.unique, Map.get?, Table.find?]
  cases attributes.rows.find? fun entry => decide (entry.1 = key) <;> rfl

theorem id_setAttributes (entries : List (Str × Option Str)) (network : Network) :
    (entries.foldl Network.setAttribute network).id = network.id := by
  induction entries generalizing network with
  | nil => rfl
  | cons entry rest ih => rw [List.foldl_cons, ih, id_setAttribute]

theorem get?_attributesOf (tags : List (Str × Option Str)) (key : Str) :
    (attributesOf tags).get? key = lastValue key tags := by
  have fold : ∀ attributes : Attributes,
      (tags.foldl (fun attributes tag => Map.insert attributes tag.1 tag.2) attributes).get? key =
        (lastValue key tags).or (attributes.get? key) := by
    induction tags with
    | nil => exact fun _ => rfl
    | cons tag rest ih =>
        intro attributes
        rw [List.foldl_cons, ih, Map.get?_insert, lastValue]
        cases lastValue key rest with
        | some value => rfl
        | none => split <;> rfl
  have start := fold Table.empty
  rw [show Map.get? (Table.empty : Attributes) key = none from rfl, Option.or_none] at start
  exact start

variable {networks : Map Str Network} {id : Str}

theorem view_remove (x : Str) :
    view (applyUpdate networks id none) x = if x = id then none else view networks x := by
  simp only [view, applyUpdate, Map.get?_erase, eq_comm (a := id)]
  split <;> rfl

theorem filed_remove (filed : Filed networks) : Filed (applyUpdate networks id none) := by
  intro x network held
  simp only [applyUpdate, Map.get?_erase] at held
  split at held
  · cases held
  · exact filed x network held

theorem view_update (tags : List (Str × Option Str)) (x : Str) :
    view (applyUpdate networks id (some (attributesOf tags))) x =
      if x = id then some (described tags ((view networks id).getD unknown))
      else view networks x := by
  simp only [view, applyUpdate, Map.get?_insert, eq_comm (a := id)]
  by_cases here : x = id
  · rw [if_pos here, if_pos here, Option.map_some]
    congr 1
    funext key
    rw [known_applied, get?_attributesOf, described]
    cases lastValue key tags with
    | some value => rfl
    | none => cases networks.get? id <;> rfl
  · rw [if_neg here, if_neg here]

theorem filed_update {attributes : Attributes} (filed : Filed networks) :
    Filed (applyUpdate networks id (some attributes)) := by
  intro x network held
  simp only [applyUpdate, Map.get?_insert] at held
  split at held
  · rename_i here
    cases held
    rw [id_setAttributes, ← here]
    cases present : networks.get? id with
    | none => rfl
    | some old => exact filed id old present
  · exact filed x network held

end Views

/-! ### A picture of the server's networks -/

/-- Nothing in the picture is out of date, and what it was told of is there in full. -/
structure Mirrors (server : BouncerServer) (told : Str → Prop) (networks : Map Str Network) :
    Prop where
  filed : Filed networks
  within : ∀ id held, view networks id = some held → ∃ attributes,
    server.networks id = some attributes ∧ ∀ key value, held key = some value →
      attributes key = some value
  complete : ∀ id attributes, told id → server.networks id = some attributes →
    view networks id = some attributes

section Mirrors

variable {server : BouncerServer} {told : Str → Prop} {networks : Map Str Network} {id : Str}
  {tags : List (Str × Option Str)}

theorem Mirrors.weaken (mirrors : Mirrors server told networks) {told' : Str → Prop}
    (fewer : ∀ id, told' id → told id) : Mirrors server told' networks where
  filed := mirrors.filed
  within := mirrors.within
  complete id attributes member held := mirrors.complete id attributes (fewer id member) held

/-- A full picture is the server's own. -/
theorem Mirrors.exact (mirrors : Mirrors server (fun _ => True) networks) :
    view networks = server.networks := by
  funext id
  cases held : server.networks id with
  | some attributes => exact mirrors.complete id attributes trivial held
  | none =>
      cases shown : view networks id with
      | none => rfl
      | some known =>
          rcases mirrors.within id known shown with ⟨attributes, present, -⟩
          rw [held] at present
          cases present

theorem Mirrors.within_known (mirrors : Mirrors server told networks) (id key value : Str)
    (held : (view networks id).getD unknown key = some value) :
    (server.networks id).getD unknown key = some value := by
  cases shown : view networks id with
  | none =>
      rw [shown] at held
      cases held
  | some known =>
      rcases mirrors.within id known shown with ⟨attributes, present, within⟩
      rw [shown] at held
      rw [present]
      exact within key value held

theorem Mirrors.change (mirrors : Mirrors server told networks) (text : Str) :
    Mirrors (server.act (.change id (described tags ((server.networks id).getD unknown)) text))
      (fun x => told x ∨ (x = id ∧ server.networks id = none))
      (applyUpdate networks id (some (attributesOf tags))) where
  filed := filed_update mirrors.filed
  within x held shown := by
    rw [view_update] at shown
    simp only [BouncerServer.act]
    split at shown
    · rename_i here
      cases shown
      refine ⟨_, if_pos here, ?_⟩
      intro key value has
      simp only [described] at has ⊢
      cases said : lastValue key tags with
      | some _ => simpa [said] using has
      | none =>
          simp only [said] at has ⊢
          exact mirrors.within_known id key value has
    · rename_i elsewhere
      rw [if_neg elsewhere]
      exact mirrors.within x held shown
  complete x attributes listed held := by
    rw [view_update]
    simp only [BouncerServer.act] at held
    split at held
    · rename_i here
      cases held
      rw [if_pos here]
      have same : (view networks id).getD unknown = (server.networks id).getD unknown := by
        cases present : server.networks id with
        | some before =>
            have member : told x := by
              rcases listed with member | ⟨-, absent⟩
              · exact member
              · rw [present] at absent
                cases absent
            rw [mirrors.complete id before (here ▸ member) present]
        | none =>
            cases shown : view networks id with
            | none => rfl
            | some known =>
                rcases mirrors.within id known shown with ⟨before, stands, -⟩
                rw [present] at stands
                cases stands
      rw [same]
    · rename_i elsewhere
      rw [if_neg elsewhere]
      rcases listed with member | ⟨here, -⟩
      · exact mirrors.complete x attributes member held
      · exact absurd here elsewhere

theorem Mirrors.remove (mirrors : Mirrors server told networks) :
    Mirrors (server.act (.remove id)) told (applyUpdate networks id none) where
  filed := filed_remove mirrors.filed
  within x held shown := by
    rw [view_remove] at shown
    simp only [BouncerServer.act]
    split at shown
    · cases shown
    · rename_i elsewhere
      rw [if_neg elsewhere]
      exact mirrors.within x held shown
  complete x attributes member held := by
    rw [view_remove]
    simp only [BouncerServer.act] at held
    split at held
    · cases held
    · rename_i elsewhere
      rw [if_neg elsewhere]
      exact mirrors.complete x attributes member held

/-- A line with all the attributes of a network completes what the picture had of it. -/
theorem Mirrors.list (mirrors : Mirrors server told networks)
    (present : server.networks id = some (described tags unknown)) :
    Mirrors server (fun x => told x ∨ x = id)
      (applyUpdate networks id (some (attributesOf tags))) := by
  have full : described tags ((view networks id).getD unknown) = described tags unknown := by
    funext key
    simp only [described]
    cases said : lastValue key tags with
    | some _ => rfl
    | none =>
        cases held : (view networks id).getD unknown key with
        | none => rfl
        | some value =>
            have known := mirrors.within_known id key value held
            rw [present, Option.getD_some, described, said] at known
            cases known
  refine ⟨filed_update mirrors.filed, ?_, ?_⟩
  · intro x held shown
    rw [view_update, full] at shown
    split at shown
    · rename_i here
      cases shown
      exact ⟨_, here ▸ present, fun _ _ has => has⟩
    · exact mirrors.within x held shown
  · intro x attributes listed stands
    rw [view_update, full]
    split
    · rename_i here
      rw [here, present] at stands
      exact stands
    · rename_i elsewhere
      exact mirrors.complete x attributes (listed.resolve_right elsewhere) stands

theorem mirrors_nothing (server : BouncerServer) :
    Mirrors server (fun _ => False) Table.empty where
  filed _ _ held := by cases held
  within _ _ shown := by cases shown
  complete _ _ member := member.elim

end Mirrors

/-! ### Runs -/

/-- Once complete, the registry is a full picture, and what it has of a snapshot is a picture of
all that the snapshot has told of. -/
structure InStep (server : BouncerServer) (registry : NetworkRegistry) : Prop where
  live : registry.complete = true → Mirrors server (fun _ => True) registry.networks
  half : ∀ pending, registry.pending = some pending → ∃ told,
    server.snapshots pending.tag = some told ∧ Mirrors server told pending.networks

section Steps

variable {readTags : TagReader} {server : BouncerServer} {registry : NetworkRegistry}
  {message : Message} {id text : Str} {tags : List (Str × Option Str)}

theorem inStep_new : InStep BouncerServer.new NetworkRegistry.new where
  live absurd := by cases absurd
  half _ absurd := by cases absurd

theorem InStep.expire (inStep : InStep server registry) (now : Nat) :
    InStep server (registry.expire now) where
  live := inStep.live
  half pending held := inStep.half pending (Option.filter_eq_some_iff.mp held).1

theorem parseUpdate_plain (sub : Str) {spelled : Str}
    (normal : normalizeNetworkId spelled = some id)
    (filled : text ≠ []) (kept : text ≠ "*".toList) (plain : PlainText text)
    (reads : readTags text = some tags) :
    parseUpdate readTags [sub, spelled, text] = some (id, some (attributesOf tags)) := by
  have named : text ≠ ['*'] := kept
  simp only [PlainText] at plain
  simp [parseUpdate, normal, filled, named, plain, reads]

/-- A notification changes the networks and the snapshot under way. -/
theorem handle_notification (now : Nat) {command : Str} {args : List Str}
    {update : Option Attributes} (unbatched : getBatchTag message = none) (same : message.command = .raw command args)
    (line : isNetworkLine command args = true)
    (parsed : parseUpdate readTags args = some (id, update)) :
    (registry.handle readTags now message).1 =
      { registry.expire now with
        networks := applyUpdate registry.networks id update
        pending := (registry.expire now).pending.map fun p =>
          { p with networks := applyUpdate p.networks id update } } := by
  simp [NetworkRegistry.handle, same, line, unbatched, NetworkRegistry.handleNetwork, parsed,
    NetworkRegistry.expire]

theorem InStep.notified (inStep : InStep server registry) {server' : BouncerServer}
    {update : Option Attributes}
    (live : ∀ networks, Mirrors server (fun _ => True) networks →
      Mirrors server' (fun _ => True) (applyUpdate networks id update))
    (half : ∀ tag told networks, server.snapshots tag = some told → Mirrors server told networks →
      ∃ told', server'.snapshots tag = some told' ∧
        Mirrors server' told' (applyUpdate networks id update)) :
    InStep server' { registry with
      networks := applyUpdate registry.networks id update
      pending := registry.pending.map fun p =>
        { p with networks := applyUpdate p.networks id update } } where
  live complete := live registry.networks (inStep.live complete)
  half pending held := by
    rcases Option.map_eq_some_iff.mp held with ⟨before, present, rfl⟩
    rcases inStep.half before present with ⟨told, underWay, mirrors⟩
    exact half before.tag told before.networks underWay mirrors

theorem InStep.change (inStep : InStep server registry) (text : Str) :
    InStep (server.act (.change id (described tags ((server.networks id).getD unknown)) text))
      { registry with
        networks := applyUpdate registry.networks id (some (attributesOf tags))
        pending := registry.pending.map fun p =>
          { p with networks := applyUpdate p.networks id (some (attributesOf tags)) } } := by
  apply inStep.notified
  · intro networks mirrors
    exact (mirrors.change text).weaken fun x _ => Or.inl trivial
  · intro tag told networks underWay mirrors
    exact ⟨_, by simp [BouncerServer.act, underWay], mirrors.change text⟩

theorem InStep.remove (inStep : InStep server registry) :
    InStep (server.act (.remove id))
      { registry with
        networks := applyUpdate registry.networks id none
        pending := registry.pending.map fun p =>
          { p with networks := applyUpdate p.networks id none } } := by
  apply inStep.notified
  · intro networks mirrors
    exact mirrors.remove
  · intro tag told networks underWay mirrors
    exact ⟨told, underWay, mirrors.remove⟩

/-- The server tells of one more network in a snapshot; only that snapshot hears of it. -/
theorem InStep.list (inStep : InStep server registry) (tag : Str)
    (present : server.networks id = some (described tags unknown)) :
    InStep (server.act (.list tag id text))
      { registry with pending := registry.pending.map fun p =>
        if p.tag = tag then
          { p with networks := applyUpdate p.networks id (some (attributesOf tags)) }
        else p } where
  live complete :=
    have mirrors := inStep.live complete
    ⟨mirrors.filed, mirrors.within, mirrors.complete⟩
  half pending held := by
    rcases Option.map_eq_some_iff.mp held with ⟨before, present', rfl⟩
    rcases inStep.half before present' with ⟨told, underWay, mirrors⟩
    by_cases here : before.tag = tag
    · have listed := mirrors.list present
      refine ⟨fun x => told x ∨ x = id, ?_, ?_⟩
      · have underWay' : server.snapshots tag = some told := here ▸ underWay
        simp [BouncerServer.act, here, underWay']
      · simp only [here, if_true]
        exact ⟨listed.filed, listed.within, listed.complete⟩
    · refine ⟨told, ?_, ?_⟩
      · simp [BouncerServer.act, here, underWay]
      · simp only [here, if_false]
        exact ⟨mirrors.filed, mirrors.within, mirrors.complete⟩

theorem handle_listed (now : Nat) {command : Str} {args : List Str} {tag : Str}
    {update : Option Attributes} (batched : getBatchTag message = some tag)
    (same : message.command = .raw command args) (line : isNetworkLine command args = true)
    (parsed : parseUpdate readTags args = some (id, update)) :
    (registry.handle readTags now message).1 =
      { registry.expire now with
        pending := (registry.expire now).pending.map fun p =>
          if p.tag = tag then { p with networks := applyUpdate p.networks id update } else p } := by
  simp only [NetworkRegistry.handle, same, line, if_true, batched, NetworkRegistry.handleNetwork,
    Option.any_some, parsed, Option.isSome_some]
  generalize registry.expire now = expired
  rcases expired with ⟨networks, complete, pending⟩
  cases pending with
  | none => rfl
  | some p => by_cases here : p.tag = tag <;> simp [here]

/-- A line that cannot be read changes no network. -/
theorem InStep.garbled (inStep : InStep server registry) (now : Nat) {command : Str}
    {args : List Str} (same : message.command = .raw command args)
    (line : isNetworkLine command args = true) (unread : parseUpdate readTags args = none) :
    InStep server (registry.handle readTags now message).1 := by
  have expired := inStep.expire now
  simp only [NetworkRegistry.handle, same, line, if_true, NetworkRegistry.handleNetwork, unread]
  split
  · exact expired
  · refine ⟨?_, ?_⟩
    · intro complete
      split at complete <;> split <;> exact expired.live complete
    · intro pending held
      split at held
      · rcases Option.map_eq_some_iff.mp held with ⟨before, present, rfl⟩
        exact expired.half before present
      · exact expired.half pending held

theorem InStep.opened (inStep : InStep server registry) (now : Nat) (tag : Str) :
    InStep (server.act (.openSnapshot tag))
      { registry with pending := some ⟨tag, Table.empty, true, now⟩ } where
  live complete :=
    have mirrors := inStep.live complete
    ⟨mirrors.filed, mirrors.within, mirrors.complete⟩
  half pending held := by
    cases held
    exact ⟨fun _ => False, by simp [BouncerServer.act], mirrors_nothing _⟩

/-- The end of a snapshot that has told of every network. -/
theorem InStep.closed (inStep : InStep server registry) (now : Nat) (tag : Str)
    (told : Str → Prop) (underWay : server.snapshots tag = some told)
    (all : ∀ id attributes, server.networks id = some attributes → told id) (kind : Option Str) :
    InStep (server.act (.closeSnapshot tag)) (registry.handleBatch now ('-' :: tag) kind).1 := by
  have kept : ∀ networks told, Mirrors server told networks →
      Mirrors (server.act (.closeSnapshot tag)) told networks := fun networks told mirrors =>
    ⟨mirrors.filed, mirrors.within, mirrors.complete⟩
  simp only [NetworkRegistry.handleBatch]
  split
  · rename_i absent
    refine ⟨fun complete => kept _ _ (inStep.live complete), ?_⟩
    intro pending held
    rw [absent] at held
    cases held
  · rename_i pending held
    rcases inStep.half pending held with ⟨told', underWay', mirrors⟩
    split
    · rename_i differs
      refine ⟨fun complete => kept _ _ (inStep.live complete), ?_⟩
      intro other held'
      rw [held] at held'
      cases held'
      exact ⟨told', by simp [BouncerServer.act, differs, underWay'], kept _ _ mirrors⟩
    · rename_i same
      simp only [ne_eq, Decidable.not_not] at same
      split
      · exact ⟨fun complete => kept _ _ (inStep.live complete), fun _ absurd => by cases absurd⟩
      · refine ⟨fun _ => ?_, fun _ absurd => by cases absurd⟩
        rw [same, underWay] at underWay'
        cases underWay'
        have full := kept _ _ mirrors
        refine ⟨full.filed, full.within, ?_⟩
        intro id attributes _ present
        exact full.complete id attributes (all id attributes present) present

theorem handle_batch (now : Nat) {reference : Str} {kind : Option Str}
    {params : Option (List Str)} (same : message.command = .batch reference kind params) :
    registry.handle readTags now message =
      (registry.expire now).handleBatch now reference kind := by
  simp [NetworkRegistry.handle, same]

theorem handle_opener (now : Nat) {tag kind : Str} {params : Option (List Str)}
    (same : message.command = .batch ('+' :: tag) (some kind) params)
    (cap : eqNocase kind networksCap = true) :
    (registry.handle readTags now message).1 =
      { registry.expire now with pending := some ⟨tag, Table.empty, true, now⟩ } := by
  rw [handle_batch now same]
  simp [NetworkRegistry.handleBatch, cap]

theorem InStep.exec {w : BouncerWorld} (inStep : InStep w.server w.registry) (op : BouncerOp)
    (conduct : Conduct readTags w.server op) (plain : op.act.Plain) :
    InStep (w.exec readTags op).server (w.exec readTags op).registry := by
  rcases w with ⟨server, registry⟩
  rcases op with ⟨now, act, message⟩
  have expired : InStep server (registry.expire now) := inStep.expire now
  cases act with
  | change id attributes text =>
      rcases conduct with ⟨⟨unbatched, command, sub, spelled, same, line, normal⟩, filled, kept,
        tags, reads, rfl⟩
      have parsed := parseUpdate_plain sub normal filled kept plain reads
      simp only [BouncerWorld.exec, BouncerWorld.receive]
      rw [handle_notification now unbatched same line parsed]
      exact expired.change text
  | remove id =>
      rcases conduct with ⟨unbatched, command, sub, spelled, same, line, normal⟩
      have parsed : parseUpdate readTags [sub, spelled, "*".toList] = some (id, none) := by
        simp [parseUpdate, normal]
      simp only [BouncerWorld.exec, BouncerWorld.receive]
      rw [handle_notification now unbatched same line parsed]
      exact expired.remove
  | openSnapshot tag =>
      rcases conduct with ⟨-, kind, params, same, cap⟩
      simp only [BouncerWorld.exec, BouncerWorld.receive]
      rw [handle_opener now same cap]
      exact expired.opened now tag
  | list tag id text =>
      rcases conduct with ⟨-, ⟨batched, command, sub, spelled, same, line, normal⟩, attributes,
        present, filled, kept, tags, reads, rfl⟩
      have parsed := parseUpdate_plain sub normal filled kept plain reads
      simp only [BouncerWorld.exec, BouncerWorld.receive]
      rw [handle_listed now batched same line parsed]
      exact expired.list tag present
  | closeSnapshot tag =>
      rcases conduct with ⟨told, underWay, all, kind, params, same⟩
      simp only [BouncerWorld.exec, BouncerWorld.receive]
      rw [handle_batch now same]
      exact expired.closed now tag told underWay all kind
  | garble =>
      rcases conduct with ⟨command, args, same, line, unread⟩
      exact inStep.garbled now same line unread
  | other =>
      have untouched : (registry.handle readTags now message).1 = registry.expire now := by
        simp only [Conduct] at conduct
        simp only [NetworkRegistry.handle]
        cases same : message.command with
        | raw command args =>
            rw [same] at conduct
            simp [conduct]
        | batch reference kind params =>
            rw [same] at conduct
            simp only [NetworkRegistry.handleBatch]
            split
            · simp_all
            · rename_i tag
              split
              · rfl
              · rename_i pending held
                rcases expired.half pending held with ⟨told, underWay, -⟩
                have differs : pending.tag ≠ tag := by
                  intro same
                  rw [same] at underWay
                  exact absurd (underWay.symm.trans conduct) (by simp)
                simp [differs]
            · rfl
        | privmsg _ _ | notice _ _ | quit _ | response _ _ | error _ => rfl
      simp only [BouncerWorld.exec, BouncerWorld.receive, untouched]
      exact expired
  | tick => exact expired

end Steps

/-! ### Snapshots that come to nothing -/

/-- The networks with what a notification outside all batches says of one of them. -/
def notify (readTags : TagReader) (networks : Map Str Network) (message : Message) :
    Map Str Network :=
  match message.command with
  | .raw command args =>
      if isNetworkLine command args && (getBatchTag message).isNone then
        match parseUpdate readTags args with
        | some (id, attributes) => applyUpdate networks id attributes
        | none => networks
      else networks
  | _ => networks

/-- The tag of the snapshot the message opens. -/
def snapshotTag (message : Message) : Option Str :=
  match message.command with
  | .batch ('+' :: tag) kind _ =>
      if kind.any fun kind => eqNocase kind networksCap then some tag else none
  | _ => none

def closesTag (tag : Str) (message : Message) : Prop :=
  ∃ kind params, message.command = .batch ('-' :: tag) kind params

/-- A line of the batch that cannot be read. -/
def Garbles (readTags : TagReader) (tag : Str) (message : Message) : Prop :=
  getBatchTag message = some tag ∧ ∃ command args, message.command = .raw command args ∧
    isNetworkLine command args = true ∧ parseUpdate readTags args = none

/-- A batch comes to nothing: a line of it cannot be read, another snapshot begins, or it has
been open for too long. -/
def Spoils (readTags : TagReader) (tag : Str) (started : Nat) (arrival : Nat × Message) : Prop :=
  Garbles readTags tag arrival.2 ∨ (snapshotTag arrival.2).isSome = true ∨
    started + pendingTimeout < arrival.1

section Spoiling

variable {readTags : TagReader} {registry : NetworkRegistry} {now : Nat} {message : Message}

theorem handle_networks (uncommitted : (registry.handle readTags now message).2 ≠ .snapshot) :
    (registry.handle readTags now message).1.networks =
      notify readTags registry.networks message := by
  simp only [NetworkRegistry.handle] at uncommitted ⊢
  cases same : message.command with
  | batch reference kind params =>
      simp only [same, NetworkRegistry.handleBatch] at uncommitted ⊢
      simp only [notify, same]
      split
      · split <;> rfl
      · split
        · rfl
        · rename_i tag pending held
          simp only [held] at uncommitted
          split
          · rfl
          · rename_i named
            split
            · rfl
            · rename_i valid
              simp [named, valid] at uncommitted
      · rfl
  | raw command args =>
      simp only [notify, same]
      cases line : isNetworkLine command args with
      | false => rfl
      | true =>
          simp only [if_true, NetworkRegistry.handleNetwork, Bool.true_and]
          cases batched : getBatchTag message with
          | none =>
              cases parseUpdate readTags args with
              | none => rfl
              | some update => rfl
          | some tag =>
              simp only [Option.any_some, Option.isNone_some, Bool.false_eq_true, if_false]
              split
              · rfl
              · cases parseUpdate readTags args with
                | none => rfl
                | some update => rfl
  | privmsg _ _ | notice _ _ | quit _ | response _ _ | error _ => simp [notify, same,
      NetworkRegistry.expire]

/-- The batch under way is a new one, or the old one in time and unharmed by the message. -/
theorem handle_pending {p' : PendingNetworks}
    (held : (registry.handle readTags now message).1.pending = some p') :
    snapshotTag message = some p'.tag ∨
      ∃ p, registry.pending = some p ∧ now - p.started ≤ pendingTimeout ∧ p'.tag = p.tag ∧
        p'.started = p.started ∧ snapshotTag message = none ∧
        (p'.valid = true → p.valid = true ∧ ¬Garbles readTags p.tag message) := by
  have kept : ∀ p, (registry.expire now).pending = some p →
      registry.pending = some p ∧ now - p.started ≤ pendingTimeout := by
    intro p stays
    have filtered := Option.filter_eq_some_iff.mp stays
    exact ⟨filtered.1, by simpa using filtered.2⟩
  have unchanged : (registry.expire now).pending = some p' → snapshotTag message = none →
      ¬Garbles readTags p'.tag message → snapshotTag message = some p'.tag ∨
      ∃ p, registry.pending = some p ∧ now - p.started ≤ pendingTimeout ∧ p'.tag = p.tag ∧
        p'.started = p.started ∧ snapshotTag message = none ∧
        (p'.valid = true → p.valid = true ∧ ¬Garbles readTags p.tag message) := by
    intro stays opens clean
    exact Or.inr ⟨p', (kept p' stays).1, (kept p' stays).2, rfl, rfl, opens,
      fun valid => ⟨valid, clean⟩⟩
  cases same : message.command with
  | batch reference kind params =>
      have clean : ¬Garbles readTags p'.tag message := by
        rintro ⟨-, command, args, raw, -⟩
        rw [same] at raw
        cases raw
      rw [handle_batch now same] at held
      simp only [NetworkRegistry.handleBatch] at held
      split at held
      · split at held
        · rename_i cap
          cases held
          exact Or.inl (by simp [snapshotTag, same, cap])
        · rename_i cap
          exact unchanged held (by simp [snapshotTag, same, cap]) clean
      · rename_i tag
        have opens : snapshotTag message = none := by simp [snapshotTag, same]
        split at held
        · exact unchanged held opens clean
        · split at held
          · exact unchanged held opens clean
          · split at held <;> cases held
      · rename_i plus minus
        refine unchanged held ?_ clean
        simp only [snapshotTag, same]
        split
        · rename_i named
          cases named
          exact absurd rfl (plus _)
        · rfl
  | raw command args =>
      have opens : snapshotTag message = none := by simp [snapshotTag, same]
      simp only [NetworkRegistry.handle, same] at held
      split at held
      · rename_i line
        simp only [NetworkRegistry.handleNetwork] at held
        split at held
        · rename_i elsewhere
          have stays : (registry.expire now).pending = some p' := held
          refine unchanged stays opens ?_
          rintro ⟨batched, -⟩
          simp [batched, stays] at elsewhere
        · cases parsed : parseUpdate readTags args with
          | none =>
              simp only [parsed] at held
              split at held
              · rcases Option.map_eq_some_iff.mp held with ⟨p, stays, rfl⟩
                exact Or.inr ⟨p, (kept p stays).1, (kept p stays).2, rfl, rfl, opens,
                  fun absurd => by cases absurd⟩
              · rename_i unbatched
                refine unchanged held opens ?_
                rintro ⟨batched, -⟩
                simp [batched] at unbatched
          | some update =>
              rcases update with ⟨id, attributes⟩
              have reads : ∀ tag, ¬Garbles readTags tag message := by
                rintro tag ⟨-, command', args', raw, -, unread⟩
                rw [same] at raw
                cases raw
                rw [parsed] at unread
                cases unread
              simp only [parsed] at held
              have mapped : ∃ p, (registry.expire now).pending = some p ∧
                  { p with networks := applyUpdate p.networks id attributes } = p' := by
                split at held <;> exact Option.map_eq_some_iff.mp held
              rcases mapped with ⟨p, stays, rfl⟩
              exact Or.inr ⟨p, (kept p stays).1, (kept p stays).2, rfl, rfl, opens,
                fun valid => ⟨valid, reads p.tag⟩⟩
      · rename_i other
        refine unchanged held opens ?_
        rintro ⟨-, command', args', raw, line, -⟩
        rw [same] at raw
        cases raw
        exact other line
  | privmsg _ _ | notice _ _ | quit _ | response _ _ | error _ =>
      simp only [NetworkRegistry.handle, same] at held
      refine unchanged held (by simp [snapshotTag, same]) ?_
      rintro ⟨-, command', args', raw, -⟩
      rw [same] at raw
      cases raw

def receiveFrom (readTags : TagReader) (registry : NetworkRegistry) (arrival : Nat × Message) :
    NetworkRegistry := (registry.handle readTags arrival.1 arrival.2).1

/-- No snapshot under the tag begins or ends. -/
def Undisturbed (tag : Str) (arrival : Nat × Message) : Prop :=
  snapshotTag arrival.2 ≠ some tag ∧ ¬closesTag tag arrival.2

/-- What is under way of the batch opened then, if anything is. -/
def Since (tag : Str) (started : Nat) (spoiled : Prop) (registry : NetworkRegistry) : Prop :=
  ∀ p, registry.pending = some p → p.tag = tag → p.started = started ∧ (spoiled → p.valid = false)

theorem Since.step {tag : Str} {started : Nat} {spoiled : Prop}
    (since : Since tag started spoiled registry) (arrival : Nat × Message)
    (undisturbed : Undisturbed tag arrival) :
    Since tag started (spoiled ∨ Spoils readTags tag started arrival)
      (receiveFrom readTags registry arrival) := by
  intro p' held named
  rcases handle_pending held with opens | ⟨p, present, inTime, sameTag, sameStart, closed, clean⟩
  · exact absurd (named ▸ opens) undisturbed.1
  · have before := since p present (sameTag.symm.trans named)
    refine ⟨sameStart.trans before.1, ?_⟩
    intro harmed
    cases valid : p'.valid with
    | false => rfl
    | true =>
        exfalso
        rcases harmed with already | garbled | superseded | late
        · rw [before.2 already] at clean
          exact absurd (clean valid).1 (by simp)
        · exact (clean valid).2 (by rwa [← sameTag, named])
        · rw [closed] at superseded
          cases superseded
        · rw [before.1] at inTime
          omega

theorem Since.run {tag : Str} {started : Nat} {spoiled : Prop} (arrivals : List (Nat × Message))
    (registry : NetworkRegistry) (since : Since tag started spoiled registry)
    (undisturbed : ∀ arrival ∈ arrivals, Undisturbed tag arrival) :
    Since tag started (spoiled ∨ ∃ arrival ∈ arrivals, Spoils readTags tag started arrival)
      (runFrom (receiveFrom readTags) registry arrivals) := by
  induction arrivals generalizing registry spoiled with
  | nil => simpa using since
  | cons arrival rest ih =>
      have first : Since tag started (spoiled ∨ Spoils readTags tag started arrival)
          (receiveFrom readTags registry arrival) :=
        since.step arrival (undisturbed arrival (by simp))
      have more := ih _ first fun later member => undisturbed later (by simp [member])
      simpa [or_assoc] using more

/-- A spoiled batch is not committed at its end. -/
theorem spoiled_is_not_committed (registry : NetworkRegistry) (tag : Str) (started now : Nat)
    (opener closer : Message) (arrivals : List (Nat × Message))
    (opens : snapshotTag opener = some tag) (closes : closesTag tag closer)
    (undisturbed : ∀ arrival ∈ arrivals, Undisturbed tag arrival)
    (spoiled : ∃ arrival ∈ arrivals ++ [(now, closer)], Spoils readTags tag started arrival) :
    ((runFrom (receiveFrom readTags) registry ((started, opener) :: arrivals)).handle readTags now
      closer).2 ≠ .snapshot := by
  have fresh : Since tag started False (receiveFrom readTags registry (started, opener)) := by
    intro p held named
    refine ⟨?_, False.elim⟩
    cases same : opener.command with
    | batch reference kind params =>
        simp only [snapshotTag, same] at opens
        split at opens
        · rename_i found
          cases found
          split at opens
          · rename_i cap
            simp only [receiveFrom] at held
            rw [handle_batch started same] at held
            simp only [NetworkRegistry.handleBatch, cap, if_true, Option.some.injEq] at held
            rw [← held]
          · cases opens
        · cases opens
    | privmsg _ _ | notice _ _ | quit _ | raw _ _ | response _ _ | error _ =>
        simp [snapshotTag, same] at opens
  have since : Since tag started
      (False ∨ ∃ arrival ∈ arrivals, Spoils readTags tag started arrival)
      (runFrom (receiveFrom readTags) _ arrivals) := fresh.run arrivals _ undisturbed
  rcases closes with ⟨kind, params, same⟩
  rw [runFrom_cons, handle_batch now same]
  simp only [NetworkRegistry.handleBatch]
  generalize runFrom (receiveFrom readTags) _ arrivals = reached at since
  cases held : (reached.expire now).pending with
  | none => simp
  | some p =>
      simp only
      split
      · simp
      · rename_i named
        simp only [ne_eq, Decidable.not_not] at named
        have filtered := Option.filter_eq_some_iff.mp held
        have known := since p filtered.1 named
        have inTime : now - p.started ≤ pendingTimeout := by simpa using filtered.2
        rcases spoiled with ⟨arrival, member, spoils⟩
        have invalid : p.valid = false := by
          rcases List.mem_append.mp member with earlier | last
          · exact known.2 (Or.inr ⟨arrival, earlier, spoils⟩)
          · rw [List.mem_singleton] at last
            subst last
            rcases spoils with ⟨-, command, args, raw, -⟩ | superseded | late
            · rw [same] at raw
              cases raw
            · simp [snapshotTag, same] at superseded
            · rw [known.1] at inTime
              simp only at late
              omega
        simp [invalid]

theorem handle_complete : (registry.handle readTags now message).1.complete = true ↔
    registry.complete = true ∨ (registry.handle readTags now message).2 = .snapshot := by
  have expired : (registry.expire now).complete = registry.complete := rfl
  simp only [NetworkRegistry.handle]
  cases message.command with
  | batch reference kind params =>
      simp only [NetworkRegistry.handleBatch]
      split
      · split <;> simp [expired]
      · split
        · simp [expired]
        · split
          · simp [expired]
          · split <;> simp [expired]
      · simp [expired]
  | raw command args =>
      simp only [NetworkRegistry.handleNetwork]
      split
      · split
        · simp [expired]
        · split
          · split <;> simp [expired]
          · split <;> simp [expired]
      · simp [expired]
  | privmsg _ _ | notice _ _ | quit _ | response _ _ | error _ => simp [expired]

end Spoiling

/-! ### Exact snapshots -/

/-- After a snapshot, and after everything that follows, the registry holds the networks of the
server; apart from a snapshot only notifications change it; a spoiled batch is no snapshot. -/
theorem snapshots_are_exact (readTags : TagReader) :
    (∀ (before after : List BouncerOp) (op : BouncerOp),
      Along (fun w op => Conduct readTags w.server op ∧ op.act.Plain) (BouncerWorld.exec readTags)
        BouncerWorld.new (before ++ op :: after) →
      ((BouncerWorld.run readTags before).receive readTags op).2 = .snapshot →
      Filed (BouncerWorld.run readTags (before ++ op :: after)).registry.networks ∧
        view (BouncerWorld.run readTags (before ++ op :: after)).registry.networks =
          (BouncerWorld.run readTags (before ++ op :: after)).server.networks) ∧
    (∀ (registry : NetworkRegistry) (now : Nat) (message : Message),
      (registry.handle readTags now message).2 ≠ .snapshot →
      (registry.handle readTags now message).1.networks =
        notify readTags registry.networks message) ∧
    ∀ (registry : NetworkRegistry) (tag : Str) (started now : Nat) (opener closer : Message)
      (arrivals : List (Nat × Message)), snapshotTag opener = some tag → closesTag tag closer →
      (∀ arrival ∈ arrivals, Undisturbed tag arrival) →
      (∃ arrival ∈ arrivals ++ [(now, closer)], Spoils readTags tag started arrival) →
      ((runFrom (receiveFrom readTags) registry ((started, opener) :: arrivals)).handle readTags
        now closer).2 ≠ .snapshot := by
  refine ⟨?_, fun registry now message => handle_networks, ?_⟩
  · intro before after op along snapshot
    have inStep : InStep (BouncerWorld.run readTags (before ++ op :: after)).server
        (BouncerWorld.run readTags (before ++ op :: after)).registry :=
      @Along.invariant _ _ _ _ (fun w : BouncerWorld => InStep w.server w.registry)
        (fun w op held allowed => held.exec op allowed.1 allowed.2) _ _ along inStep_new
    have stays : ∀ (w : BouncerWorld) (later : BouncerOp), w.registry.complete = true →
        (w.exec readTags later).registry.complete = true := by
      intro w later complete
      simp only [BouncerWorld.exec, BouncerWorld.receive]
      split
      · exact complete
      · exact handle_complete.mpr (Or.inl complete)
    have first :
        ((BouncerWorld.run readTags before).exec readTags op).registry.complete = true := by
      simp only [BouncerWorld.exec]
      simp only [BouncerWorld.receive] at snapshot ⊢
      split at snapshot
      · cases snapshot
      · exact handle_complete.mpr (Or.inr snapshot)
    have complete :
        (BouncerWorld.run readTags (before ++ op :: after)).registry.complete = true := by
      rw [BouncerWorld.run, runFrom_append, runFrom_cons]
      exact runFrom_invariant (fun w : BouncerWorld => w.registry.complete = true) stays _ after
        first
    have mirrors := inStep.live complete
    exact ⟨mirrors.filed, mirrors.exact⟩
  · intro registry tag started now opener closer arrivals opens closes undisturbed spoiled
    exact spoiled_is_not_committed registry tag started now opener closer arrivals opens closes
      undisturbed spoiled

/-- Tags without escapes. -/
def readPlainTags : TagReader := fun text =>
  some ((text.splitOn ';').map fun tag =>
    match splitOnce '=' tag with
    | some (key, value) => (key, some value)
    | none => (tag, none))

def emptySnapshot (tag : Str) : List BouncerOp :=
  [⟨0, .openSnapshot tag, ⟨none, none, .batch ('+' :: tag) (some networksCap) none⟩⟩,
   ⟨0, .closeSnapshot tag, ⟨none, none, .batch ('-' :: tag) none none⟩⟩]

/-- A network of that name appears. -/
def named (name : Str) : BouncerOp :=
  let text := "name=".toList ++ name
  ⟨1, .change "1".toList (described [("name".toList, some name)] unknown) text,
    ⟨none, none, .raw "BOUNCER".toList ["NETWORK".toList, "1".toList, text]⟩⟩

theorem conduct_emptySnapshot (tag : Str) (rest : List BouncerOp)
    (more : Along (fun w op => Conduct readPlainTags w.server op) (BouncerWorld.exec readPlainTags)
      (BouncerWorld.run readPlainTags (emptySnapshot tag)) rest) :
    Along (fun w op => Conduct readPlainTags w.server op) (BouncerWorld.exec readPlainTags)
      BouncerWorld.new (emptySnapshot tag ++ rest) := by
  refine ⟨⟨rfl, networksCap, none, rfl, by decide⟩, ?_, more⟩
  refine ⟨fun _ => False, ?_, ?_, none, none, rfl⟩
  · simp [BouncerWorld.exec, BouncerServer.act]
  · intro id attributes present
    cases present

theorem conduct_named (server : BouncerServer) (name : Str)
    (absent : server.networks "1".toList = none)
    (simple : readPlainTags ("name=".toList ++ name) = some [("name".toList, some name)]) :
    Conduct readPlainTags server (named name) := by
  refine ⟨⟨rfl, "BOUNCER".toList, "NETWORK".toList, "1".toList, rfl, ?_, by decide +kernel⟩,
    by simp, by simp, _, simple, ?_⟩
  · simp [isNetworkLine, eqNocase]
  · rw [absent]
    rfl

/-- A name with a space that is not ASCII is legal in a tag, and is not read. -/
theorem a_wide_space_is_not_read :
    ¬∀ (readTags : TagReader) (before after : List BouncerOp) (op : BouncerOp),
      Along (fun w op => Conduct readTags w.server op) (BouncerWorld.exec readTags)
        BouncerWorld.new (before ++ op :: after) →
      ((BouncerWorld.run readTags before).receive readTags op).2 = .snapshot →
      view (BouncerWorld.run readTags (before ++ op :: after)).registry.networks =
        (BouncerWorld.run readTags (before ++ op :: after)).server.networks := by
  intro claim
  let name := "a\u3000b".toList
  have along := conduct_emptySnapshot "t".toList [named name]
    ⟨conduct_named _ name rfl (by decide +kernel), trivial⟩
  have agree := claim readPlainTags ((emptySnapshot "t".toList).take 1) [named name]
    ⟨0, .closeSnapshot "t".toList, ⟨none, none, .batch ('-' :: "t".toList) none none⟩⟩ along
    (by decide +kernel)
  have here : view (BouncerWorld.run readPlainTags (emptySnapshot "t".toList ++
      [named name])).registry.networks "1".toList = (BouncerWorld.run readPlainTags
        (emptySnapshot "t".toList ++ [named name])).server.networks "1".toList :=
    congrFun agree "1".toList
  have unread : view (BouncerWorld.run readPlainTags (emptySnapshot "t".toList ++
      [named name])).registry.networks "1".toList = none := by
    rw [view, Option.map_eq_none_iff]
    decide +kernel
  rw [unread] at here
  cases here

/-- A name without such a space is. -/
theorem snapshots_are_exact_for_a_name :
    view (BouncerWorld.run readPlainTags (emptySnapshot "t".toList ++
        [named "ab".toList])).registry.networks =
      (BouncerWorld.run readPlainTags (emptySnapshot "t".toList ++
        [named "ab".toList])).server.networks := by
  have along := conduct_emptySnapshot "t".toList [named "ab".toList]
    ⟨conduct_named _ "ab".toList rfl (by decide +kernel), trivial⟩
  exact ((snapshots_are_exact readPlainTags).1 ((emptySnapshot "t".toList).take 1)
    [named "ab".toList] ⟨0, .closeSnapshot "t".toList,
      ⟨none, none, .batch ('-' :: "t".toList) none none⟩⟩
    ⟨⟨along.1, trivial⟩, ⟨along.2.1, trivial⟩, ⟨along.2.2.1, by decide⟩, trivial⟩
    (by decide +kernel)).2

end Repartee.Irc
