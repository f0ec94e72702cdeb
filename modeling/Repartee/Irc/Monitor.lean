import Repartee.Lib.Reconcile
import Repartee.State.Buffers

/-!
The client's side of MONITOR: the targets the user wants, the targets the server confirmed, and the
rounds that bring the second to the first. What it knows of each target's presence is left out.
-/

namespace Repartee.Monitor

open Repartee.Lib
open Repartee.Text
open Repartee.State (casefold)

def maxTargets : Nat := 1000

/-- The targets as they were spelled, under their folded spelling. -/
abbrev Names : Type := Map Str Str

/-- The entries in the order of their keys, as the map is walked. -/
def Names.ordered (names : Names) : List (Str × Str) :=
  names.rows.insertionSort fun a b => a.1 ≤ b.1

def Names.keyList (names : Names) : List Str := names.ordered.map Prod.fst

def Names.values (names : Names) : List Str := names.ordered.map Prod.snd

def Names.containsKey (names : Names) (key : Str) : Bool := (names.find? key).isSome

def Names.removeAll (names : Names) (mapping : Str) (gone : List Str) : Names :=
  gone.foldl (fun names name => names.erase (casefold name mapping)) names

def Names.insertAll (names : Names) (mapping : Str) (added : List Str) : Names :=
  added.foldl (fun names name => names.insert (casefold name mapping) name) names

/-- The same targets folded anew: of those that fall together the last one stays. -/
def Names.refold (names : Names) (mapping : Str) : Names :=
  Names.insertAll Table.empty mapping names.values

def keysOf (mapping : Str) (names : List Str) : Finset Str :=
  (names.map fun name => casefold name mapping).toFinset

structure Snapshot where
  names : Names
  started : Nat
  valid : Bool
  expired : Bool

inductive Change where
  | add (names : List Str)
  | remove (names : List Str)
  | clear
  deriving DecidableEq

def Change.names : Change → List Str
  | .add names => names
  | .remove names => names
  | .clear => []

/-- The letters of the command: `+`, `-`, `L` and `S`. -/
inductive Operation where
  | plus
  | minus
  | list
  | status
  deriving DecidableEq

/-- A `MONITOR` command. -/
structure Command where
  operation : Operation
  names : Option Str
  deriving DecidableEq

structure MonitorState where
  wanted : Option Names
  confirmed : Option Names
  pendingChanges : List Change
  submitted : Option Change
  snapshot : Option Snapshot
  mapping : Str
  retry : Option Nat
  blocked : Bool
  supported : Bool
  showList : Bool
  requestStatus : Bool

def invalidTarget (nick : Str) : Bool :=
  nick.isEmpty || 200 < utf8Length nick ||
    nick.any (fun c => isControl c || isWhitespace c || ",!@:*?".toList.contains c) ||
    nick.head? = some '#' || nick.head? = some '&'

def invalidTargets : Str :=
  "Supply valid nicknames separated by spaces or commas (at most 1000)".toList

def targets (input : List Str) : Except Str (List Str) :=
  let names := input.flatMap fun arg => arg.splitOn ','
  if names.isEmpty || maxTargets < names.length || names.any invalidTarget then .error invalidTargets
  else .ok names

def targetLimit : Str := "MONITOR target limit is 1000".toList

def queueLimit : Str := "Waiting for the initial MONITOR list; queued change limit reached".toList

def apply (wanted : Names) (mapping : Str) : Change → Except Str Names
  | .add names =>
      let updated := wanted.insertAll mapping names
      if maxTargets < updated.rows.length then .error targetLimit else .ok updated
  | .remove names => .ok (wanted.removeAll mapping names)
  | .clear => .ok Table.empty

def Change.size : Change → Nat
  | .add names => names.length
  | .remove names => names.length
  | .clear => 1

/-- The change a `+` or `-` asks for. -/
def Command.asked (command : Command) : Option Change :=
  match command.operation with
  | .plus => some (.add ((command.names.getD []).splitOn ','))
  | .minus => some (.remove ((command.names.getD []).splitOn ','))
  | .list => none
  | .status => none

/-- The names of a `+` or `-`, packed into one parameter until the next one would be too long. -/
def pack (packed : Str) : List Str → Str
  | [] => packed
  | name :: rest =>
      if 480 < utf8Length packed + utf8Length name + 1 then packed
      else pack (if packed.isEmpty then name else packed ++ ',' :: name) rest

/-- The names of the entries that the other map lacks. -/
def lacking (names other : Names) : List Str :=
  (names.ordered.filter fun entry => !other.containsKey entry.1).map Prod.snd

/-- The confirmed names that are not wanted, then the wanted ones that are not confirmed. -/
def nextChange (confirmed wanted : Names) : Option Command :=
  let removed := pack [] (lacking confirmed wanted)
  let added := pack [] (lacking wanted confirmed)
  if removed ≠ [] then some ⟨.minus, some removed⟩
  else if added ≠ [] then some ⟨.plus, some added⟩
  else none

/-- One line of the server's list is read into the running snapshot. -/
def readLine (mapping : Str) (snapshot : Snapshot) : List Str → Snapshot
  | [] => snapshot
  | name :: rest =>
      if maxTargets ≤ snapshot.names.rows.length ∧
          snapshot.names.containsKey (casefold name mapping) = false then
        { snapshot with valid := false }
      else
        readLine mapping
          { snapshot with names := snapshot.names.insert (casefold name mapping) name } rest

/-- The changes that waited for the first list; one over the limit is left out. -/
def applyPending (mapping : Str) (wanted : Names) (changes : List Change) : Names :=
  changes.foldl (fun wanted change =>
    match apply wanted mapping change with
    | .ok updated => updated
    | .error _ => wanted) wanted

namespace MonitorState

def new (mapping : Str) : MonitorState where
  wanted := none
  confirmed := none
  pendingChanges := []
  submitted := none
  snapshot := none
  mapping := mapping
  retry := none
  blocked := false
  supported := false
  showList := false
  requestStatus := false

def setSupported (m : MonitorState) (supported : Bool) : MonitorState :=
  if m.supported = supported then m
  else
    { m with
      supported := supported
      requestStatus := supported || m.requestStatus
      snapshot := none
      submitted := none
      retry := none
      confirmed := none
      blocked := !supported }

def resetTransport (m : MonitorState) : MonitorState :=
  { m with
    requestStatus := true
    submitted := none
    confirmed := none
    snapshot := none
    retry := none
    blocked := false }

def setMapping (m : MonitorState) (mapping : Str) : MonitorState :=
  if m.mapping = mapping then m
  else
    { m with
      mapping := mapping
      wanted := m.wanted.map fun names => names.refold mapping
      confirmed := m.confirmed.map fun names => names.refold mapping
      snapshot := m.snapshot.map fun snapshot =>
        { snapshot with names := snapshot.names.refold mapping } }

def change (m : MonitorState) (change : Change) : Except Str MonitorState :=
  match m.wanted with
  | some wanted => (apply wanted m.mapping change).map fun wanted => { m with wanted := some wanted }
  | none =>
      if maxTargets < (m.pendingChanges.map Change.size).sum + change.size then .error queueLimit
      else .ok { m with pendingChanges := m.pendingChanges ++ [change] }

def synchronized (m : MonitorState) : Bool :=
  !m.blocked && m.snapshot.isNone && m.submitted.isNone &&
    match m.confirmed, m.wanted with
    | some confirmed, some wanted =>
        decide (confirmed.keyList = wanted.keyList)
    | _, _ => false

/-- Times are in milliseconds. -/
def nextCommand (m : MonitorState) (now : Nat) : Option Command :=
  if m.blocked || m.snapshot.isSome || m.retry.any (fun time => now - time < 5000) then none
  else
    match m.confirmed, m.wanted with
    | some confirmed, some wanted =>
        (nextChange confirmed wanted).or
          (if m.showList then some ⟨.list, none⟩
           else if m.requestStatus then some ⟨.status, none⟩
           else none)
    | _, _ => some ⟨.list, none⟩

def sent (m : MonitorState) (command : Command) (now : Nat) (success : Bool) : MonitorState :=
  if success then
    match command.operation with
    | .list => { m with retry := none, snapshot := some ⟨Table.empty, now, true, false⟩ }
    | .status => { m with retry := none, requestStatus := false }
    | .plus => { m with retry := none, submitted := command.asked, confirmed := none }
    | .minus => { m with retry := none, submitted := command.asked, confirmed := none }
  else { m with retry := some now }

def expire (m : MonitorState) (now : Nat) : MonitorState :=
  { m with
    snapshot := m.snapshot.map fun snapshot =>
      if !snapshot.expired && 30000 ≤ now - snapshot.started then { snapshot with expired := true }
      else snapshot }

def receiveLine (m : MonitorState) (args : List Str) : MonitorState :=
  { m with
    snapshot := m.snapshot.map fun snapshot =>
      if snapshot.expired then snapshot
      else
        match args[1]?.map fun names => targets [names] with
        | some (.ok names) => readLine m.mapping snapshot names
        | _ => { snapshot with valid := false } }

/-- A submitted name that the list lacks is given up; a removed name that it has blocks. -/
def verifyChange (m : MonitorState) (names : Names) : MonitorState :=
  match m.submitted with
  | some (.add added) =>
      { m with
        submitted := none
        wanted := m.wanted.map fun wanted =>
          wanted.removeAll m.mapping
            (added.filter fun nick => !names.containsKey (casefold nick m.mapping)) }
  | some (.remove removed) =>
      { m with
        submitted := none
        blocked := m.blocked || removed.any fun nick => names.containsKey (casefold nick m.mapping) }
  | some .clear => { m with submitted := none }
  | none => m

/-- The first list, with the changes that waited for it, is what is wanted from then on. -/
def adopt (m : MonitorState) (names : Names) : MonitorState :=
  match m.wanted with
  | some _ => m
  | none =>
      { m with
        wanted := some (applyPending m.mapping names m.pendingChanges)
        pendingChanges := [] }

def receiveEnd (m : MonitorState) : MonitorState :=
  match m.snapshot with
  | none => m
  | some snapshot =>
      if !snapshot.valid || snapshot.expired then
        { m with snapshot := none, confirmed := none, blocked := true }
      else
        { ({ m with snapshot := none }.adopt snapshot.names).verifyChange snapshot.names with
          confirmed := some snapshot.names
          showList := false }

def receiveFull (m : MonitorState) (args : List Str) : MonitorState :=
  match args[2]? with
  | some names =>
      { m with wanted := m.wanted.map fun wanted => wanted.removeAll m.mapping (names.splitOn ',') }
  | none => m

def monitorWord : Str := "MONITOR".toList

def receive (m : MonitorState) (number : Nat) (args : List Str) : MonitorState :=
  if (number = 421 ∨ number = 461) ∧ args[1]?.any (fun arg => eqNocase arg monitorWord) then
    { m with blocked := true, snapshot := none, confirmed := none }
  else if !m.supported then m
  else if number = 732 then m.receiveLine args
  else if number = 733 then m.receiveEnd
  else if number = 734 then m.receiveFull args
  else m

end MonitorState

section Names

variable {names : Names} {mapping : Str}

/-- Each target stands under its folded spelling, and is one a user may give. -/
def Keyed (mapping : Str) (names : Names) : Prop :=
  ∀ entry ∈ names, entry.1 = casefold entry.2 mapping ∧ invalidTarget entry.2 = false

theorem keyed_empty : Keyed mapping Table.empty := by
  intro entry member
  exact absurd member (Table.not_mem_empty entry)

theorem containsKey_iff (key : Str) : names.containsKey key = true ↔ key ∈ names.keys :=
  Table.find?_isSome names key

theorem mem_ordered (entry : Str × Str) : entry ∈ names.ordered ↔ entry ∈ names := by
  unfold Names.ordered
  rw [List.mem_insertionSort]
  rfl

theorem mem_values (name : Str) : name ∈ names.values ↔ ∃ key, (key, name) ∈ names := by
  simp [Names.values, mem_ordered]

theorem keyList_toFinset : names.keyList.toFinset = names.keys := by
  ext key
  simp [Names.keyList, mem_ordered, Table.mem_keys]

theorem mem_keysOf (given : List Str) (key : Str) :
    key ∈ keysOf mapping given ↔ ∃ name ∈ given, casefold name mapping = key := by
  simp [keysOf]

theorem keysOf_cons (name : Str) (rest : List Str) :
    keysOf mapping (name :: rest) = insert (casefold name mapping) (keysOf mapping rest) := by
  simp [keysOf]

theorem keysOf_append (front back : List Str) :
    keysOf mapping (front ++ back) = keysOf mapping front ∪ keysOf mapping back := by
  simp [keysOf]

theorem Keyed.keysOf_values (keyed : Keyed mapping names) :
    keysOf mapping names.values = names.keys := by
  ext key
  rw [mem_keysOf, Table.mem_keys]
  constructor
  · rintro ⟨name, member, same⟩
    rcases (mem_values name).mp member with ⟨k, inside⟩
    exact ⟨(k, name), inside, (keyed _ inside).1.trans same⟩
  · rintro ⟨entry, inside, rfl⟩
    exact ⟨entry.2, (mem_values _).mpr ⟨entry.1, inside⟩, (keyed entry inside).1.symm⟩

theorem keys_insertAll (added : List Str) :
    (names.insertAll mapping added).keys = names.keys ∪ keysOf mapping added := by
  induction added generalizing names with
  | nil => simp [Names.insertAll, keysOf]
  | cons name rest ih =>
      have next : names.insertAll mapping (name :: rest) =
          Names.insertAll (Map.insert names (casefold name mapping) name) mapping rest := rfl
      rw [next, ih, Map.insert, Table.keys_replace, keysOf_cons, Finset.insert_union,
        Finset.union_insert]

theorem keys_removeAll (gone : List Str) :
    (names.removeAll mapping gone).keys = names.keys \ keysOf mapping gone := by
  induction gone generalizing names with
  | nil => simp [Names.removeAll, keysOf]
  | cons name rest ih =>
      have next : names.removeAll mapping (name :: rest) =
          Names.removeAll (names.erase (casefold name mapping)) mapping rest := rfl
      rw [next, ih, Table.keys_erase, keysOf_cons, sdiff_sdiff, Finset.insert_eq]
      rfl

theorem Keyed.insert (keyed : Keyed mapping names) {name : Str}
    (valid : invalidTarget name = false) :
    Keyed mapping (Map.insert names (casefold name mapping) name) := by
  intro entry member
  rw [Map.insert, Table.mem_replace] at member
  rcases member with ⟨before, _⟩ | rfl
  · exact keyed entry before
  · exact ⟨rfl, valid⟩

theorem Keyed.insertAll (keyed : Keyed mapping names) {added : List Str}
    (given : ∀ name ∈ added, invalidTarget name = false) :
    Keyed mapping (names.insertAll mapping added) := by
  induction added generalizing names with
  | nil => exact keyed
  | cons name rest ih =>
      apply ih (keyed.insert (given name List.mem_cons_self))
      exact fun other member => given other (List.mem_cons_of_mem _ member)

theorem insertAll_within {added : List Str} {entry : Str × Str}
    (member : entry ∈ names.insertAll mapping added) : entry ∈ names ∨ entry.2 ∈ added := by
  induction added generalizing names with
  | nil => exact Or.inl member
  | cons name rest ih =>
      have next : entry ∈ Names.insertAll (Map.insert names (casefold name mapping) name) mapping
        rest := member
      rcases ih next with before | later
      · rw [Map.insert, Table.mem_replace] at before
        rcases before with ⟨held, _⟩ | rfl
        · exact Or.inl held
        · exact Or.inr List.mem_cons_self
      · exact Or.inr (List.mem_cons_of_mem _ later)

theorem mem_removeAll {gone : List Str} (entry : Str × Str) :
    entry ∈ names.removeAll mapping gone ↔ entry ∈ names ∧ entry.1 ∉ keysOf mapping gone := by
  induction gone generalizing names with
  | nil => simp [Names.removeAll, keysOf]
  | cons name rest ih =>
      have next : names.removeAll mapping (name :: rest) =
          Names.removeAll (names.erase (casefold name mapping)) mapping rest := rfl
      rw [next, ih, Table.mem_erase, keysOf_cons, Finset.mem_insert, not_or, and_assoc]

theorem Keyed.removeAll (keyed : Keyed mapping names) (gone : List Str) :
    Keyed mapping (names.removeAll mapping gone) := by
  intro entry member
  exact keyed entry ((mem_removeAll entry).mp member).1

theorem Keyed.refold {before : Str} (keyed : Keyed before names) (mapping : Str) :
    Keyed mapping (names.refold mapping) := by
  apply keyed_empty.insertAll
  intro name member
  rcases (mem_values name).mp member with ⟨key, inside⟩
  exact (keyed _ inside).2

theorem Keyed.apply (keyed : Keyed mapping names) {change : Change} {updated : Names}
    (given : ∀ name ∈ change.names, invalidTarget name = false)
    (applied : apply names mapping change = .ok updated) : Keyed mapping updated := by
  cases change with
  | add added =>
      simp only [Monitor.apply] at applied
      split at applied
      · cases applied
      · cases applied
        exact keyed.insertAll given
  | remove gone =>
      cases applied
      exact keyed.removeAll gone
  | clear =>
      cases applied
      exact keyed_empty

end Names

/-! ### Names on the wire -/

theorem target_some {name : Str} (valid : invalidTarget name = false) : name ≠ [] := by
  intro empty
  rw [empty] at valid
  cases valid

theorem target_comma {name : Str} (valid : invalidTarget name = false) : ',' ∉ name := by
  intro member
  simp only [invalidTarget, Bool.or_eq_false_iff] at valid
  have clean := List.any_eq_false.mp valid.1.1.2 ',' member
  exact clean (by decide)

theorem pack_split {packed : Str} {names : List Str} (some_ : packed ≠ [])
    (valid : ∀ name ∈ names, invalidTarget name = false) :
    ∃ front, (pack packed names).splitOn ',' = packed.splitOn ',' ++ front ∧
      ∀ name ∈ front, name ∈ names := by
  induction names generalizing packed with
  | nil => exact ⟨[], (List.append_nil _).symm, fun _ member => member⟩
  | cons name rest ih =>
      rw [pack]
      split
      · exact ⟨[], (List.append_nil _).symm, fun _ member => absurd member List.not_mem_nil⟩
      · rw [if_neg (by simpa using some_)]
        rcases ih (List.append_ne_nil_of_left_ne_nil some_ _)
          (fun other member => valid other (List.mem_cons_of_mem _ member)) with
          ⟨front, whole, inside⟩
        refine ⟨name :: front, ?_, ?_⟩
        · have alone := List.splitOn_eq_singleton (target_comma (valid name List.mem_cons_self))
          rw [whole, List.splitOn_append_cons_self, alone, List.append_assoc]
          rfl
        · intro other member
          rcases List.mem_cons.mp member with rfl | later
          · exact List.mem_cons_self
          · exact List.mem_cons_of_mem _ (inside other later)

/-- What is read out of a packed parameter was packed into it. -/
theorem pack_names {names : List Str} (valid : ∀ name ∈ names, invalidTarget name = false)
    (some_ : pack [] names ≠ []) : ∀ name ∈ (pack [] names).splitOn ',', name ∈ names := by
  cases names with
  | nil => exact absurd rfl some_
  | cons name rest =>
      rw [pack] at some_ ⊢
      split at some_
      · exact absurd rfl some_
      · next fits =>
          rw [if_neg fits, if_pos List.isEmpty_nil]
          have first := valid name List.mem_cons_self
          rcases pack_split (target_some first)
            (fun other member => valid other (List.mem_cons_of_mem _ member)) with
            ⟨front, whole, inside⟩
          rw [whole, List.splitOn_eq_singleton (target_comma first)]
          intro other member
          rcases List.mem_cons.mp member with rfl | later
          · exact List.mem_cons_self
          · exact List.mem_cons_of_mem _ (inside other later)

/-- A target is short enough to be packed alone. -/
theorem pack_some {names : List Str} (valid : ∀ name ∈ names, invalidTarget name = false)
    (some_ : names ≠ []) : pack [] names ≠ [] := by
  have grows : ∀ (rest : List Str) (packed : Str), packed ≠ [] → pack packed rest ≠ [] := by
    intro rest
    induction rest with
    | nil => exact fun _ full => full
    | cons name rest ih =>
        intro packed full
        rw [pack]
        split
        · exact full
        · rw [if_neg (by simpa using full)]
          exact ih _ (List.append_ne_nil_of_left_ne_nil full _)
  cases names with
  | nil => exact absurd rfl some_
  | cons name rest =>
      have first := valid name List.mem_cons_self
      have short : utf8Length name ≤ 200 := by
        simp only [invalidTarget, Bool.or_eq_false_iff, decide_eq_false_iff_not] at first
        omega
      have empty : utf8Length [] = 0 := rfl
      rw [pack, if_neg (by omega), if_pos List.isEmpty_nil]
      exact grows rest name (target_some first)

theorem mem_lacking {names other : Names} {name : Str} (member : name ∈ lacking names other) :
    ∃ key, (key, name) ∈ names ∧ key ∉ other.keys := by
  rcases List.mem_map.mp member with ⟨entry, chosen, rfl⟩
  rcases List.mem_filter.mp chosen with ⟨inside, absent⟩
  rw [Bool.not_eq_true', ← Bool.not_eq_true, containsKey_iff] at absent
  exact ⟨entry.1, (mem_ordered entry).mp inside, absent⟩

theorem lacking_valid {mapping : Str} {names : Names} (keyed : Keyed mapping names)
    (other : Names) : ∀ name ∈ lacking names other, invalidTarget name = false := by
  intro name member
  rcases mem_lacking member with ⟨key, inside, _⟩
  exact (keyed _ inside).2

theorem lacking_nil {names other : Names} (none_ : lacking names other = []) :
    names.keys ⊆ other.keys := by
  intro key member
  rcases (Table.mem_keys names key).mp member with ⟨entry, inside, rfl⟩
  by_contra absent
  have chosen : entry.2 ∈ lacking names other := by
    apply List.mem_map_of_mem
    rw [List.mem_filter, Bool.not_eq_true', ← Bool.not_eq_true, containsKey_iff]
    exact ⟨(mem_ordered entry).mpr inside, absent⟩
  rw [none_] at chosen
  cases chosen

/-- Nothing is left to ask for only when the two sets are equal. -/
theorem nextChange_none {mapping : Str} {confirmed wanted : Names}
    (confirmedKeyed : Keyed mapping confirmed) (wantedKeyed : Keyed mapping wanted)
    (none_ : nextChange confirmed wanted = none) : confirmed.keys = wanted.keys := by
  simp only [nextChange] at none_
  split at none_
  · cases none_
  · next removed =>
      split at none_
      · cases none_
      · next added =>
          have noneRemoved : lacking confirmed wanted = [] := by
            by_contra some_
            exact removed (pack_some (lacking_valid confirmedKeyed wanted) some_)
          have noneAdded : lacking wanted confirmed = [] := by
            by_contra some_
            exact added (pack_some (lacking_valid wantedKeyed confirmed) some_)
          exact Finset.Subset.antisymm (lacking_nil noneRemoved) (lacking_nil noneAdded)

end Repartee.Monitor
