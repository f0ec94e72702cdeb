import Repartee.Text

/-!
The channels joined at the start of a connection, packed into as few JOIN lines as the length of a
line allows: a list of channels, and a list of keys for the first of them.
-/

namespace Repartee.Irc.JoinBatches

open Text

/-- What a line holds besides the command and its end. -/
def budget : Nat := 512 - 7

def payload (chans keys : Nat) (hasKeys : Bool) : Nat := if hasKeys then chans + 1 + keys else chans

def commaList (names : List Str) : Str := [','].intercalate names

/-- The batch under construction, the lengths of its two lists, and the lines before it. -/
structure Batch where
  chans : List Str
  keys : List Str
  chanLen : Nat
  keyLen : Nat
  out : List (Str × Option Str)

def Batch.start : Batch := ⟨[], [], 0, 0, []⟩

def flush (batch : Batch) : Batch :=
  if batch.chans = [] then batch
  else
    let keylist := if batch.keys = [] then none else some (commaList batch.keys)
    ⟨[], [], 0, 0, batch.out ++ [(commaList batch.chans, keylist)]⟩

def grown (items : List Str) (len : Nat) (item : Str) : Nat :=
  if items = [] then utf8Length item else len + 1 + utf8Length item

def addKeyed (batch : Batch) (entry : Str × Str) : Batch :=
  let grownChans := grown batch.chans batch.chanLen entry.1
  let grownKeys := grown batch.keys batch.keyLen entry.2
  let next :=
    if batch.chans ≠ [] ∧ budget < payload grownChans grownKeys true then
      { flush batch with chanLen := utf8Length entry.1, keyLen := utf8Length entry.2 }
    else { batch with chanLen := grownChans, keyLen := grownKeys }
  { next with chans := next.chans ++ [entry.1], keys := next.keys ++ [entry.2] }

def addKeyless (batch : Batch) (chan : Str) : Batch :=
  let grownChans := grown batch.chans batch.chanLen chan
  let next :=
    if batch.chans ≠ [] ∧ budget < payload grownChans batch.keyLen (batch.keys ≠ []) then
      { flush batch with chanLen := utf8Length chan }
    else { batch with chanLen := grownChans }
  { next with chans := next.chans ++ [chan] }

variable (channelKeys : Str → Option Str) (channels : List Str)

def keyedOf : List (Str × Str) :=
  channels.filterMap fun chan => (channelKeys chan).map fun key => (chan, key)

def keylessOf : List Str := channels.filter fun chan => (channelKeys chan).isNone

def buildBatchedJoins : List (Str × Option Str) :=
  if channels = [] then []
  else
    (flush ((keylessOf channelKeys channels).foldl addKeyless
      ((keyedOf channelKeys channels).foldl addKeyed .start))).out

section Groups

/-- The channels of one line, those with a key before those without. -/
structure Group where
  keyed : List (Str × Str)
  keyless : List Str

namespace Group

def names (group : Group) : List Str := group.keyed.map Prod.fst ++ group.keyless

def keys (group : Group) : List Str := group.keyed.map Prod.snd

def entries (group : Group) : List (Str × Option Str) :=
  (group.keyed.map fun entry => (entry.1, some entry.2)) ++ group.keyless.map fun name => (name, none)

def line (group : Group) : Str × Option Str :=
  (commaList group.names, if group.keys = [] then none else some (commaList group.keys))

end Group

/-- The length of what a line says behind the command. -/
def lineLength (line : Str × Option Str) : Nat :=
  match line.2 with
  | none => utf8Length line.1
  | some keys => utf8Length line.1 + 1 + utf8Length keys

def Fits (group : Group) : Prop := lineLength group.line ≤ budget ∨ group.names.length = 1

/-- The names of a line, each with the key in its place. -/
def pairUp : List Str → List Str → List (Str × Option Str)
  | [], _ => []
  | name :: names, [] => (name, none) :: pairUp names []
  | name :: names, key :: keys => (name, some key) :: pairUp names keys

/-- What a server reads of a line. -/
def readLine (line : Str × Option Str) : List (Str × Option Str) :=
  pairUp (line.1.splitOn ',') (match line.2 with
    | none => []
    | some keys => keys.splitOn ',')

theorem pairUp_nil (names : List Str) : pairUp names [] = names.map fun name => (name, none) := by
  induction names with
  | nil => rfl
  | cons name rest ih => simp [pairUp, ih]

theorem pairUp_group (group : Group) : pairUp group.names group.keys = group.entries := by
  obtain ⟨keyed, keyless⟩ := group
  induction keyed with
  | nil => simp [Group.names, Group.keys, Group.entries, pairUp_nil]
  | cons entry rest ih =>
      simp only [Group.names, Group.keys, Group.entries] at ih ⊢
      simp [pairUp, ih]

/-- A line whose names and keys hold no comma is read as the group it was made of. -/
theorem readLine_line (group : Group) (some_ : group.names ≠ [])
    (names : ∀ name ∈ group.names, ',' ∉ name) (keys : ∀ key ∈ group.keys, ',' ∉ key) :
    readLine group.line = group.entries := by
  have first : (commaList group.names).splitOn ',' = group.names :=
    List.splitOn_intercalate ',' names some_
  rw [readLine, Group.line, first]
  by_cases keyless : group.keys = []
  · rw [if_pos keyless, ← pairUp_group, keyless]
  · have second : (commaList group.keys).splitOn ',' = group.keys :=
      List.splitOn_intercalate ',' keys keyless
    rw [if_neg keyless, ← pairUp_group]
    simp only [second]

end Groups

section Lengths

theorem commaList_append (items : List Str) (item : Str) (some_ : items ≠ []) :
    commaList (items ++ [item]) = commaList items ++ ',' :: item := by
  induction items with
  | nil => exact absurd rfl some_
  | cons first rest ih =>
      cases rest with
      | nil => simp [commaList, List.intercalate]
      | cons second more =>
          have later := ih (by simp)
          simp only [commaList, List.cons_append, List.intercalate_cons_cons] at later ⊢
          rw [later]
          simp

theorem grown_eq (items : List Str) (item : Str) :
    grown items (utf8Length (commaList items)) item = utf8Length (commaList (items ++ [item])) := by
  unfold grown
  split
  · rename_i empty
    simp [empty, commaList, List.intercalate]
  · rename_i some_
    rw [commaList_append items item some_]
    have comma : (',' : Char).utf8Size = 1 := by decide
    simp [comma]
    omega

theorem lineLength_line (group : Group) :
    lineLength group.line = payload (utf8Length (commaList group.names))
      (utf8Length (commaList group.keys)) (group.keys ≠ []) := by
  by_cases keyless : group.keys = [] <;> simp [lineLength, Group.line, payload, keyless]

end Lengths

section Packing

/-- The batch under construction holds the last group, the lines are made of those before. -/
structure Packed (batch : Batch) (done : List Group) (group : Group) : Prop where
  out : batch.out = done.map Group.line
  chans : batch.chans = group.names
  keys : batch.keys = group.keys
  chanLen : batch.chanLen = utf8Length (commaList group.names)
  keyLen : batch.keyLen = utf8Length (commaList group.keys)
  some_ : ∀ past ∈ done, past.names ≠ []
  fits : ∀ past ∈ done, Fits past
  groupFits : group.names ≠ [] → Fits group
  last : done ≠ [] → group.names ≠ []

variable {batch : Batch} {done : List Group} {group : Group}

theorem Packed.flushed (packed : Packed batch done group) (some_ : group.names ≠ []) :
    flush batch = ⟨[], [], 0, 0, (done ++ [group]).map Group.line⟩ := by
  unfold flush
  rw [packed.chans, packed.keys, packed.out, if_neg some_]
  simp [Group.line]

theorem Packed.past (packed : Packed batch done group) (some_ : group.names ≠ []) :
    (∀ past ∈ done ++ [group], past.names ≠ []) ∧ ∀ past ∈ done ++ [group], Fits past := by
  constructor
  · intro past member
    rcases List.mem_append.mp member with before | last
    · exact packed.some_ past before
    · rw [List.mem_singleton.mp last]
      exact some_
  · intro past member
    rcases List.mem_append.mp member with before | last
    · exact packed.fits past before
    · rw [List.mem_singleton.mp last]
      exact packed.groupFits some_

theorem Packed.addKeyed {keyed : List (Str × Str)} (packed : Packed batch done ⟨keyed, []⟩)
    (entry : Str × Str) :
    Packed (addKeyed batch entry) done ⟨keyed ++ [entry], []⟩ ∨
      Packed (addKeyed batch entry) (done ++ [⟨keyed, []⟩]) ⟨[entry], []⟩ := by
  have names : Group.names ⟨keyed ++ [entry], []⟩ = Group.names ⟨keyed, []⟩ ++ [entry.1] := by
    simp [Group.names]
  have keys : Group.keys ⟨keyed ++ [entry], []⟩ = Group.keys ⟨keyed, []⟩ ++ [entry.2] := by
    simp [Group.keys]
  have chan_len : grown batch.chans batch.chanLen entry.1 =
      utf8Length (commaList (Group.names ⟨keyed ++ [entry], []⟩)) := by
    rw [packed.chans, packed.chanLen, grown_eq, names]
  have key_len : grown batch.keys batch.keyLen entry.2 =
      utf8Length (commaList (Group.keys ⟨keyed ++ [entry], []⟩)) := by
    rw [packed.keys, packed.keyLen, grown_eq, keys]
  by_cases full : batch.chans ≠ [] ∧ budget < payload (grown batch.chans batch.chanLen entry.1)
      (grown batch.keys batch.keyLen entry.2) true
  · right
    have some_ : Group.names ⟨keyed, []⟩ ≠ [] := packed.chans ▸ full.1
    have shape : JoinBatches.addKeyed batch entry = ⟨[entry.1], [entry.2], utf8Length entry.1,
        utf8Length entry.2, (done ++ [Group.mk keyed []]).map Group.line⟩ := by
      simp only [JoinBatches.addKeyed, if_pos full, packed.flushed some_]
      rfl
    rw [shape]
    obtain ⟨past_some, past_fits⟩ := packed.past some_
    exact ⟨rfl, rfl, rfl, by simp [Group.names, commaList, List.intercalate],
      by simp [Group.keys, commaList, List.intercalate], past_some, past_fits,
      fun _ => Or.inr rfl, fun _ => by simp [Group.names]⟩
  · left
    have shape : JoinBatches.addKeyed batch entry = ⟨batch.chans ++ [entry.1],
        batch.keys ++ [entry.2], grown batch.chans batch.chanLen entry.1,
        grown batch.keys batch.keyLen entry.2, batch.out⟩ := by
      simp only [JoinBatches.addKeyed, if_neg full]
    rw [shape]
    refine ⟨packed.out, ?_, ?_, chan_len, key_len, packed.some_, packed.fits, ?_,
      fun _ => by simp [names]⟩
    · rw [names, packed.chans]
    · rw [keys, packed.keys]
    · intro _
      by_cases empty : batch.chans = []
      · right
        rw [names, ← packed.chans, empty]
        rfl
      · left
        rw [lineLength_line, ← chan_len, ← key_len]
        have some_ : Group.keys ⟨keyed ++ [entry], []⟩ ≠ [] := by simp [keys]
        have short : ¬budget < payload (grown batch.chans batch.chanLen entry.1)
            (grown batch.keys batch.keyLen entry.2) true := fun long => full ⟨empty, long⟩
        simpa [some_] using short

theorem Packed.addKeyless (packed : Packed batch done group) (chan : Str) :
    Packed (addKeyless batch chan) done ⟨group.keyed, group.keyless ++ [chan]⟩ ∨
      Packed (addKeyless batch chan) (done ++ [group]) ⟨[], [chan]⟩ := by
  have names : Group.names ⟨group.keyed, group.keyless ++ [chan]⟩ = group.names ++ [chan] := by
    simp [Group.names]
  have keys : Group.keys ⟨group.keyed, group.keyless ++ [chan]⟩ = group.keys := rfl
  have chan_len : grown batch.chans batch.chanLen chan =
      utf8Length (commaList (Group.names ⟨group.keyed, group.keyless ++ [chan]⟩)) := by
    rw [packed.chans, packed.chanLen, grown_eq, names]
  by_cases full : batch.chans ≠ [] ∧
      budget < payload (grown batch.chans batch.chanLen chan) batch.keyLen (batch.keys ≠ [])
  · right
    have some_ : group.names ≠ [] := packed.chans ▸ full.1
    have shape : JoinBatches.addKeyless batch chan =
        ⟨[chan], [], utf8Length chan, 0, (done ++ [group]).map Group.line⟩ := by
      simp only [JoinBatches.addKeyless, if_pos full, packed.flushed some_]
      rfl
    rw [shape]
    obtain ⟨past_some, past_fits⟩ := packed.past some_
    exact ⟨rfl, rfl, rfl, by simp [Group.names, commaList, List.intercalate], rfl, past_some,
      past_fits, fun _ => Or.inr rfl, fun _ => by simp [Group.names]⟩
  · left
    have shape : JoinBatches.addKeyless batch chan = ⟨batch.chans ++ [chan], batch.keys,
        grown batch.chans batch.chanLen chan, batch.keyLen, batch.out⟩ := by
      simp only [JoinBatches.addKeyless, if_neg full]
    rw [shape]
    refine ⟨packed.out, ?_, packed.keys, chan_len, packed.keyLen, packed.some_, packed.fits, ?_,
      fun _ => by simp [names]⟩
    · rw [names, packed.chans]
    · intro _
      by_cases empty : batch.chans = []
      · right
        rw [names, ← packed.chans, empty]
        rfl
      · left
        rw [lineLength_line, ← chan_len, keys, ← packed.keyLen, ← packed.keys]
        exact Nat.le_of_not_lt fun long => full ⟨empty, long⟩

theorem packed_keyed (entries : List (Str × Str)) {keyed : List (Str × Str)}
    (packed : Packed batch done ⟨keyed, []⟩) (plain : ∀ past ∈ done, past.keyless = []) :
    ∃ done' keyed', Packed (entries.foldl JoinBatches.addKeyed batch) done' ⟨keyed', []⟩ ∧
      done'.flatMap Group.keyed ++ keyed' = done.flatMap Group.keyed ++ keyed ++ entries ∧
      ∀ past ∈ done', past.keyless = [] := by
  induction entries generalizing batch done keyed with
  | nil => exact ⟨done, keyed, packed, by simp, plain⟩
  | cons entry rest ih =>
      rcases packed.addKeyed entry with here | next
      · obtain ⟨done', keyed', packed', same, plain'⟩ := ih here plain
        exact ⟨done', keyed', packed', by simp [same], plain'⟩
      · have plain_next : ∀ past ∈ done ++ [⟨keyed, []⟩], past.keyless = [] := by
          simpa [or_imp, forall_and] using plain
        obtain ⟨done', keyed', packed', same, plain'⟩ := ih next plain_next
        exact ⟨done', keyed', packed', by simp [same], plain'⟩

theorem packed_keyless (names : List Str) (packed : Packed batch done group) :
    ∃ done' group', Packed (names.foldl JoinBatches.addKeyless batch) done' group' ∧
      (done' ++ [group']).flatMap Group.keyed = (done ++ [group]).flatMap Group.keyed ∧
      (done' ++ [group']).flatMap Group.keyless =
        (done ++ [group]).flatMap Group.keyless ++ names := by
  induction names generalizing batch done group with
  | nil => exact ⟨done, group, packed, rfl, by simp⟩
  | cons name rest ih =>
      rcases packed.addKeyless name with here | next
      · obtain ⟨done', group', packed', keyed, keyless⟩ := ih here
        refine ⟨done', group', packed', ?_, ?_⟩
        · simpa using keyed
        · simpa using keyless
      · obtain ⟨done', group', packed', keyed, keyless⟩ := ih next
        refine ⟨done', group', packed', ?_, ?_⟩
        · simpa using keyed
        · simpa using keyless

end Packing

/-- What the lines are made of: groups that hold every channel once and in order, the keyed ones of
a group first, and that fit unless they are a single channel. -/
structure Partitioned (lines : List (Str × Option Str)) (groups : List Group) : Prop where
  lines_eq : lines = groups.map Group.line
  keyed : groups.flatMap Group.keyed = keyedOf channelKeys channels
  keyless : groups.flatMap Group.keyless = keylessOf channelKeys channels
  named : (groups.flatMap Group.names).Perm channels
  some_ : ∀ group ∈ groups, group.names ≠ []
  fits : ∀ group ∈ groups, Fits group

theorem flatMap_names (groups : List Group) : (groups.flatMap Group.names).Perm
    ((groups.flatMap Group.keyed).map Prod.fst ++ groups.flatMap Group.keyless) := by
  induction groups with
  | nil => simp
  | cons group rest ih =>
      simp only [List.flatMap_cons, Group.names, List.map_append, List.append_assoc]
      apply List.Perm.append_left
      exact (ih.append_left group.keyless).trans (List.perm_append_comm_assoc _ _ _)

theorem keyed_names : (keyedOf channelKeys channels).map Prod.fst =
    channels.filter fun chan => (channelKeys chan).isSome := by
  induction channels with
  | nil => rfl
  | cons chan rest ih =>
      unfold keyedOf at ih ⊢
      cases key : channelKeys chan with
      | none => simp [key, ih]
      | some value => simp [key, ih]

theorem all_named : ((keyedOf channelKeys channels).map Prod.fst ++
    keylessOf channelKeys channels).Perm channels := by
  have none_ : (fun chan => (channelKeys chan).isNone) =
      fun chan => !(channelKeys chan).isSome := by
    funext chan
    cases channelKeys chan <;> rfl
  rw [keyed_names, keylessOf, none_]
  exact List.filter_append_perm _ channels

/-- The lines name every channel once, keys and channels in step, and are no longer than they may
be; a server reads them as they were meant where no name or key holds a comma. -/
theorem batched_joins_partition : ∃ groups,
    Partitioned channelKeys channels (buildBatchedJoins channelKeys channels) groups ∧
      ((∀ chan ∈ channels, ',' ∉ chan ∧ ∀ key ∈ channelKeys chan, ',' ∉ key) →
        (buildBatchedJoins channelKeys channels).map readLine = groups.map Group.entries) := by
  have built : ∃ groups,
      Partitioned channelKeys channels (buildBatchedJoins channelKeys channels) groups := by
    by_cases empty : channels = []
    · exact ⟨[], by simp [buildBatchedJoins, empty], by simp [keyedOf, empty],
        by simp [keylessOf, empty], by simp [empty], by simp, by simp⟩
    · have start : Packed .start [] ⟨[], []⟩ :=
        ⟨rfl, rfl, rfl, rfl, rfl, by simp, by simp, fun some_ => absurd rfl some_,
          fun some_ => absurd rfl some_⟩
      obtain ⟨done, keyed, packed, all_keyed, plain⟩ :=
        packed_keyed (keyedOf channelKeys channels) start (by simp)
      obtain ⟨groups, last, finished, same_keyed, all_keyless⟩ :=
        packed_keyless (keylessOf channelKeys channels) packed
      have none_ : done.flatMap Group.keyless = [] := by
        rw [List.flatMap_eq_nil_iff]
        exact plain
      have keyed_eq : (groups ++ [last]).flatMap Group.keyed = keyedOf channelKeys channels := by
        rw [same_keyed]
        simpa using all_keyed
      have keyless_eq : (groups ++ [last]).flatMap Group.keyless =
          keylessOf channelKeys channels := by
        rw [all_keyless]
        simp [none_]
      have named : ((groups ++ [last]).flatMap Group.names).Perm channels := by
        have all := flatMap_names (groups ++ [last])
        rw [keyed_eq, keyless_eq] at all
        exact all.trans (all_named channelKeys channels)
      have some_ : last.names ≠ [] := by
        intro nameless
        have alone : groups = [] := by
          by_contra more
          exact finished.last more nameless
        rw [alone] at named
        exact empty (by simpa [nameless] using named)
      obtain ⟨past_some, past_fits⟩ := finished.past some_
      refine ⟨groups ++ [last], ?_, keyed_eq, keyless_eq, named, past_some, past_fits⟩
      rw [buildBatchedJoins, if_neg empty, finished.flushed some_]
  obtain ⟨groups, partitioned⟩ := built
  refine ⟨groups, partitioned, ?_⟩
  intro clean
  rw [partitioned.lines_eq, List.map_map]
  apply List.map_congr_left
  intro group member
  apply readLine_line group (partitioned.some_ group member)
  · intro name inside
    have named := partitioned.named.subset (List.mem_flatMap.mpr ⟨group, member, inside⟩)
    exact (clean name named).1
  · intro key inside
    obtain ⟨entry, entry_inside, rfl⟩ := List.mem_map.mp inside
    have listed : entry ∈ keyedOf channelKeys channels := by
      rw [← partitioned.keyed]
      exact List.mem_flatMap.mpr ⟨group, member, entry_inside⟩
    obtain ⟨chan, chan_member, found⟩ := List.mem_filterMap.mp listed
    obtain ⟨value, value_key, rfl⟩ := Option.map_eq_some_iff.mp found
    exact (clean chan chan_member).2 value value_key

end Repartee.Irc.JoinBatches
