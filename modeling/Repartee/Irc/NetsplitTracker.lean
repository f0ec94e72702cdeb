import Repartee.Lib.Run
import Repartee.Irc.Netsplit

/-!
The tracker of netsplits: the quits of a split and the joins after it are collected in groups by
the two servers, and the group lines are posted once a group has been quiet. Instants are in
nanoseconds.
-/

namespace Repartee.Irc

open Text Lib

structure SplitRecord where
  nick : Str
  channels : List Str
  deriving DecidableEq

structure SplitGroup where
  server1 : Str
  server2 : Str
  nicks : List SplitRecord
  lastQuit : Nat
  printed : Bool
  deriving DecidableEq

structure NetjoinRecord where
  nick : Str
  channels : List Str
  deriving DecidableEq

structure NetjoinGroup where
  server1 : Str
  server2 : Str
  records : List NetjoinRecord
  lastJoin : Nat
  printed : Bool
  deriving DecidableEq

structure NetsplitMessage where
  bufferIds : List Str
  text : Str
  deriving DecidableEq

structure NetsplitState where
  groups : List SplitGroup
  /-- By the nick in lower case, the place of its group. -/
  nickIndex : Map Str Nat
  netjoins : List NetjoinGroup

def splitBatchWait : Nat := 5 * 1000000000

def netjoinBatchWait : Nat := 5 * 1000000000

def splitExpire : Nat := 60 * 60 * 1000000000

def isValidSplitHost (host : Str) : Bool :=
  !decide (utf8Length host < 3) && host.head? ≠ some '.' && host.getLast? ≠ some '.' &&
    !decide ("..".toList <:+: host) &&
    match splitOnce '.' host.reverse with
    | none => false
    | some (tld, before) => !before.isEmpty && !decide (utf8Length tld < 2) &&
        tld.all fun c => ('a' ≤ c && c ≤ 'z') || ('A' ≤ c && c ≤ 'Z')

/-- Two host names and a single space between them. -/
def isNetsplitQuit (message : Str) : Bool :=
  !message.contains ':' && !message.contains '/' &&
    match splitOnce ' ' message with
    | none => false
    | some (host1, host2) => !host1.isEmpty && !host2.isEmpty && !host2.contains ' ' &&
        isValidSplitHost host1 && isValidSplitHost host2 && host1 ≠ host2

section Messages

/-- The channels of the records, each with the nicks in it. -/
def nicksByChannel (records : List (Str × List Str)) : List (Str × List Str) :=
  (records.flatMap Prod.snd).eraseDups.map fun channel =>
    (channel, records.flatMap fun r => (r.2.filter fun c => c = channel).map fun _ => r.1)

def formatSplitMessages (group : SplitGroup) : List NetsplitMessage :=
  (nicksByChannel (group.nicks.map fun r => (r.nick, r.channels))).map fun entry =>
    ⟨[entry.1], "Netsplit ".toList ++ group.server1 ++ " ⇄ ".toList ++ group.server2 ++
      " quits: ".toList ++ formatNickList entry.2⟩

def formatNetjoinMessages (group : NetjoinGroup) : List NetsplitMessage :=
  (nicksByChannel (group.records.map fun r => (r.nick, r.channels))).map fun entry =>
    ⟨[entry.1], "Netsplit over ".toList ++ group.server1 ++ " ⇄ ".toList ++ group.server2 ++
      " joins: ".toList ++ formatNickList entry.2⟩

end Messages

section Operations

variable (unicode : Unicode)

/-- Where the group of the two servers stands that is not printed yet. -/
def openGroup (server1 server2 : Str) (groups : List SplitGroup) : Option Nat :=
  groups.findIdx? fun g => g.server1 = server1 && g.server2 = server2 && !g.printed

def fileQuit (nick : Str) (affected : List Str) (now : Nat) (g : SplitGroup) : SplitGroup :=
  { g with nicks := g.nicks ++ [⟨nick, affected⟩], lastQuit := now }

/-- The groups with the quit in them, and the place of its group. -/
def groupQuit (server1 server2 nick : Str) (affected : List Str) (now : Nat)
    (groups : List SplitGroup) : List SplitGroup × Nat :=
  match openGroup server1 server2 groups with
  | some idx => (groups.modify idx (fileQuit nick affected now), idx)
  | none => (groups ++ [fileQuit nick affected now ⟨server1, server2, [], now, false⟩],
      groups.length)

/-- Files a rejoin under the nick, whatever the case of its ASCII letters. -/
def recordNetjoin (nick bufferId : Str) : List NetjoinRecord → List NetjoinRecord
  | [] => [⟨nick, [bufferId]⟩]
  | r :: rest =>
      if eqNocase r.nick nick then { r with channels := pushNew bufferId r.channels } :: rest
      else r :: recordNetjoin nick bufferId rest

def fileJoin (nick bufferId : Str) (now : Nat) (g : NetjoinGroup) : NetjoinGroup :=
  { g with records := recordNetjoin nick bufferId g.records, lastJoin := now }

def groupJoin (server1 server2 nick bufferId : Str) (now : Nat) (netjoins : List NetjoinGroup) :
    List NetjoinGroup :=
  match netjoins.findIdx? fun g => g.server1 = server1 && g.server2 = server2 && !g.printed with
  | some idx => netjoins.modify idx (fileJoin nick bufferId now)
  | none => netjoins ++ [fileJoin nick bufferId now ⟨server1, server2, [], now, false⟩]

/-- The nicks of the groups in lower case, each with the place of its group. -/
def indexEntries (groups : List SplitGroup) : List (Str × Nat) :=
  groups.zipIdx.flatMap fun entry => entry.1.nicks.map fun r => (unicode.toLowercase r.nick, entry.2)

def rebuildIndex (groups : List SplitGroup) : Map Str Nat :=
  (indexEntries unicode groups).foldl (fun index entry => Map.insert index entry.1 entry.2)
    Table.empty

namespace NetsplitState

def new : NetsplitState := ⟨[], Table.empty, []⟩

/-- Whether the quit is part of a split, and so shown in a group line only. -/
def handleQuit (s : NetsplitState) (nick message : Str) (affected : List Str) (now : Nat) :
    Bool × NetsplitState :=
  if isNetsplitQuit message then
    match splitOnce ' ' message with
    | none => (false, s)
    | some (server1, server2) =>
        let filed := groupQuit server1 server2 nick affected now s.groups
        (true, { s with
          groups := filed.1
          nickIndex := s.nickIndex.insert (unicode.toLowercase nick) filed.2 })
  else (false, s)

/-- Whether the join is a rejoin after a split, and so shown in a group line only. -/
def handleJoin (s : NetsplitState) (nick bufferId : Str) (now : Nat) : Bool × NetsplitState :=
  match s.nickIndex.get? (unicode.toLowercase nick) with
  | none => (false, s)
  | some groupIdx => match s.groups[groupIdx]? with
      | none => (false, { s with nickIndex := s.nickIndex.erase (unicode.toLowercase nick) })
      | some group => (true, { s with
          netjoins := groupJoin group.server1 group.server2 nick bufferId now s.netjoins
          nickIndex := s.nickIndex.erase (unicode.toLowercase nick) })

def splitQuiet (now : Nat) (g : SplitGroup) : Bool := !g.printed && splitBatchWait ≤ now - g.lastQuit

def netjoinQuiet (now : Nat) (g : NetjoinGroup) : Bool :=
  !g.printed && netjoinBatchWait ≤ now - g.lastJoin

/-- The groups a tick keeps, with those printed that have been quiet. -/
def tickGroups (now : Nat) (groups : List SplitGroup) : List SplitGroup :=
  (groups.map fun g => if splitQuiet now g then { g with printed := true } else g).filter fun g =>
    now - g.lastQuit < splitExpire

def tick (s : NetsplitState) (now : Nat) : List NetsplitMessage × NetsplitState :=
  ((s.groups.filter (splitQuiet now)).flatMap formatSplitMessages ++
      (s.netjoins.filter (netjoinQuiet now)).flatMap formatNetjoinMessages,
    { groups := tickGroups now s.groups
      nickIndex := rebuildIndex unicode (tickGroups now s.groups)
      netjoins := (s.netjoins.map fun g =>
        if netjoinQuiet now g then { g with printed := true } else g).filter fun g =>
          now - g.lastJoin < splitExpire })

end NetsplitState

end Operations

section Index

variable {unicode : Unicode} {groups : List SplitGroup} {key : Str}

/-- A quit of the nick, given in lower case, is on record. -/
def onRecord (unicode : Unicode) (groups : List SplitGroup) (key : Str) : Prop :=
  ∃ g ∈ groups, ∃ r ∈ g.nicks, unicode.toLowercase r.nick = key

instance (unicode : Unicode) (groups : List SplitGroup) (key : Str) :
    Decidable (onRecord unicode groups key) :=
  inferInstanceAs (Decidable (∃ g ∈ groups, ∃ r ∈ g.nicks, unicode.toLowercase r.nick = key))

theorem get?_inserts (entries : List (Str × Nat)) (index : Map Str Nat) (key : Str) :
    (((entries.foldl (fun index entry => Map.insert index entry.1 entry.2) index).get? key).isSome ↔
        (index.get? key).isSome ∨ ∃ entry ∈ entries, entry.1 = key) ∧
      ∀ idx, (entries.foldl (fun index entry => Map.insert index entry.1 entry.2) index).get? key =
        some idx → index.get? key = some idx ∨ (key, idx) ∈ entries := by
  induction entries generalizing index with
  | nil => simp
  | cons entry rest ih =>
      have tail := ih (Map.insert index entry.1 entry.2)
      simp only [Map.get?_insert] at tail
      rw [List.foldl_cons]
      by_cases same : entry.1 = key
      · rw [if_pos same] at tail
        refine ⟨by rw [tail.1]; simp [same], ?_⟩
        intro idx found
        rcases tail.2 idx found with here | later
        · right
          rw [← Option.some.inj here, ← same]
          exact List.mem_cons_self
        · exact Or.inr (List.mem_cons_of_mem _ later)
      · rw [if_neg same] at tail
        refine ⟨by rw [tail.1]; simp [same], ?_⟩
        intro idx found
        exact (tail.2 idx found).imp id (List.mem_cons_of_mem _)

theorem mem_indexEntries (entry : Str × Nat) : entry ∈ indexEntries unicode groups ↔
    ∃ g, groups[entry.2]? = some g ∧ ∃ r ∈ g.nicks, unicode.toLowercase r.nick = entry.1 := by
  rcases entry with ⟨key, idx⟩
  simp only [indexEntries, List.mem_flatMap, List.mem_map, Prod.mk.injEq, Prod.exists,
    List.mem_zipIdx_iff_getElem?]
  constructor
  · rintro ⟨g, i, at_, r, member, same, rfl⟩
    exact ⟨g, at_, r, member, same⟩
  · rintro ⟨g, at_, r, member, same⟩
    exact ⟨g, idx, at_, r, member, same, rfl⟩

theorem exists_indexEntries (key : Str) :
    (∃ entry ∈ indexEntries unicode groups, entry.1 = key) ↔ onRecord unicode groups key := by
  constructor
  · rintro ⟨entry, member, rfl⟩
    rcases (mem_indexEntries entry).mp member with ⟨g, at_, r, inside, same⟩
    exact ⟨g, List.mem_of_getElem? at_, r, inside, same⟩
  · rintro ⟨g, member, r, inside, same⟩
    rcases List.mem_iff_getElem?.mp member with ⟨idx, at_⟩
    exact ⟨(key, idx), (mem_indexEntries _).mpr ⟨g, at_, r, inside, same⟩, rfl⟩

/-- The rebuilt index holds every nick on record. -/
theorem rebuildIndex_isSome (key : Str) :
    ((rebuildIndex unicode groups).get? key).isSome ↔ onRecord unicode groups key := by
  unfold rebuildIndex
  rw [(get?_inserts (indexEntries unicode groups) Table.empty key).1, exists_indexEntries]
  simp [Map.get?, Table.find?_empty]

theorem rebuildIndex_bounded (idx : Nat)
    (found : (rebuildIndex unicode groups).get? key = some idx) : idx < groups.length := by
  rcases (get?_inserts (indexEntries unicode groups) Table.empty key).2 idx found with none_ | member
  · simp [Map.get?, Table.find?_empty] at none_
  · rcases (mem_indexEntries (key, idx)).mp member with ⟨g, at_, _⟩
    exact (List.getElem?_eq_some_iff.mp at_).1

end Index

/-- A group with what its quits are still owed: the nicks in lower case, each with a buffer it
quit from and has not rejoined. -/
structure LedgerGroup where
  group : SplitGroup
  owed : List (Str × Str)

/-- The groups, and the nicks that joined some buffer since they last quit and since the last
tick. -/
structure Ledger where
  groups : List LedgerGroup
  joined : List Str

namespace Ledger

variable (unicode : Unicode)

def new : Ledger := ⟨[], []⟩

def fileDebt (nick : Str) (affected : List Str) (now : Nat) (g : LedgerGroup) : LedgerGroup :=
  ⟨fileQuit nick affected now g.group,
    g.owed ++ affected.map fun bufferId => (unicode.toLowercase nick, bufferId)⟩

def groupDebt (server1 server2 nick : Str) (affected : List Str) (now : Nat)
    (groups : List LedgerGroup) : List LedgerGroup :=
  match openGroup server1 server2 (groups.map LedgerGroup.group) with
  | some idx => groups.modify idx (fileDebt unicode nick affected now)
  | none => groups ++
      [fileDebt unicode nick affected now ⟨⟨server1, server2, [], now, false⟩, []⟩]

def quit (l : Ledger) (nick message : Str) (affected : List Str) (now : Nat) : Ledger :=
  if isNetsplitQuit message then
    match splitOnce ' ' message with
    | none => l
    | some (server1, server2) =>
        ⟨groupDebt unicode server1 server2 nick affected now l.groups,
          l.joined.filter fun key => key ≠ unicode.toLowercase nick⟩
  else l

/-- The nick quit from the buffer in a split that has not expired, and has not rejoined it. -/
def owes (l : Ledger) (nick bufferId : Str) (now : Nat) : Bool :=
  l.groups.any fun g => now - g.group.lastQuit < splitExpire &&
    decide ((unicode.toLowercase nick, bufferId) ∈ g.owed)

def join (l : Ledger) (nick bufferId : Str) : Ledger :=
  ⟨l.groups.map fun g =>
      { g with owed := g.owed.filter fun debt => debt ≠ (unicode.toLowercase nick, bufferId) },
    unicode.toLowercase nick :: l.joined⟩

def tick (l : Ledger) (now : Nat) : Ledger :=
  ⟨(l.groups.map fun g =>
      if NetsplitState.splitQuiet now g.group then { g with group.printed := true } else g).filter
        fun g => now - g.group.lastQuit < splitExpire, []⟩

/-- The nick has a quit on record and has joined no buffer since its last quit and the last tick. -/
def waits (l : Ledger) (nick : Str) : Prop :=
  onRecord unicode (l.groups.map LedgerGroup.group) (unicode.toLowercase nick) ∧
    unicode.toLowercase nick ∉ l.joined

instance (l : Ledger) (nick : Str) : Decidable (l.waits unicode nick) :=
  inferInstanceAs (Decidable (onRecord unicode (l.groups.map LedgerGroup.group)
    (unicode.toLowercase nick) ∧ unicode.toLowercase nick ∉ l.joined))

/-- A nick that is owed the buffer has joined no buffer since it last quit and since the last tick;
one that is not owed it has no quit on record, or has joined some buffer since. -/
def Clear (l : Ledger) (nick bufferId : Str) (now : Nat) : Prop :=
  if l.owes unicode nick bufferId now then unicode.toLowercase nick ∉ l.joined
  else ¬onRecord unicode (l.groups.map LedgerGroup.group) (unicode.toLowercase nick) ∨
    unicode.toLowercase nick ∈ l.joined

end Ledger

inductive NetsplitCall where
  | quit (nick message : Str) (affected : List Str)
  | join (nick bufferId : Str)
  | tick

section Runs

variable (unicode : Unicode)

def NetsplitState.call (s : NetsplitState) (now : Nat) : NetsplitCall → NetsplitState
  | .quit nick message affected => (s.handleQuit unicode nick message affected now).2
  | .join nick bufferId => (s.handleJoin unicode nick bufferId now).2
  | .tick => (s.tick unicode now).2

def Ledger.call (l : Ledger) (now : Nat) : NetsplitCall → Ledger
  | .quit nick message affected => l.quit unicode nick message affected now
  | .join nick bufferId => l.join unicode nick bufferId
  | .tick => l.tick now

/-- What the tracker answers to the joins. -/
def joinAnswers : NetsplitState → List (Nat × NetsplitCall) → List Bool
  | _, [] => []
  | s, (now, .join nick bufferId) :: rest =>
      (s.handleJoin unicode nick bufferId now).1 ::
        joinAnswers (s.call unicode now (.join nick bufferId)) rest
  | s, (now, made) :: rest => joinAnswers (s.call unicode now made) rest

/-- Which joins are rejoins. -/
def owedAnswers : Ledger → List (Nat × NetsplitCall) → List Bool
  | _, [] => []
  | l, (now, .join nick bufferId) :: rest =>
      l.owes unicode nick bufferId now :: owedAnswers (l.call unicode now (.join nick bufferId)) rest
  | l, (now, made) :: rest => owedAnswers (l.call unicode now made) rest

def JoinsClear : Ledger → List (Nat × NetsplitCall) → Prop
  | _, [] => True
  | l, (now, .join nick bufferId) :: rest =>
      l.Clear unicode nick bufferId now ∧ JoinsClear (l.call unicode now (.join nick bufferId)) rest
  | l, (now, made) :: rest => JoinsClear (l.call unicode now made) rest

end Runs

section Tied

variable {unicode : Unicode} {s : NetsplitState} {l : Ledger}

/-- The index holds the nicks that wait. -/
structure Tied (unicode : Unicode) (s : NetsplitState) (l : Ledger) : Prop where
  groups : s.groups = l.groups.map LedgerGroup.group
  bounded : ∀ key idx, s.nickIndex.get? key = some idx → idx < s.groups.length
  indexed : ∀ key, (s.nickIndex.get? key).isSome = true ↔
    onRecord unicode s.groups key ∧ key ∉ l.joined
  backed : ∀ g ∈ l.groups, ∀ debt ∈ g.owed, ∃ r ∈ g.group.nicks, unicode.toLowercase r.nick = debt.1

theorem tied_new : Tied unicode NetsplitState.new Ledger.new where
  groups := rfl
  bounded := by
    intro key idx found
    simp [NetsplitState.new, Map.get?, Table.find?_empty] at found
  indexed := by
    intro key
    simp [NetsplitState.new, onRecord, Map.get?, Table.find?_empty]
  backed := by
    intro g member
    cases member

theorem map_modify_group (f : LedgerGroup → LedgerGroup) (g : SplitGroup → SplitGroup)
    (same : ∀ x, (f x).group = g x.group) (groups : List LedgerGroup) (idx : Nat) :
    (groups.modify idx f).map LedgerGroup.group = (groups.map LedgerGroup.group).modify idx g := by
  induction groups generalizing idx with
  | nil => simp
  | cons head rest ih =>
      cases idx with
      | zero => simp [same]
      | succ idx => simp [ih]

theorem groupDebt_group (server1 server2 nick : Str) (affected : List Str) (now : Nat)
    (groups : List LedgerGroup) :
    (Ledger.groupDebt unicode server1 server2 nick affected now groups).map LedgerGroup.group =
      (groupQuit server1 server2 nick affected now (groups.map LedgerGroup.group)).1 := by
  unfold Ledger.groupDebt groupQuit
  cases openGroup server1 server2 (groups.map LedgerGroup.group) with
  | none => simp [Ledger.fileDebt]
  | some idx => exact map_modify_group _ _ (fun _ => rfl) groups idx

/-- Filing a quit puts its nick on record and keeps what is there. -/
theorem groupQuit_onRecord (server1 server2 nick : Str) (affected : List Str) (now : Nat)
    (groups : List SplitGroup) (key : Str) :
    onRecord unicode (groupQuit server1 server2 nick affected now groups).1 key ↔
      key = unicode.toLowercase nick ∨ onRecord unicode groups key := by
  unfold groupQuit openGroup
  cases place : groups.findIdx? fun g => g.server1 = server1 && g.server2 = server2 && !g.printed with
  | none =>
      simp only [onRecord, fileQuit, List.mem_append, List.mem_singleton, List.nil_append]
      constructor
      · rintro ⟨g, old | rfl, r, inside, same⟩
        · exact Or.inr ⟨g, old, r, inside, same⟩
        · rw [List.mem_singleton.mp inside] at same
          exact Or.inl same.symm
      · rintro (rfl | ⟨g, old, r, inside, same⟩)
        · exact ⟨_, Or.inr rfl, _, List.mem_singleton_self _, rfl⟩
        · exact ⟨g, Or.inl old, r, inside, same⟩
  | some idx =>
      have bound := (List.findIdx?_eq_some_iff_getElem.mp place).1
      simp only [onRecord, List.mem_iff_getElem?, List.getElem?_modify]
      constructor
      · rintro ⟨g, ⟨i, at_⟩, r, inside, same⟩
        cases old : groups[i]? with
        | none => simp [old] at at_
        | some g' =>
            simp only [old, Option.map_eq_map, Option.map_some, Option.some.injEq] at at_
            by_cases here : idx = i
            · rw [if_pos here] at at_
              rw [← at_] at inside
              simp only [fileQuit, ← List.mem_iff_getElem?, List.mem_append,
                List.mem_singleton] at inside
              rcases inside with before | rfl
              · exact Or.inr ⟨g', ⟨i, old⟩, r, List.mem_iff_getElem?.mp before, same⟩
              · exact Or.inl same.symm
            · rw [if_neg here] at at_
              rw [← at_] at inside
              exact Or.inr ⟨g', ⟨i, old⟩, r, inside, same⟩
      · rintro (rfl | ⟨g, ⟨i, old⟩, r, inside, same⟩)
        · refine ⟨fileQuit nick affected now groups[idx], ⟨idx, by simp [bound]⟩, ⟨nick, affected⟩,
            List.mem_iff_getElem?.mp (by simp [fileQuit]), rfl⟩
        · by_cases here : idx = i
          · refine ⟨fileQuit nick affected now g, ⟨i, by simp [old, here]⟩, r,
              List.mem_iff_getElem?.mp ?_, same⟩
            exact List.mem_append_left _ (List.mem_iff_getElem?.mpr inside)
          · exact ⟨g, ⟨i, by simp [old, here]⟩, r, inside, same⟩

theorem groupQuit_place (server1 server2 nick : Str) (affected : List Str) (now : Nat)
    (groups : List SplitGroup) :
    (groupQuit server1 server2 nick affected now groups).2 <
        (groupQuit server1 server2 nick affected now groups).1.length ∧
      groups.length ≤ (groupQuit server1 server2 nick affected now groups).1.length := by
  unfold groupQuit openGroup
  cases place : groups.findIdx? fun g => g.server1 = server1 && g.server2 = server2 && !g.printed with
  | none => simp
  | some idx =>
      have bound := (List.findIdx?_eq_some_iff_getElem.mp place).1
      simpa using bound

theorem backed_fileDebt (nick : Str) (affected : List Str) (now : Nat) (g : LedgerGroup)
    (backed : ∀ debt ∈ g.owed, ∃ r ∈ g.group.nicks, unicode.toLowercase r.nick = debt.1) :
    ∀ debt ∈ (Ledger.fileDebt unicode nick affected now g).owed,
      ∃ r ∈ (Ledger.fileDebt unicode nick affected now g).group.nicks,
        unicode.toLowercase r.nick = debt.1 := by
  intro debt member
  rcases List.mem_append.mp member with old | fresh
  · rcases backed debt old with ⟨r, inside, same⟩
    exact ⟨r, List.mem_append_left _ inside, same⟩
  · rcases List.mem_map.mp fresh with ⟨bufferId, _, rfl⟩
    exact ⟨⟨nick, affected⟩, List.mem_append_right _ (List.mem_singleton_self _), rfl⟩

theorem backed_groupDebt (server1 server2 nick : Str) (affected : List Str) (now : Nat)
    (groups : List LedgerGroup)
    (backed : ∀ g ∈ groups, ∀ debt ∈ g.owed,
      ∃ r ∈ g.group.nicks, unicode.toLowercase r.nick = debt.1) :
    ∀ g ∈ Ledger.groupDebt unicode server1 server2 nick affected now groups, ∀ debt ∈ g.owed,
      ∃ r ∈ g.group.nicks, unicode.toLowercase r.nick = debt.1 := by
  intro g member
  unfold Ledger.groupDebt at member
  cases place : openGroup server1 server2 (groups.map LedgerGroup.group) with
  | none =>
      simp only [place] at member
      rcases List.mem_append.mp member with old | fresh
      · exact backed g old
      · rw [List.mem_singleton.mp fresh]
        apply backed_fileDebt
        intro debt inside
        cases inside
  | some idx =>
      simp only [place] at member
      rcases List.mem_iff_getElem?.mp member with ⟨i, at_⟩
      rw [List.getElem?_modify] at at_
      cases old : groups[i]? with
      | none => simp [old] at at_
      | some g' =>
          have held := backed g' (List.mem_of_getElem? old)
          simp only [old, Option.map_eq_map, Option.map_some, Option.some.injEq] at at_
          rw [← at_]
          split
          · exact backed_fileDebt nick affected now g' held
          · exact held

theorem Tied.quit (tied : Tied unicode s l) (nick message : Str) (affected : List Str) (now : Nat) :
    Tied unicode (s.handleQuit unicode nick message affected now).2
      (l.quit unicode nick message affected now) := by
  unfold NetsplitState.handleQuit Ledger.quit
  split
  · cases splitOnce ' ' message with
    | none => exact tied
    | some servers =>
        rcases servers with ⟨server1, server2⟩
        have place := groupQuit_place server1 server2 nick affected now s.groups
        constructor
        · simp only [groupDebt_group, tied.groups]
        · intro key idx found
          simp only [Map.get?_insert] at found
          split at found
          · rw [← Option.some.inj found]
            exact place.1
          · exact lt_of_lt_of_le (tied.bounded key idx found) place.2
        · intro key
          simp only [Map.get?_insert, groupQuit_onRecord, List.mem_filter, decide_not,
            Bool.not_eq_true', decide_eq_false_iff_not, not_and, Decidable.not_not]
          by_cases own : unicode.toLowercase nick = key
          · simp [own]
          · rw [if_neg own, tied.indexed key]
            simp [Ne.symm own]
        · exact backed_groupDebt server1 server2 nick affected now l.groups tied.backed
  · exact tied

/-- A debt is backed by a quit on record. -/
theorem Tied.owes_onRecord (tied : Tied unicode s l) (nick bufferId : Str) (now : Nat)
    (owed : l.owes unicode nick bufferId now = true) :
    onRecord unicode (l.groups.map LedgerGroup.group) (unicode.toLowercase nick) := by
  simp only [Ledger.owes, List.any_eq_true, Bool.and_eq_true, decide_eq_true_eq] at owed
  rcases owed with ⟨g, member, _, debt⟩
  rcases tied.backed g member _ debt with ⟨r, inside, same⟩
  exact ⟨g.group, List.mem_map_of_mem member, r, inside, same⟩

theorem Tied.clear_iff (tied : Tied unicode s l) (nick bufferId : Str) (now : Nat) :
    l.Clear unicode nick bufferId now ↔
      (l.waits unicode nick ↔ l.owes unicode nick bufferId now = true) := by
  have record := tied.owes_onRecord nick bufferId now
  unfold Ledger.Clear Ledger.waits
  by_cases owed : l.owes unicode nick bufferId now = true
  · simp [owed, record owed]
  · simp only [owed, Bool.false_eq_true, if_false, iff_false, not_and_or, Decidable.not_not]

theorem Tied.backed_join (tied : Tied unicode s l) (nick bufferId : Str) :
    ∀ g ∈ (l.join unicode nick bufferId).groups, ∀ debt ∈ g.owed,
      ∃ r ∈ g.group.nicks, unicode.toLowercase r.nick = debt.1 := by
  intro g member debt inside
  rcases List.mem_map.mp member with ⟨old, there, rfl⟩
  exact tied.backed old there debt (List.mem_filter.mp inside).1

theorem Tied.join (tied : Tied unicode s l) (nick bufferId : Str) (now : Nat) :
    ((s.handleJoin unicode nick bufferId now).1 = true ↔ l.waits unicode nick) ∧
      Tied unicode (s.handleJoin unicode nick bufferId now).2 (l.join unicode nick bufferId) := by
  have answer := tied.indexed (unicode.toLowercase nick)
  rw [tied.groups] at answer
  have kept : (l.join unicode nick bufferId).groups.map LedgerGroup.group =
      l.groups.map LedgerGroup.group := by
    simp [Ledger.join]
  unfold NetsplitState.handleJoin
  cases found : s.nickIndex.get? (unicode.toLowercase nick) with
  | none =>
      rw [found] at answer
      refine ⟨by simpa [Ledger.waits] using answer,
        ⟨by rw [tied.groups, kept], tied.bounded, ?_, tied.backed_join nick bufferId⟩⟩
      intro key
      rw [tied.indexed key]
      simp only [Ledger.join, List.mem_cons, not_or]
      constructor
      · rintro ⟨record, free⟩
        refine ⟨record, ?_, free⟩
        rintro rfl
        rw [tied.groups] at record
        exact absurd (answer.mpr ⟨record, free⟩) (by simp)
      · rintro ⟨record, _, free⟩
        exact ⟨record, free⟩
  | some idx =>
      have there := List.getElem?_eq_getElem (tied.bounded _ idx found)
      rw [found] at answer
      simp only [there]
      refine ⟨by simpa [Ledger.waits] using answer,
        ⟨by rw [tied.groups, kept], ?_, ?_, tied.backed_join nick bufferId⟩⟩
      · intro key i at_
        simp only [Map.get?_erase] at at_
        split at at_
        · cases at_
        · exact tied.bounded key i at_
      · intro key
        simp only [Map.get?_erase, Ledger.join, List.mem_cons, not_or]
        by_cases own : unicode.toLowercase nick = key
        · simp [own]
        · rw [if_neg own, tied.indexed key]
          simp [Ne.symm own]

theorem tickGroups_group (now : Nat) (groups : List LedgerGroup) :
    (Ledger.tick ⟨groups, []⟩ now).groups.map LedgerGroup.group =
      NetsplitState.tickGroups now (groups.map LedgerGroup.group) := by
  unfold Ledger.tick NetsplitState.tickGroups
  simp only [List.map_map, List.filter_map]
  have same (g : LedgerGroup) :
      (if NetsplitState.splitQuiet now g.group then { g with group.printed := true } else g).group =
        if NetsplitState.splitQuiet now g.group then { g.group with printed := true }
        else g.group := by
    split <;> rfl
  congr 1
  · funext g
    exact same g
  · apply List.filter_congr
    intro g _
    simp only [Function.comp_apply, same]

theorem Tied.tick (tied : Tied unicode s l) (now : Nat) :
    Tied unicode (s.tick unicode now).2 (l.tick now) := by
  have groups : (s.tick unicode now).2.groups = (l.tick now).groups.map LedgerGroup.group := by
    have same := tickGroups_group now l.groups
    rw [← tied.groups] at same
    exact same.symm
  refine ⟨groups, fun key idx found => rebuildIndex_bounded idx found, ?_, ?_⟩
  · intro key
    simp only [NetsplitState.tick, rebuildIndex_isSome, Ledger.tick, List.not_mem_nil, not_false_eq_true,
      and_true]
  · intro g member
    rcases List.mem_map.mp (List.mem_filter.mp member).1 with ⟨old, there, rfl⟩
    have held := tied.backed old there
    split
    · exact held
    · exact held

/-- The tracker hides a join exactly when it is a rejoin, at every join of a run, just when every
join of the run is clear. -/
theorem joins_follow (tied : Tied unicode s l) (calls : List (Nat × NetsplitCall)) :
    joinAnswers unicode s calls = owedAnswers unicode l calls ↔ JoinsClear unicode l calls := by
  induction calls generalizing s l with
  | nil => simp [joinAnswers, owedAnswers, JoinsClear]
  | cons head rest ih =>
      rcases head with ⟨now, made⟩
      cases made with
      | quit nick message affected => exact ih (tied.quit nick message affected now)
      | tick => exact ih (tied.tick now)
      | join nick bufferId =>
          have step := tied.join nick bufferId now
          have tail := ih step.2
          simp only [joinAnswers, owedAnswers, JoinsClear, List.cons.injEq]
          apply and_congr _ tail
          rw [Bool.eq_iff_iff, step.1, tied.clear_iff]

end Tied

/-- A user quits from two channels and comes back to both; later it leaves the first and joins it
once more. -/
def twoChannelSplit : List (Nat × NetsplitCall) :=
  [(0, .quit "bob".toList "a.example.org b.example.org".toList ["net/#a".toList, "net/#b".toList]),
    (60 * 1000000000, .join "bob".toList "net/#a".toList),
    (60 * 1000000000, .join "bob".toList "net/#b".toList),
    (61 * 1000000000, .tick),
    (120 * 1000000000, .join "bob".toList "net/#a".toList)]

end Repartee.Irc
