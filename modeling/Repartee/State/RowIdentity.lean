import Repartee.State.Delivery

/-!
The two rules by which a row is known again: the test a history splice puts to the rows of a
buffer, and the key under which the archive files a row once.
-/

namespace Repartee.State

open Text Lib Translate

/-- A row as it came off the wire with its tags. The log key is set only on rows read back from the
log, the id of a redaction only on a placeholder, and neither kind has tags. -/
structure WireRow where
  row : Message
  tagged : row.rest.tags.isSome = true
  unlogged : row.rest.logKey = none
  shown : row.rest.redactionMsgid = none

/-- The id the server gave a row, when it gave one. -/
def serverId (m : Message) : Option Str := (m.tag "msgid".toList).filter fun id => !id.isEmpty

/-- What the hash of a row covers, besides the network and the buffer. -/
def hashed (m : Message) : Int × Str × Str × Str :=
  (m.timestampMillis, m.rest.nick.getD [], m.rest.messageType.asStr, dedupText m)

/-- The key of a row by its content, which the archive falls back to. -/
def contentKey (network buffer : Str) (m : Message) : Str :=
  syntheticMsgId network buffer m.timestampMillis m.rest.nick m.rest.messageType.asStr (dedupText m)

def CollisionFree (network buffer : Str) (m c : Message) : Prop :=
  contentKey network buffer m = contentKey network buffer c → hashed m = hashed c

instance (network buffer : Str) (m c : Message) : Decidable (CollisionFree network buffer m c) := by
  unfold CollisionFree
  infer_instance

/-- Equal in all that the splice compares of two rows without ids. -/
def SameContent (m c : Message) : Prop :=
  m.timestamp = c.timestamp ∧ m.rest.nick = c.rest.nick ∧
    m.rest.messageType = c.rest.messageType ∧ dedupText m = dedupText c

instance (m c : Message) : Decidable (SameContent m c) := by unfold SameContent; infer_instance

/-- The splice takes the candidate `c` for the row `m` exactly when the archive files them under one
key. -/
def RulesAgree (network buffer : Str) (candidateKey ownNick : Option Str) (m c : Message) : Prop :=
  historyRowMatches m c candidateKey ownNick = true ↔
    storageIdentity network buffer m = storageIdentity network buffer c

instance (network buffer : Str) (candidateKey ownNick : Option Str) (m c : Message) :
    Decidable (RulesAgree network buffer candidateKey ownNick m c) := by
  unfold RulesAgree
  infer_instance

/-- One row has the server's id and the other has none: an empty `msgid` tag settles the splice, its
absence leaves it to the content. -/
def OneSided (network buffer : Str) (id : Str) (named bare : Message) : Prop :=
  if (bare.tag "msgid".toList).isSome then id ≠ contentKey network buffer bare
  else SameContent named bare ↔ id = contentKey network buffer bare

/-- Neither row has the server's id: two empty tags are one id to the splice, and else the content
must not differ below what is hashed. -/
def Unnamed (m c : Message) : Prop :=
  if (m.tag "msgid".toList).isSome ∧ (c.tag "msgid".toList).isSome then hashed m = hashed c
  else hashed m = hashed c → SameContent m c

/-- The rows on which the two rules give one answer. -/
def Comparable (network buffer : Str) (m c : Message) : Prop :=
  match serverId m, serverId c with
  | some _, some _ => True
  | some id, none => OneSided network buffer id m c
  | none, some id => OneSided network buffer id c m
  | none, none => Unnamed m c

theorem asStr_injective : Function.Injective MessageType.asStr := by
  intro a b same
  cases a <;> cases b <;> first | rfl | exact absurd same (by decide)

theorem storageIdentity_eq (network buffer : Str) (m : Message) :
    storageIdentity network buffer m = (serverId m).getD (contentKey network buffer m) := rfl

theorem serverId_of_tag {m : Message} {id : Str} (tag : m.tag "msgid".toList = some id) :
    serverId m = if id = [] then none else some id := by
  unfold serverId
  rw [tag]
  cases id with
  | nil => rfl
  | cons a rest => rfl

theorem serverId_of_untagged {m : Message} (bare : m.tag "msgid".toList = none) :
    serverId m = none := by
  unfold serverId
  rw [bare]
  rfl

theorem tag_of_serverId {m : Message} {id : Str} (named : serverId m = some id) :
    m.tag "msgid".toList = some id :=
  (Option.filter_eq_some_iff.mp named).1

theorem tag_of_unnamed {m : Message} (unnamed : serverId m = none)
    (tagged : (m.tag "msgid".toList).isSome = true) : m.tag "msgid".toList = some [] := by
  cases tag : m.tag "msgid".toList with
  | none =>
      rw [tag] at tagged
      cases tagged
  | some id =>
      cases id with
      | nil => rfl
      | cons a rest => simp [serverId_of_tag tag] at unnamed

theorem SameContent.symm {m c : Message} (same : SameContent m c) : SameContent c m :=
  ⟨same.1.symm, same.2.1.symm, same.2.2.1.symm, same.2.2.2.symm⟩

theorem SameContent.hashed_eq {m c : Message} (same : SameContent m c) : hashed m = hashed c := by
  unfold hashed Message.timestampMillis
  rw [same.1, same.2.1, same.2.2.1, same.2.2.2]

theorem contentKey_of_hashed {network buffer : Str} {m c : Message} (same : hashed m = hashed c) :
    contentKey network buffer m = contentKey network buffer c := by
  simp only [hashed, Prod.mk.injEq] at same
  unfold contentKey syntheticMsgId
  rw [same.1, same.2.1, same.2.2.1, same.2.2.2]

/-- Without collisions the keys by content are equal exactly when all that is hashed is. -/
theorem contentKey_eq_iff {network buffer : Str} {m c : Message}
    (collisionFree : CollisionFree network buffer m c) :
    contentKey network buffer m = contentKey network buffer c ↔ hashed m = hashed c :=
  ⟨collisionFree, contentKey_of_hashed⟩

section Splice

variable (m c : WireRow) (candidateKey ownNick : Option Str)

/-- Of the tiers of the splice only the tags and the content are open to rows off the wire. -/
theorem matches_of_tags {cid mid : Str} (candidateTag : c.row.tag "msgid".toList = some cid)
    (rowTag : m.row.tag "msgid".toList = some mid) :
    historyRowMatches m.row c.row candidateKey ownNick = true ↔ cid = mid := by
  unfold historyRowMatches
  rw [m.shown, candidateTag, rowTag]
  simp

theorem matches_of_untagged
    (bare : m.row.tag "msgid".toList = none ∨ c.row.tag "msgid".toList = none) :
    historyRowMatches m.row c.row candidateKey ownNick = true ↔ SameContent m.row c.row := by
  have arrived : ownEchoMatchesReplay m.row c.row ownNick = false := by
    have tagged := m.tagged
    unfold ownEchoMatchesReplay
    cases ownNick with
    | none => rfl
    | some own => simp [Option.isNone_eq_false_iff.mpr tagged]
  have content : historyRowMatches m.row c.row candidateKey ownNick =
      (m.row.timestamp == c.row.timestamp && m.row.rest.nick == c.row.rest.nick &&
        m.row.rest.messageType == c.row.rest.messageType &&
        dedupText m.row == dedupText c.row) := by
    unfold historyRowMatches
    rw [m.shown, m.unlogged, arrived]
    rcases bare with bare | bare
    · rw [bare]
      simp
    · rw [bare]
      simp
  rw [content]
  simp [SameContent, and_assoc]

end Splice

section Agreement

variable {network buffer : Str} {candidateKey ownNick : Option Str} {m c : WireRow}

theorem agree_of_named {mid cid : Str} (rowNamed : serverId m.row = some mid)
    (candidateNamed : serverId c.row = some cid) :
    RulesAgree network buffer candidateKey ownNick m.row c.row := by
  unfold RulesAgree
  rw [matches_of_tags m c candidateKey ownNick (tag_of_serverId candidateNamed)
    (tag_of_serverId rowNamed), storageIdentity_eq, storageIdentity_eq, rowNamed, candidateNamed]
  exact eq_comm

/-- The splice against the keys when only the row has an id. -/
theorem agree_of_row_named {id : Str} (rowNamed : serverId m.row = some id)
    (bare : serverId c.row = none) :
    RulesAgree network buffer candidateKey ownNick m.row c.row ↔
      OneSided network buffer id m.row c.row := by
  have keys : storageIdentity network buffer m.row = storageIdentity network buffer c.row ↔
      id = contentKey network buffer c.row := by
    rw [storageIdentity_eq, storageIdentity_eq, rowNamed, bare]
    rfl
  have rowTag := tag_of_serverId rowNamed
  unfold RulesAgree OneSided
  rw [keys]
  by_cases tagged : (c.row.tag "msgid".toList).isSome = true
  · rw [if_pos tagged, matches_of_tags m c candidateKey ownNick (tag_of_unnamed bare tagged) rowTag]
    have full : ([] : Str) ≠ id := by
      intro empty
      rw [← empty] at rowNamed
      rw [serverId_of_tag (tag_of_serverId rowNamed)] at rowNamed
      cases rowNamed
    simp [full]
  · rw [if_neg tagged]
    rw [matches_of_untagged m c candidateKey ownNick (Or.inr (by simpa using tagged))]

/-- The splice against the keys when only the candidate has an id. -/
theorem agree_of_candidate_named {id : Str} (candidateNamed : serverId c.row = some id)
    (bare : serverId m.row = none) :
    RulesAgree network buffer candidateKey ownNick m.row c.row ↔
      OneSided network buffer id c.row m.row := by
  have keys : storageIdentity network buffer m.row = storageIdentity network buffer c.row ↔
      id = contentKey network buffer m.row := by
    rw [storageIdentity_eq, storageIdentity_eq, candidateNamed, bare]
    exact eq_comm
  have candidateTag := tag_of_serverId candidateNamed
  unfold RulesAgree OneSided
  rw [keys]
  by_cases tagged : (m.row.tag "msgid".toList).isSome = true
  · rw [if_pos tagged,
      matches_of_tags m c candidateKey ownNick candidateTag (tag_of_unnamed bare tagged)]
    have full : id ≠ [] := by
      intro empty
      rw [empty] at candidateNamed
      rw [serverId_of_tag (tag_of_serverId candidateNamed)] at candidateNamed
      cases candidateNamed
    simp [full]
  · rw [if_neg tagged]
    rw [matches_of_untagged m c candidateKey ownNick (Or.inl (by simpa using tagged))]
    have swapped : SameContent m.row c.row ↔ SameContent c.row m.row :=
      ⟨SameContent.symm, SameContent.symm⟩
    rw [swapped]

/-- The splice against the keys when neither row has an id. -/
theorem agree_of_unnamed (collisionFree : CollisionFree network buffer m.row c.row)
    (rowBare : serverId m.row = none) (candidateBare : serverId c.row = none) :
    RulesAgree network buffer candidateKey ownNick m.row c.row ↔ Unnamed m.row c.row := by
  have keys : storageIdentity network buffer m.row = storageIdentity network buffer c.row ↔
      hashed m.row = hashed c.row := by
    rw [storageIdentity_eq, storageIdentity_eq, rowBare, candidateBare]
    exact contentKey_eq_iff collisionFree
  unfold RulesAgree Unnamed
  rw [keys]
  by_cases tagged : (m.row.tag "msgid".toList).isSome = true ∧
      (c.row.tag "msgid".toList).isSome = true
  · rw [if_pos tagged, matches_of_tags m c candidateKey ownNick
      (tag_of_unnamed candidateBare tagged.2) (tag_of_unnamed rowBare tagged.1)]
    simp
  · rw [if_neg tagged]
    have missing : m.row.tag "msgid".toList = none ∨ c.row.tag "msgid".toList = none := by
      rcases not_and_or.mp tagged with lacks | lacks
      · exact Or.inl (by simpa using lacks)
      · exact Or.inr (by simpa using lacks)
    rw [matches_of_untagged m c candidateKey ownNick missing]
    constructor
    · intro agree
      exact agree.mpr
    · intro fine
      exact ⟨SameContent.hashed_eq, fine⟩

end Agreement

/-- A server that gives no ids, stamps whole milliseconds and names every sender is one on which the
two rules agree. -/
theorem unnamed_of_whole_millis {m c : Message} (rowWhole : 1000000 ∣ m.timestamp)
    (candidateWhole : 1000000 ∣ c.timestamp)
    (senders : m.rest.nick.isSome = true ∧ c.rest.nick.isSome = true)
    (untagged : m.tag "msgid".toList = none) : Unnamed m c := by
  unfold Unnamed
  rw [untagged, if_neg (fun both => by cases both.1)]
  intro same
  simp only [hashed, Message.timestampMillis, Prod.mk.injEq] at same
  obtain ⟨rowNick, rowSender⟩ := Option.isSome_iff_exists.mp senders.1
  obtain ⟨candidateNick, candidateSender⟩ := Option.isSome_iff_exists.mp senders.2
  have times : m.timestamp = c.timestamp := by
    rw [← Int.ediv_mul_cancel rowWhole, ← Int.ediv_mul_cancel candidateWhole, same.1]
  have nicks : m.rest.nick = c.rest.nick := by
    have names := same.2.1
    rw [rowSender, candidateSender] at names ⊢
    exact congrArg some names
  exact ⟨times, nicks, asStr_injective same.2.2.1, same.2.2.2⟩

/-- A row of the wire: its time, its tags and its text. -/
def wireRow (timestamp : Int) (tags : List (Str × Str)) (text : Str) : WireRow where
  row :=
    { text := text
      wireOrigin := none
      rest :=
        { id := 0
          timestamp := timestamp
          messageType := .message
          nick := some "ada".toList
          highlight := false
          eventKey := none
          tags := some (tags.foldl (fun held tag => Map.insert held tag.1 tag.2) Table.empty)
          logKey := none
          redactionMsgid := none } }
  tagged := rfl
  unlogged := rfl
  shown := rfl

/-- Stamped five seconds into the epoch, with as many microseconds as the text of the stamp has. -/
def stampedRow (micros : Int) (stamp : String) (ids : List String) (text : String) : WireRow :=
  wireRow (5000000000 + micros * 1000)
    (("time".toList, stamp.toList) :: ids.map fun id => ("msgid".toList, id.toList)) text.toList

end Repartee.State
