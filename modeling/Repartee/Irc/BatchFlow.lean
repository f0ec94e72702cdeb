import Repartee.Lib.Flow
import Repartee.Irc.Batch

/-!
The tracker loses no message and hands none back twice, as long as no open reference that holds
something is opened again.
-/

namespace Repartee.Irc

open Text Lib

inductive TrackerOp where
  | start (now : Nat) (ref batchType : Str) (params : List Str) (openerTags : Option (List Tag))
  | add (msg : Message)
  | finish (ref : Str)
  | purge (now : Nat)
  /-- A completed batch joins the one around it. -/
  | join (parent : Str) (messages : List (Nat × Message)) (dropped : Nat)
  | invalidate (parent : Option Str)

section Accounts

variable (unicode : Unicode) (tracker : BatchTracker)

def TrackerOp.exec (op : TrackerOp) : BatchTracker :=
  match op with
  | .start now ref batchType params openerTags =>
      tracker.startBatch unicode now ref batchType params openerTags
  | .add msg => (tracker.addMessage msg).2
  | .finish ref => (tracker.endBatch ref).2
  | .purge now => (tracker.purgeExpired now).2
  | .join parent messages dropped => (tracker.foldMessages parent messages dropped).2
  | .invalidate parent => tracker.invalidateParent parent

def messagesOf (e : Str × BatchInfo) : Multiset Message := (e.2.messages : Multiset Message)

def dropsOf (e : Str × BatchInfo) : Nat := e.2.droppedMessages

def BatchTracker.held : Multiset Message := tracker.openBatches.total messagesOf

def BatchTracker.heldDrops : Nat := tracker.openBatches.total dropsOf

/-- The messages the tracker takes. -/
def accepted (op : TrackerOp) : Multiset Message :=
  match op with
  | .add msg => if (tracker.addMessage msg).1 then {msg} else 0
  | .join parent messages dropped =>
      if (tracker.foldMessages parent messages dropped).1 then
        (messages.map Prod.snd : Multiset Message) else 0
  | _ => 0

/-- The messages the tracker gives out. -/
def handedBack (op : TrackerOp) : Multiset Message :=
  match op with
  | .finish ref => ((tracker.endBatch ref).1.map fun info => messagesOf (ref, info)).getD 0
  | .purge now => ((tracker.purgeExpired now).1.map messagesOf).sum
  | _ => 0

/-- The messages a full batch turns away. -/
def discarded (op : TrackerOp) : Multiset Message :=
  match op with
  | .add msg =>
      match (getBatchTag msg).bind tracker.openBatches.get? with
      | none => 0
      | some info => if maxBatchMessages ≤ info.messages.length then {msg} else 0
  | .join parent messages _ =>
      match tracker.openBatches.get? parent with
      | none => 0
      | some info => (((info.combined messages).drop maxBatchMessages).map Prod.snd :
          Multiset Message)
  | _ => 0

/-- The drops that the batch joining another brings along. -/
def bookedIn (op : TrackerOp) : Nat :=
  match op with
  | .join parent messages dropped =>
      if (tracker.foldMessages parent messages dropped).1 then dropped else 0
  | _ => 0

/-- The drops reported with the batches given out. -/
def countedOut (op : TrackerOp) : Nat :=
  match op with
  | .finish ref => ((tracker.endBatch ref).1.map BatchInfo.droppedMessages).getD 0
  | .purge now => ((tracker.purgeExpired now).1.map dropsOf).sum
  | _ => 0

/-- No open batch that holds messages or drops is opened again. -/
def opensAfresh (op : TrackerOp) : Prop :=
  match op with
  | .start _ ref _ _ _ =>
      ∀ info ∈ tracker.openBatches.get? ref, info.messages = [] ∧ info.droppedMessages = 0
  | _ => True

instance (op : TrackerOp) : Decidable (opensAfresh tracker op) :=
  match op with
  | .start _ ref _ _ _ => inferInstanceAs (Decidable (∀ info ∈ tracker.openBatches.get? ref, _))
  | .add _ | .finish _ | .purge _ | .join _ _ _ | .invalidate _ => inferInstanceAs (Decidable True)

end Accounts

section Batches

variable (info : BatchInfo)

theorem combined_perm (messages : List (Nat × Message)) :
    ((info.combined messages).map Prod.snd).Perm (info.messages ++ messages.map Prod.snd) := by
  have unsorted : (info.orderedMessages ++ messages).map Prod.snd =
      info.messages ++ messages.map Prod.snd := by
    simp [BatchInfo.orderedMessages, List.mapIdx_eq_zipIdx_map, Function.comp_def]
  rw [← unsorted]
  exact (List.mergeSort_perm _ _).map Prod.snd

theorem messages_extendMessages (messages : List (Nat × Message)) (dropped : Nat) :
    ((info.extendMessages messages dropped).messages : Multiset Message) +
        (((info.combined messages).drop maxBatchMessages).map Prod.snd : Multiset Message) =
      (info.messages : Multiset Message) + (messages.map Prod.snd : Multiset Message) := by
  rw [Multiset.coe_add, Multiset.coe_add]
  apply Multiset.coe_eq_coe.mpr
  have whole : (info.extendMessages messages dropped).messages ++
      ((info.combined messages).drop maxBatchMessages).map Prod.snd =
        (info.combined messages).map Prod.snd := by
    simp only [BatchInfo.extendMessages, ← List.map_append, List.take_append_drop]
  rw [whole]
  exact combined_perm info messages

theorem drops_extendMessages (messages : List (Nat × Message)) (dropped : Nat) :
    (info.extendMessages messages dropped).droppedMessages = info.droppedMessages + dropped +
      (((info.combined messages).drop maxBatchMessages).map Prod.snd).length := by
  simp [BatchInfo.extendMessages]

theorem drops_invalidate : info.droppedMessages ≤ info.invalidate.droppedMessages := by
  unfold BatchInfo.invalidate
  split <;> simp

@[simp] theorem messages_invalidate : info.invalidate.messages = info.messages := by
  unfold BatchInfo.invalidate
  split <;> rfl

end Batches

section Steps

variable (tracker : BatchTracker) (ref : Str) (g : BatchInfo → BatchInfo)

theorem get?_update (k : Str) : (tracker.update ref g).openBatches.get? k =
    if ref = k then (tracker.openBatches.get? k).map g else tracker.openBatches.get? k := by
  unfold BatchTracker.update
  cases found : tracker.openBatches.get? ref with
  | none =>
      by_cases same : ref = k
      · subst same
        simp [found]
      · simp [same]
  | some info =>
      simp only [Map.get?_insert]
      by_cases same : ref = k
      · subst same
        simp [found]
      · simp [same]

/-- A rewrite of one batch changes a sum by what it changes there. -/
theorem total_update {M : Type} [AddCommMonoid M] (f : Str × BatchInfo → M) (info : BatchInfo)
    (found : tracker.openBatches.get? ref = some info) :
    (tracker.update ref g).openBatches.total f =
      (tracker.openBatches.erase ref).total f + f (ref, g info) := by
  simp only [BatchTracker.update, found, Map.total_insert]

theorem update_of_absent (absent : tracker.openBatches.get? ref = none) :
    tracker.update ref g = tracker := by
  simp only [BatchTracker.update, absent]

theorem held_invalidateParent (parent : Option Str) :
    (tracker.invalidateParent parent).held = tracker.held := by
  cases parent with
  | none => rfl
  | some parent =>
      simp only [BatchTracker.held, BatchTracker.invalidateParent]
      cases found : tracker.openBatches.get? parent with
      | none => rw [update_of_absent tracker parent _ found]
      | some info =>
          rw [total_update tracker parent _ _ info found,
            Map.total_of_get? _ messagesOf parent info found]
          simp [messagesOf]

theorem heldDrops_invalidateParent (parent : Option Str) :
    tracker.heldDrops ≤ (tracker.invalidateParent parent).heldDrops := by
  cases parent with
  | none => exact le_refl _
  | some parent =>
      simp only [BatchTracker.heldDrops, BatchTracker.invalidateParent]
      cases found : tracker.openBatches.get? parent with
      | none => rw [update_of_absent tracker parent _ found]
      | some info =>
          rw [total_update tracker parent _ _ info found,
            Map.total_of_get? _ dropsOf parent info found]
          exact Nat.add_le_add_left (drops_invalidate info) _

theorem drops_erase_invalidateParent (parent : Option Str) (k : Str) :
    (tracker.openBatches.erase k).total dropsOf ≤
      ((tracker.invalidateParent parent).openBatches.erase k).total dropsOf := by
  cases parent with
  | none => exact le_refl _
  | some parent =>
      simp only [BatchTracker.invalidateParent]
      cases found : tracker.openBatches.get? parent with
      | none => rw [update_of_absent tracker parent _ found]
      | some info =>
          simp only [BatchTracker.update, found]
          by_cases same : parent = k
          · subst same
            rw [Map.total_erase_insert_self]
          · have kept : Map.get? (tracker.openBatches.erase k) parent = some info := by
              rw [Map.get?_erase, if_neg (Ne.symm same), found]
            rw [Map.total_erase_insert _ _ _ _ _ same, Map.total_of_get? _ dropsOf parent info kept]
            exact Nat.add_le_add_left (drops_invalidate info) _

/-- The batch about to be replaced holds what it held before its parent was marked. -/
theorem get?_invalidateParent (parent : Option Str) (k : Str) (info' : BatchInfo)
    (found : (tracker.invalidateParent parent).openBatches.get? k = some info') :
    ∃ info, tracker.openBatches.get? k = some info ∧ info'.messages = info.messages := by
  cases parent with
  | none => exact ⟨info', found, rfl⟩
  | some parent =>
      rw [BatchTracker.invalidateParent, get?_update] at found
      split at found
      · obtain ⟨info, present, rfl⟩ := Option.map_eq_some_iff.mp found
        exact ⟨info, present, messages_invalidate info⟩
      · exact ⟨info', found, rfl⟩

/-- The messages of one batch are those the tracker holds there. -/
theorem held_eq_erase (k : Str) : tracker.held = (tracker.openBatches.erase k).total messagesOf +
    ((tracker.openBatches.get? k).map fun info => messagesOf (k, info)).getD 0 := by
  cases found : tracker.openBatches.get? k with
  | none => simpa [BatchTracker.held] using Map.total_of_get?_none _ messagesOf k found
  | some info => exact Map.total_of_get? _ messagesOf k info found

theorem heldDrops_eq_erase (k : Str) :
    tracker.heldDrops = (tracker.openBatches.erase k).total dropsOf +
      ((tracker.openBatches.get? k).map BatchInfo.droppedMessages).getD 0 := by
  cases found : tracker.openBatches.get? k with
  | none => simpa [BatchTracker.heldDrops] using Map.total_of_get?_none _ dropsOf k found
  | some info => exact Map.total_of_get? _ dropsOf k info found

end Steps

section Operations

variable (unicode : Unicode) (tracker : BatchTracker)

/-- A message sent to an open batch. -/
theorem addMessage_found (msg : Message) (tag : Str) (info : BatchInfo)
    (tagged : getBatchTag msg = some tag) (found : tracker.openBatches.get? tag = some info) :
    (tracker.addMessage msg).1 = true ∧ (tracker.addMessage msg).2.openBatches =
      tracker.openBatches.insert tag (info.collect msg tracker.nextMessageOrder) := by
  unfold BatchTracker.addMessage
  simp [tagged, found]

theorem addMessage_absent (msg : Message)
    (absent : (getBatchTag msg).bind tracker.openBatches.get? = none) :
    tracker.addMessage msg = (false, tracker) := by
  unfold BatchTracker.addMessage
  cases tagged : getBatchTag msg with
  | none => rfl
  | some tag =>
      rw [tagged, Option.bind_some] at absent
      simp [absent]

theorem messages_startBatch (now : Nat) (ref batchType : Str) (params : List Str)
    (openerTags : Option (List Tag))
    (fresh : opensAfresh tracker (.start now ref batchType params openerTags)) :
    (tracker.startBatch unicode now ref batchType params openerTags).held = tracker.held := by
  let marked := tracker.invalidateParent (tagValue batchKey openerTags)
  rw [← held_invalidateParent tracker (tagValue batchKey openerTags), held_eq_erase marked ref]
  cases found : marked.openBatches.get? ref with
  | none => simp [BatchTracker.held, BatchTracker.startBatch, Map.total_insert, messagesOf, marked]
  | some info' =>
      obtain ⟨info, present, same⟩ := get?_invalidateParent tracker _ ref info' found
      have none := (fresh info present).1
      simp [BatchTracker.held, BatchTracker.startBatch, Map.total_insert, messagesOf, same, none,
        marked]

theorem drops_startBatch (now : Nat) (ref batchType : Str) (params : List Str)
    (openerTags : Option (List Tag))
    (fresh : opensAfresh tracker (.start now ref batchType params openerTags)) :
    tracker.heldDrops ≤
      (tracker.startBatch unicode now ref batchType params openerTags).heldDrops := by
  have before : tracker.heldDrops = (tracker.openBatches.erase ref).total dropsOf := by
    rw [heldDrops_eq_erase tracker ref]
    cases found : tracker.openBatches.get? ref with
    | none => rfl
    | some info => simp [(fresh info found).2]
  have erased : (tracker.openBatches.erase ref).total dropsOf ≤
      ((tracker.invalidateParent (tagValue batchKey openerTags)).openBatches.erase ref).total
        dropsOf := drops_erase_invalidateParent tracker _ ref
  calc
    tracker.heldDrops = (tracker.openBatches.erase ref).total dropsOf := before
    _ ≤ _ := erased
    _ ≤ (tracker.startBatch unicode now ref batchType params openerTags).heldDrops := by
      simp [BatchTracker.heldDrops, BatchTracker.startBatch, Map.total_insert]

/-- What a batch takes in it holds, or has dropped and counted. -/
theorem collect_accounts (info : BatchInfo) (msg : Message) (order : Nat) (ref : Str) :
    messagesOf (ref, info.collect msg order) +
        (if maxBatchMessages ≤ info.messages.length then {msg} else 0) =
      messagesOf (ref, info) + {msg} ∧
    (info.collect msg order).droppedMessages = info.droppedMessages +
      Multiset.card (if maxBatchMessages ≤ info.messages.length then {msg} else 0 :
        Multiset Message) := by
  unfold BatchInfo.collect
  split
  · simp [messagesOf]
  · constructor
    · simp only [messagesOf, add_zero]
      exact (Multiset.coe_add info.messages [msg]).symm
    · simp

theorem add_conserves (msg : Message) :
    tracker.held + accepted tracker (.add msg) =
      (tracker.addMessage msg).2.held + discarded tracker (.add msg) := by
  cases found : (getBatchTag msg).bind tracker.openBatches.get? with
  | none => simp [accepted, discarded, found, addMessage_absent tracker msg found]
  | some info =>
      obtain ⟨tag, tagged, present⟩ := Option.bind_eq_some_iff.mp found
      obtain ⟨took, after⟩ := addMessage_found tracker msg tag info tagged present
      have here := (collect_accounts info msg tracker.nextMessageOrder tag).1
      have before : tracker.held =
          (tracker.openBatches.erase tag).total messagesOf + messagesOf (tag, info) :=
        Map.total_of_get? _ messagesOf tag info present
      simp only [accepted, discarded, found, took, if_true]
      rw [before, BatchTracker.held, after, Map.total_insert, add_assoc, add_assoc, here]

theorem add_counts (msg : Message) :
    tracker.heldDrops + Multiset.card (discarded tracker (.add msg)) =
      (tracker.addMessage msg).2.heldDrops := by
  cases found : (getBatchTag msg).bind tracker.openBatches.get? with
  | none => simp [discarded, found, addMessage_absent tracker msg found]
  | some info =>
      obtain ⟨tag, tagged, present⟩ := Option.bind_eq_some_iff.mp found
      obtain ⟨_, after⟩ := addMessage_found tracker msg tag info tagged present
      have here := (collect_accounts info msg tracker.nextMessageOrder tag).2
      have before : tracker.heldDrops =
          (tracker.openBatches.erase tag).total dropsOf + info.droppedMessages :=
        Map.total_of_get? _ dropsOf tag info present
      simp only [discarded, found]
      rw [before, BatchTracker.heldDrops, after, Map.total_insert, dropsOf, here, add_assoc]

theorem join_conserves (parent : Str) (messages : List (Nat × Message)) (dropped : Nat) :
    tracker.held + accepted tracker (.join parent messages dropped) =
      (tracker.foldMessages parent messages dropped).2.held +
        discarded tracker (.join parent messages dropped) := by
  cases found : tracker.openBatches.get? parent with
  | none =>
      simp [accepted, discarded, BatchTracker.foldMessages, BatchTracker.isOpen, found,
        update_of_absent tracker parent _ found]
  | some info =>
      simp only [accepted, discarded, BatchTracker.foldMessages, BatchTracker.isOpen, found,
        Option.isSome_some, if_true]
      have before : tracker.held =
          (tracker.openBatches.erase parent).total messagesOf + messagesOf (parent, info) :=
        Map.total_of_get? _ messagesOf parent info found
      rw [before, BatchTracker.held, total_update tracker parent _ _ info found, add_assoc,
        add_assoc]
      congr 1
      exact (messages_extendMessages info messages dropped).symm

theorem join_counts (parent : Str) (messages : List (Nat × Message)) (dropped : Nat) :
    tracker.heldDrops + (Multiset.card (discarded tracker (.join parent messages dropped)) +
        bookedIn tracker (.join parent messages dropped)) =
      (tracker.foldMessages parent messages dropped).2.heldDrops := by
  cases found : tracker.openBatches.get? parent with
  | none =>
      simp [bookedIn, discarded, BatchTracker.foldMessages, BatchTracker.isOpen, found,
        update_of_absent tracker parent _ found]
  | some info =>
      simp only [bookedIn, discarded, BatchTracker.foldMessages, BatchTracker.isOpen, found,
        Option.isSome_some, if_true]
      have before : tracker.heldDrops =
          (tracker.openBatches.erase parent).total dropsOf + info.droppedMessages :=
        Map.total_of_get? _ dropsOf parent info found
      rw [before, BatchTracker.heldDrops, total_update tracker parent _ _ info found, dropsOf,
        drops_extendMessages, Multiset.coe_card]
      omega

/-- Every message taken is held, handed back or dropped. -/
theorem step_conserves (op : TrackerOp) (fresh : opensAfresh tracker op) :
    tracker.held + accepted tracker op =
      (op.exec unicode tracker).held + (handedBack tracker op + discarded tracker op) := by
  cases op with
  | start now ref batchType params openerTags =>
      have same := messages_startBatch unicode tracker now ref batchType params openerTags fresh
      simp [accepted, handedBack, discarded, TrackerOp.exec, same]
  | add msg =>
      have step := add_conserves tracker msg
      simpa [handedBack, TrackerOp.exec] using step
  | finish ref =>
      have split := held_eq_erase tracker ref
      simp only [accepted, handedBack, discarded, add_zero]
      exact split
  | purge now =>
      have split := Table.total_delete tracker.openBatches messagesOf fun e => e.2.expired now
      simp only [accepted, handedBack, discarded, add_zero]
      exact split
  | join parent messages dropped =>
      have step := join_conserves tracker parent messages dropped
      simpa [handedBack, TrackerOp.exec] using step
  | invalidate parent =>
      have same := held_invalidateParent tracker parent
      simp [accepted, handedBack, discarded, TrackerOp.exec, same]

/-- Every drop is counted, in a batch held or handed back. -/
theorem step_counts (op : TrackerOp) (fresh : opensAfresh tracker op) :
    tracker.heldDrops + (Multiset.card (discarded tracker op) + bookedIn tracker op) ≤
      (op.exec unicode tracker).heldDrops + countedOut tracker op := by
  cases op with
  | start now ref batchType params openerTags =>
      have more := drops_startBatch unicode tracker now ref batchType params openerTags fresh
      simpa [discarded, bookedIn, countedOut, TrackerOp.exec] using more
  | add msg =>
      have step := add_counts tracker msg
      simp [bookedIn, countedOut, TrackerOp.exec, step]
  | finish ref =>
      have split := heldDrops_eq_erase tracker ref
      exact le_of_eq split
  | purge now =>
      have split := Table.total_delete tracker.openBatches dropsOf fun e => e.2.expired now
      exact le_of_eq split
  | join parent messages dropped =>
      have step := join_counts tracker parent messages dropped
      exact le_of_eq step
  | invalidate parent =>
      have more := heldDrops_invalidateParent tracker parent
      simpa [discarded, bookedIn, countedOut, TrackerOp.exec] using more

end Operations

section Runs

variable (unicode : Unicode)

/-- When no reference is opened again while its batch holds messages or drops, every message the
tracker ever took has been handed back once, is held, or was dropped; and every drop is counted in
a batch held or handed back. -/
theorem tracker_conserves_messages (ops : List TrackerOp)
    (afresh : Along opensAfresh (TrackerOp.exec unicode) .new ops) :
    let last := runFrom (TrackerOp.exec unicode) .new ops
    let dropped := runSum (TrackerOp.exec unicode) discarded .new ops
    runSum (TrackerOp.exec unicode) accepted .new ops =
        last.held + (runSum (TrackerOp.exec unicode) handedBack .new ops + dropped) ∧
      Multiset.card dropped + runSum (TrackerOp.exec unicode) bookedIn .new ops ≤
        last.heldDrops + runSum (TrackerOp.exec unicode) countedOut .new ops := by
  intro last dropped
  constructor
  · have balance := runSum_balance BatchTracker.held accepted
      (fun t op => handedBack t op + discarded t op) (step_conserves unicode) .new ops afresh
    have empty : BatchTracker.new.held = 0 := rfl
    rwa [empty, zero_add, runSum_add] at balance
  · have bound := runSum_bound BatchTracker.heldDrops
      (fun t op => Multiset.card (discarded t op) + bookedIn t op) countedOut
      (step_counts unicode) .new ops afresh
    have empty : BatchTracker.new.heldDrops = 0 := rfl
    have counted := map_runSum (TrackerOp.exec unicode) Multiset.cardHom discarded .new ops
    rw [empty, zero_add, runSum_add] at bound
    exact le_trans (le_of_eq (congrArg (· + _) counted)) bound

/-- A server that opens a reference twice: the message of the first batch is gone. -/
def reopened : List TrackerOp :=
  let quit : Message := ⟨some [⟨batchKey, some "a".toList⟩], none, .quit none⟩
  [.start 0 "a".toList "NETSPLIT".toList [] none, .add quit,
    .start 0 "a".toList "NETSPLIT".toList [] none, .finish "a".toList]

theorem reopened_batch_loses_its_messages :
    let exec := TrackerOp.exec Unicode.ascii
    let last := runFrom exec .new reopened
    runSum exec accepted .new reopened ≠
        last.held + (runSum exec handedBack .new reopened + runSum exec discarded .new reopened) ∧
      last.heldDrops + runSum exec countedOut .new reopened = 0 := by
  decide

theorem tracker_conserves_messages_nested :
    let line (tag text : Str) : Message :=
      ⟨some [⟨batchKey, some tag⟩], none, .privmsg "#a".toList text⟩
    let ops : List TrackerOp :=
      [.start 0 "a".toList "x".toList [] none, .start 5 "b".toList "x".toList [] none,
        .add (line "a".toList "one".toList), .add (line "b".toList "two".toList),
        .add (line "c".toList "none".toList), .finish "b".toList, .purge 70000]
    runSum (TrackerOp.exec Unicode.ascii) accepted .new ops =
      (runFrom (TrackerOp.exec Unicode.ascii) .new ops).held +
        (runSum (TrackerOp.exec Unicode.ascii) handedBack .new ops +
          runSum (TrackerOp.exec Unicode.ascii) discarded .new ops) := by
  intro line ops
  apply (tracker_conserves_messages Unicode.ascii ops _).1
  decide

end Runs

end Repartee.Irc
