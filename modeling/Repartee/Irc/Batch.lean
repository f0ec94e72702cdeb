import Repartee.Lib.Table
import Repartee.Irc.Multiline

/-!
Server batches: the tracker of the open ones, and the message a multiline batch becomes.
-/

namespace Repartee.Irc

open Text Lib

/-- The case mappings of the string library. -/
structure Unicode where
  toLowercase : Str → Str
  toUppercase : Str → Str
  lower_lower : ∀ s, toLowercase (toLowercase s) = toLowercase s

/-- The mappings on ASCII text. -/
def Unicode.ascii : Unicode := ⟨asciiLower, asciiUpper, asciiLower_asciiLower⟩

/-- In milliseconds, as every instant below. -/
def batchTimeout : Nat := 60 * 1000
def maxBatchMessages : Nat := 4096

structure BatchInfo where
  batchType : Str
  params : List Str
  messages : List Message
  messageOrder : List Nat
  droppedMessages : Nat
  startedAt : Nat
  openerTags : Option (List Tag)
  deriving DecidableEq

section Info

def isupportType : Str := "DRAFT/ISUPPORT".toList

def BatchInfo.parentRef (batch : BatchInfo) : Option Str := tagValue batchKey batch.openerTags

/-- The messages with the order they came in; a message without one stands by its place. -/
def BatchInfo.orderedMessages (batch : BatchInfo) : List (Nat × Message) :=
  batch.messages.mapIdx fun index message => (batch.messageOrder.getD index index, message)

/-- The messages of the batch and those that join it, in the order they came in. -/
def BatchInfo.combined (batch : BatchInfo) (messages : List (Nat × Message)) :
    List (Nat × Message) :=
  (batch.orderedMessages ++ messages).mergeSort fun a b => decide (a.1 ≤ b.1)

def BatchInfo.extendMessages (batch : BatchInfo) (messages : List (Nat × Message))
    (dropped : Nat) : BatchInfo :=
  let combined := batch.combined messages
  { batch with
    droppedMessages := batch.droppedMessages + dropped + (combined.length - maxBatchMessages)
    messageOrder := (combined.take maxBatchMessages).map Prod.fst
    messages := (combined.take maxBatchMessages).map Prod.snd }

/-- One more message, or one more drop once the batch is full. -/
def BatchInfo.collect (info : BatchInfo) (msg : Message) (order : Nat) : BatchInfo :=
  if maxBatchMessages ≤ info.messages.length then
    { info with droppedMessages := info.droppedMessages + 1 }
  else { info with
    messages := info.messages ++ [msg], messageOrder := info.messageOrder ++ [order] }

end Info

section Tracker

structure BatchTracker where
  openBatches : Map Str BatchInfo
  nextMessageOrder : Nat

def BatchTracker.new : BatchTracker := ⟨Table.empty, 0⟩

/-- Rewrites the batch open under a reference, if there is one. -/
def BatchTracker.update (tracker : BatchTracker) (ref : Str) (f : BatchInfo → BatchInfo) :
    BatchTracker :=
  match tracker.openBatches.get? ref with
  | none => tracker
  | some info => { tracker with openBatches := tracker.openBatches.insert ref (f info) }

/-- A limit snapshot that reuses an open reference, or nests in another or in nothing. -/
def BatchTracker.invalidSnapshot (tracker : BatchTracker) (ref batchType : Str)
    (parent : Option Str) : Bool :=
  eqNocase batchType isupportType && ((tracker.openBatches.get? ref).isSome ||
    parent.any fun parent => (tracker.openBatches.get? parent).all fun batch =>
      batch.batchType = isupportType)

def BatchInfo.invalidate (info : BatchInfo) : BatchInfo :=
  if info.batchType = isupportType then
    { info with droppedMessages := info.droppedMessages + 1 }
  else info

def BatchTracker.invalidateParent (tracker : BatchTracker) (parent : Option Str) :
    BatchTracker :=
  match parent with
  | none => tracker
  | some parent => tracker.update parent BatchInfo.invalidate

variable (unicode : Unicode)

def BatchTracker.startBatch (tracker : BatchTracker) (now : Nat) (ref batchType : Str)
    (params : List Str) (openerTags : Option (List Tag)) : BatchTracker :=
  let parent := tagValue batchKey openerTags
  let invalid := tracker.invalidSnapshot ref batchType parent
  let tracker := tracker.invalidateParent parent
  let info : BatchInfo := {
    batchType := unicode.toUppercase batchType
    params := params
    messages := []
    messageOrder := []
    droppedMessages := if invalid then 1 else 0
    startedAt := now
    openerTags := openerTags }
  { tracker with openBatches := tracker.openBatches.insert ref info }

def BatchInfo.expired (now : Nat) (info : BatchInfo) : Bool :=
  decide (batchTimeout ≤ now - info.startedAt)

/-- The batches open for too long, and the tracker without them. -/
def BatchTracker.purgeExpired (tracker : BatchTracker) (now : Nat) :
    List (Str × BatchInfo) × BatchTracker :=
  (tracker.openBatches.rows.filter fun e => e.2.expired now,
    { tracker with openBatches := tracker.openBatches.delete fun e => e.2.expired now })

def BatchTracker.isOpen (tracker : BatchTracker) (ref : Str) : Bool :=
  (tracker.openBatches.get? ref).isSome

def BatchTracker.isBatched (tracker : BatchTracker) (msg : Message) : Bool :=
  (getBatchTag msg).any tracker.isOpen

/-- Whether the message went to a batch, and the tracker after it. -/
def BatchTracker.addMessage (tracker : BatchTracker) (msg : Message) : Bool × BatchTracker :=
  match getBatchTag msg with
  | none => (false, tracker)
  | some tag => match tracker.openBatches.get? tag with
      | none => (false, tracker)
      | some info =>
          (true, { openBatches := tracker.openBatches.insert tag
                     (info.collect msg tracker.nextMessageOrder)
                   nextMessageOrder := if maxBatchMessages ≤ info.messages.length
                     then tracker.nextMessageOrder else tracker.nextMessageOrder + 1 })

def BatchTracker.foldMessages (tracker : BatchTracker) (parent : Str)
    (messages : List (Nat × Message)) (dropped : Nat) : Bool × BatchTracker :=
  (tracker.isOpen parent, tracker.update parent fun info => info.extendMessages messages dropped)

def BatchTracker.endBatch (tracker : BatchTracker) (ref : Str) :
    Option BatchInfo × BatchTracker :=
  (tracker.openBatches.get? ref,
    { tracker with openBatches := tracker.openBatches.erase ref })

/-- The label of the batch, or of the nearest one around it that has one. -/
def BatchTracker.inheritedLabel (tracker : BatchTracker) : Nat → Option Str → Option Str
  | 0, _ => none
  | fuel + 1, reference =>
      (reference.bind tracker.openBatches.get?).bind fun batch =>
        match tagValue labelKey batch.openerTags with
        | some label => some label
        | none => tracker.inheritedLabel fuel batch.parentRef

def BatchTracker.inheritLabel (tracker : BatchTracker) (message : Message) : Message :=
  match tagValue labelKey message.tags with
  | some _ => message
  | none =>
      match tracker.inheritedLabel (tracker.openBatches.rows.length + 1) (getBatchTag message) with
      | none => message
      | some label => { message with tags := some (message.tags.getD [] ++ [⟨labelKey, some label⟩]) }

/-- What an arriving message does to the tracker, and the batch it completes. -/
def BatchTracker.receive (tracker : BatchTracker) (now : Nat) (msg : Message) :
    BatchTracker × Option BatchInfo :=
  match msg.command with
  | .batch reference sub params =>
      let tracker := tracker.invalidateParent (getBatchTag msg)
      match reference with
      | '+' :: tag =>
          (tracker.startBatch unicode now tag (sub.getD []) (params.getD [])
            (tracker.inheritLabel msg).tags, none)
      | '-' :: tag =>
          let ended := tracker.endBatch tag
          (ended.2, ended.1)
      | _ => (tracker, none)
  | _ =>
      if tracker.isBatched msg then ((tracker.addMessage (tracker.inheritLabel msg)).2, none)
      else (tracker, none)

/-- Arriving messages in order, with the batches they complete. -/
def BatchTracker.receiveAll (tracker : BatchTracker) (now : Nat) :
    List Message → BatchTracker × List BatchInfo
  | [] => (tracker, [])
  | msg :: rest =>
      let first := tracker.receive unicode now msg
      let later := first.1.receiveAll now rest
      (later.1, first.2.toList ++ later.2)

end Tracker

section Reassembly

inductive MultilineOutcome where
  | message (msg : Message)
  | replay
  | empty
  deriving DecidableEq

/-- A message of a multiline batch that carries a line. -/
structure Fragment where
  source : Option Prefix
  target : Str
  isNotice : Bool
  line : WireLine

def concatTagged (msg : Message) : Bool :=
  (msg.tags.getD []).any fun tag => tag.key = concatKey

def Fragment.ofMessage (msg : Message) : Option Fragment :=
  match msg.command with
  | .privmsg target text => some ⟨msg.source, target, false, ⟨text, concatTagged msg⟩⟩
  | .notice target text => some ⟨msg.source, target, true, ⟨text, concatTagged msg⟩⟩
  | _ => none

def BatchInfo.fragments (batch : BatchInfo) : List Fragment :=
  batch.messages.filterMap Fragment.ofMessage

def encryptedStart : Str := "+RPE2E01".toList
def truncationMark : Str := "\n[multiline message truncated]".toList

def Fragment.encrypted (fragment : Fragment) : Bool := encryptedStart.isPrefixOf fragment.line.text

/-- The fragments disagree on sender, type or target, or with the target of the opener. -/
def BatchInfo.inconsistent (batch : BatchInfo) : Bool :=
  match batch.fragments with
  | [] => false
  | first :: rest =>
      (rest.any fun f => !(decide (f.source = first.source) &&
        decide (f.isNotice = first.isNotice) && eqNocase f.target first.target)) ||
      batch.params.head?.any fun declared => !eqNocase declared first.target

/-- The limit on the lines shown, from what the server advertises. -/
def renderCap (multiline : Option MultilineLimits) : Nat :=
  max 1 (min ((multiline.map MultilineLimits.maxLines).getD multilineMaxInboundLines)
    multilineMaxInboundLines)

/-- The tags of the opener, then those of the first message that it lacks, less the transport
tags, and less the message id of a truncated message. -/
def BatchInfo.mergedTags (batch : BatchInfo) (truncated : Bool) : List Tag :=
  let opener := batch.openerTags.getD []
  let first := (batch.messages.head?.bind Message.tags).getD []
  let merged := first.foldl (fun tags ft =>
    if tags.any fun t => t.key = ft.key then tags else tags ++ [ft]) opener
  let kept := merged.filter fun t => decide (t.key ≠ batchKey) && decide (t.key ≠ concatKey)
  if truncated then kept.filter fun t => decide (t.key ≠ msgidKey) else kept

def BatchInfo.truncated (batch : BatchInfo) (cap : Nat) (cleanEnd : Bool) : Bool :=
  decide (cap < batch.fragments.length) || decide (0 < batch.droppedMessages) || !cleanEnd

def BatchInfo.joinedText (batch : BatchInfo) (cap : Nat) (cleanEnd : Bool) : Str :=
  reassemble ((batch.fragments.map Fragment.line).take cap) ++
    if batch.truncated cap cleanEnd then truncationMark else []

/-- The one message of a multiline batch. The state it reads is the limits the connection
negotiated. -/
def buildMultilineMessage (multiline : Option MultilineLimits) (batch : BatchInfo)
    (cleanEnd : Bool) : MultilineOutcome :=
  if batch.messages = [] then .empty
  else if batch.fragments.any Fragment.encrypted then .replay
  else if batch.inconsistent then .replay
  else match batch.fragments with
    | [] => .empty
    | first :: _ =>
        let cap := renderCap multiline
        let joined := batch.joinedText cap cleanEnd
        let target := batch.params.head?.getD first.target
        let tags := batch.mergedTags (batch.truncated cap cleanEnd)
        .message
          { tags := if tags = [] then none else some tags
            source := batch.messages.head?.bind Message.source
            command := if first.isNotice then .notice target joined else .privmsg target joined }

end Reassembly

end Repartee.Irc
