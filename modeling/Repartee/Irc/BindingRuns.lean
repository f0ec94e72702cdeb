import Repartee.Lib.Prog
import Repartee.Irc.BouncerBinding

/-!
What a bouncer has stated about the network, told from the messages alone, and that a confirmed
binding is its last word.
-/

namespace Repartee.Irc

open Text Lib

/-! ### Batches of a history

A history lists messages newest first. -/

section History

variable (unicode : Unicode)

def opensBatch (ref : Str) (m : Message) : Bool :=
  match m.command with
  | .batch reference _ _ => decide (reference = '+' :: ref)
  | _ => false

def closesBatch (ref : Str) (m : Message) : Bool :=
  match m.command with
  | .batch reference _ _ => decide (reference = '-' :: ref)
  | _ => false

def isBatchLine (m : Message) : Bool :=
  match m.command with
  | .batch _ _ _ => true
  | _ => false

/-- An open batch: the line that opened it, what arrived since and what had arrived before. -/
structure Opened where
  opener : Message
  since : List Message
  before : List Message

def openedAs (ref : Str) : List Message → Option Opened
  | [] => none
  | m :: past =>
      if opensBatch ref m then some ⟨m, [], past⟩
      else if closesBatch ref m then none
      else (openedAs ref past).map fun o => { o with since := m :: o.since }

namespace Opened

variable (o : Opened) (ref : Str)

def kind : Str :=
  match o.opener.command with
  | .batch _ kind _ => kind.getD []
  | _ => []

def params : List Str :=
  match o.opener.command with
  | .batch _ _ params => params.getD []
  | _ => []

def parent : Option Str := getBatchTag o.opener

/-- The messages of the batch in the order they arrived. -/
def contents : List Message :=
  (o.since.filter fun m => !isBatchLine m && decide (getBatchTag m = some ref)).reverse

/-- No batch was opened or closed inside the batch. -/
def untouched (more : List Message) : Bool :=
  !more.any fun m => isBatchLine m && decide (getBatchTag m = some ref)

/-- Nothing was wrong when the batch was opened: its reference was free, and the batch around it,
if it names one, was open and no batch of limits itself. -/
def wellOpened : Bool :=
  !(eqNocase o.kind isupportType && ((openedAs ref o.before).isSome ||
    o.parent.any fun parent => (openedAs parent o.before).all fun around =>
      decide (unicode.toUppercase around.kind = isupportType)))

/-- A batch of limits that was opened well, ran undisturbed and whole, and is closed inside the
batch around it. -/
def Clean (close : Message) (past : List Message) : Prop :=
  unicode.toUppercase o.kind = isupportType ∧ o.params = [] ∧ o.wellOpened unicode ref = true ∧
    untouched ref (close :: o.since) = true ∧ (o.contents ref).length ≤ maxBatchMessages ∧
    ∀ parent, o.parent = some parent → parent ≠ ref ∧ (openedAs parent past).isSome = true

instance (past : List Message) : Decidable (∀ parent, o.parent = some parent →
    parent ≠ ref ∧ (openedAs parent past).isSome = true) :=
  match o.parent with
  | none => isTrue fun _ absurd => by cases absurd
  | some parent =>
      decidable_of_iff (parent ≠ ref ∧ (openedAs parent past).isSome = true) (by simp)

instance (close : Message) (past : List Message) : Decidable (o.Clean unicode ref close past) :=
  inferInstanceAs (Decidable (_ ∧ _))

end Opened

/-- The tokens that take effect with a message: those of a line outside all batches, and those of
a batch when its end shows it to be clean. -/
def effectiveTokens (past : List Message) (m : Message) : List Str :=
  match m.command with
  | .batch ('-' :: ref) _ _ => match openedAs ref past with
      | some o =>
          if o.Clean unicode ref m past then (isupportLines (o.contents ref)).getD [] else []
      | none => []
  | .response code args =>
      if code = Numeric.isupport ∧ getBatchTag m = none then (responseTokens args).getD [] else []
  | _ => []

inductive Statement where
  | bound (value : Str)
  | withdrawn
  deriving DecidableEq

def statement? (token : Str) : Option Statement :=
  if token = withdrawalToken then some .withdrawn
  else (stripPrefix netidPrefix token).map .bound

/-- What the server has stated, in the order it took effect. -/
def statements : List Message → List Statement
  | [] => []
  | m :: past => statements past ++ (effectiveTokens unicode past m).filterMap statement?

/-- What is known of the session after the last statement. -/
def Selection.identity (expected : Selection) : Option Statement → Option Identity
  | none => expected.unstated
  | some .withdrawn => expected.unstated
  | some (.bound value) => (normalizeNetworkId value).map .network

end History

/-! ### The tracker keeps the history -/

section Tracking

variable (unicode : Unicode) (ref : Str)

/-- What the tracker has of an open batch. The drops count everything that spoils it. -/
structure Holds (o : Opened) (info : BatchInfo) : Prop where
  batchType : info.batchType = unicode.toUppercase o.kind
  params : info.params = o.params
  openerTags : info.openerTags = o.opener.tags
  messages : info.messages = (o.contents ref).take maxBatchMessages
  drops : info.batchType = isupportType → (info.droppedMessages = 0 ↔
    o.wellOpened unicode ref = true ∧ Opened.untouched ref o.since = true ∧
      (o.contents ref).length ≤ maxBatchMessages)

def Tracks (tracker : BatchTracker) (past : List Message) : Prop :=
  ∀ ref, Option.Rel (Holds unicode ref) (openedAs ref past) (tracker.openBatches.get? ref)

def Opened.hear (o : Opened) (m : Message) : Opened := { o with since := m :: o.since }

theorem get?_invalidateParent_eq (tracker : BatchTracker) (parent : Option Str) (k : Str) :
    (tracker.invalidateParent parent).openBatches.get? k =
      if parent = some k then (tracker.openBatches.get? k).map BatchInfo.invalidate
      else tracker.openBatches.get? k := by
  cases parent with
  | none => simp [BatchTracker.invalidateParent]
  | some parent => simp [BatchTracker.invalidateParent, get?_update]

@[simp] theorem batchType_invalidate (info : BatchInfo) :
    info.invalidate.batchType = info.batchType := by
  unfold BatchInfo.invalidate
  split <;> rfl

@[simp] theorem params_invalidate (info : BatchInfo) : info.invalidate.params = info.params := by
  unfold BatchInfo.invalidate
  split <;> rfl

@[simp] theorem openerTags_invalidate (info : BatchInfo) :
    info.invalidate.openerTags = info.openerTags := by
  unfold BatchInfo.invalidate
  split <;> rfl

theorem dropped_invalidate (info : BatchInfo) (limits : info.batchType = isupportType) :
    info.invalidate.droppedMessages ≠ 0 := by
  simp [BatchInfo.invalidate, limits]

section Hearing

variable {unicode} {ref} {o : Opened} {info : BatchInfo} {m : Message}

theorem contents_hear : (o.hear m).contents ref =
    if !isBatchLine m && decide (getBatchTag m = some ref) then o.contents ref ++ [m]
    else o.contents ref := by
  simp only [Opened.contents, Opened.hear, List.filter_cons]
  split <;> simp

theorem untouched_hear : Opened.untouched ref (o.hear m).since =
    (!(isBatchLine m && decide (getBatchTag m = some ref)) && Opened.untouched ref o.since) := by
  simp [Opened.untouched, Opened.hear, Bool.not_or]

/-- A message elsewhere. -/
theorem Holds.skip (holds : Holds unicode ref o info) (elsewhere : getBatchTag m ≠ some ref) :
    Holds unicode ref (o.hear m) info := by
  have contents : (o.hear m).contents ref = o.contents ref := by simp [contents_hear, elsewhere]
  have untouched : Opened.untouched ref (o.hear m).since = Opened.untouched ref o.since := by
    simp [untouched_hear, elsewhere]
  refine ⟨holds.batchType, holds.params, holds.openerTags, ?_, ?_⟩
  · rw [contents]
    exact holds.messages
  · rw [contents, untouched]
    exact holds.drops

/-- A batch is opened or closed inside the batch. -/
theorem Holds.touch (holds : Holds unicode ref o info) (line : isBatchLine m = true)
    (inside : getBatchTag m = some ref) : Holds unicode ref (o.hear m) info.invalidate := by
  have contents : (o.hear m).contents ref = o.contents ref := by simp [contents_hear, line]
  have touched : Opened.untouched ref (o.hear m).since = false := by
    simp [untouched_hear, line, inside]
  refine ⟨?_, ?_, ?_, ?_, ?_⟩
  · exact (batchType_invalidate info).trans holds.batchType
  · exact (params_invalidate info).trans holds.params
  · exact (openerTags_invalidate info).trans holds.openerTags
  · rw [contents, messages_invalidate]
    exact holds.messages
  · intro limits
    rw [batchType_invalidate] at limits
    simp [touched, dropped_invalidate info limits]

theorem Holds.touchAgain (holds : Holds unicode ref o info)
    (touched : Opened.untouched ref o.since = false) : Holds unicode ref o info.invalidate := by
  refine ⟨?_, ?_, ?_, ?_, ?_⟩
  · exact (batchType_invalidate info).trans holds.batchType
  · exact (params_invalidate info).trans holds.params
  · exact (openerTags_invalidate info).trans holds.openerTags
  · simpa using holds.messages
  · intro limits
    rw [batchType_invalidate] at limits
    simp [touched, dropped_invalidate info limits]

/-- A message of the batch. -/
theorem Holds.collect (holds : Holds unicode ref o info) (line : isBatchLine m = false)
    (inside : getBatchTag m = some ref) (order : Nat) :
    Holds unicode ref (o.hear m) (info.collect m order) := by
  have contents : (o.hear m).contents ref = o.contents ref ++ [m] := by
    simp [contents_hear, line, inside]
  have untouched : Opened.untouched ref (o.hear m).since = Opened.untouched ref o.since := by
    simp [untouched_hear, line]
  have full : maxBatchMessages ≤ info.messages.length ↔
      maxBatchMessages ≤ (o.contents ref).length := by
    simp [holds.messages]
  refine ⟨?_, ?_, ?_, ?_, ?_⟩
  · simp only [BatchInfo.collect]
    split <;> exact holds.batchType
  · simp only [BatchInfo.collect]
    split <;> exact holds.params
  · simp only [BatchInfo.collect]
    split <;> exact holds.openerTags
  · rw [contents]
    simp only [BatchInfo.collect, full]
    split
    · rename_i tooMany
      rw [List.take_append_of_le_length tooMany]
      exact holds.messages
    · rename_i fits
      rw [List.take_of_length_le (by simp; omega)]
      simp only [holds.messages]
      rw [List.take_of_length_le (by omega)]
  · rw [contents, untouched]
    simp only [BatchInfo.collect, full]
    split
    · rename_i tooMany
      intro _
      simp only [List.length_append, List.length_singleton]
      constructor
      · intro none
        omega
      · intro whole
        omega
    · rename_i fits
      intro limits
      simp only [List.length_append, List.length_singleton]
      rw [holds.drops limits]
      constructor
      · intro whole
        exact ⟨whole.1, whole.2.1, by omega⟩
      · intro whole
        exact ⟨whole.1, whole.2.1, by omega⟩

end Hearing

theorem tracks_new : Tracks unicode .new [] := fun _ => .none

variable {unicode} {tracker : BatchTracker} {past : List Message} {m : Message}

/-- The other batches when a message arrives that neither opens nor closes them. -/
theorem rel_hear {found : Option BatchInfo} {f : BatchInfo → BatchInfo}
    (rel : Option.Rel (Holds unicode ref) (openedAs ref past) found)
    (opens : opensBatch ref m = false) (closes : closesBatch ref m = false)
    (hears : ∀ o info, Holds unicode ref o info → Holds unicode ref (o.hear m) (f info)) :
    Option.Rel (Holds unicode ref) (openedAs ref (m :: past)) (found.map f) := by
  simp only [openedAs, opens, closes, Bool.false_eq_true, if_false]
  generalize openedAs ref past = batch at rel
  cases rel with
  | none => exact .none
  | some holds => exact .some (hears _ _ holds)

theorem Tracks.isOpen (tracks : Tracks unicode tracker past) (k : Str) :
    tracker.isOpen k = (openedAs k past).isSome := by
  have rel := tracks k
  simp only [BatchTracker.isOpen]
  generalize openedAs k past = batch at rel
  generalize tracker.openBatches.get? k = found at rel
  cases rel <;> rfl

theorem Tracks.isLimits (tracks : Tracks unicode tracker past) (k : Str) :
    ((tracker.openBatches.get? k).all fun batch => decide (batch.batchType = isupportType)) =
      (openedAs k past).all fun o => decide (unicode.toUppercase o.kind = isupportType) := by
  have rel := tracks k
  generalize openedAs k past = batch at rel
  generalize tracker.openBatches.get? k = found at rel
  cases rel with
  | none => rfl
  | some holds => simp [holds.batchType]

theorem not_batchLine (line : isBatchLine m = false) (k : Str) :
    opensBatch k m = false ∧ closesBatch k m = false := by
  cases same : m.command with
  | batch reference kind params => simp [isBatchLine, same] at line
  | privmsg _ _ | notice _ _ | quit _ | raw _ _ | response _ _ | error _ =>
      simp [opensBatch, closesBatch, same]

/-- A message goes to its batch, if that is open, and to no other. -/
theorem Tracks.add (tracks : Tracks unicode tracker past) (line : isBatchLine m = false) :
    Tracks unicode (tracker.addMessage m).2 (m :: past) := by
  intro k
  have neither := not_batchLine line k
  by_cases inside : getBatchTag m = some k
  · have found : (tracker.addMessage m).2.openBatches.get? k =
        (tracker.openBatches.get? k).map fun info => info.collect m tracker.nextMessageOrder := by
      cases held : tracker.openBatches.get? k with
      | none => simp [BatchTracker.addMessage, inside, held]
      | some info => simp [BatchTracker.addMessage, inside, held, Map.get?_insert]
    rw [found]
    exact rel_hear k (tracks k) neither.1 neither.2 fun o info holds =>
      holds.collect line inside tracker.nextMessageOrder
  · have found : (tracker.addMessage m).2.openBatches.get? k =
        (tracker.openBatches.get? k).map id := by
      rw [Option.map_id_fun, id_eq]
      unfold BatchTracker.addMessage
      cases tag : getBatchTag m with
      | none => rfl
      | some other =>
          have differs : other ≠ k := fun same => inside (by rw [tag, same])
          cases held : tracker.openBatches.get? other with
          | none => simp [held]
          | some info => simp [held, Map.get?_insert, differs]
    rw [found]
    exact rel_hear k (tracks k) neither.1 neither.2 fun o info holds => holds.skip inside

/-- A batch is opened or closed: the batch around it is spoiled, the rest go on. -/
theorem Tracks.mark (tracks : Tracks unicode tracker past) (line : isBatchLine m = true) (k : Str)
    (opens : opensBatch k m = false) (closes : closesBatch k m = false) :
    Option.Rel (Holds unicode k) (openedAs k (m :: past))
      ((tracker.invalidateParent (getBatchTag m)).openBatches.get? k) := by
  rw [get?_invalidateParent_eq]
  split
  · rename_i inside
    exact rel_hear k (tracks k) opens closes fun o info holds => holds.touch line inside
  · rename_i elsewhere
    have same := rel_hear (f := id) k (tracks k) opens closes
      fun o info holds => holds.skip elsewhere
    rwa [Option.map_id_fun, id_eq] at same

theorem Tracks.start (tracks : Tracks unicode tracker past) (now : Nat)
    (kind : Option Str) (params : Option (List Str))
    (opener : m.command = .batch ('+' :: ref) kind params) :
    Tracks unicode ((tracker.invalidateParent (getBatchTag m)).startBatch unicode now ref
      (kind.getD []) (params.getD []) m.tags) (m :: past) := by
  have line : isBatchLine m = true := by simp [isBatchLine, opener]
  intro k
  by_cases here : ref = k
  · subst here
    have opens : opensBatch ref m = true := by simp [opensBatch, opener]
    have limits := fun parent => tracks.isLimits (k := parent)
    have stillOpen := tracks.isOpen ref
    simp only [openedAs, opens, if_true, BatchTracker.startBatch, Map.get?_insert]
    apply Option.Rel.some
    refine ⟨by simp [Opened.kind, opener], by simp [Opened.params, opener], rfl, rfl, ?_⟩
    intro _
    let opened : Opened := ⟨m, [], past⟩
    have invalid : (tracker.invalidateParent (getBatchTag m)).invalidSnapshot ref (kind.getD [])
        (tagValue batchKey m.tags) = !(opened.wellOpened unicode ref) := by
      have asKind : opened.kind = kind.getD [] := by simp [opened, Opened.kind, opener]
      simp only [BatchTracker.invalidSnapshot, Opened.wellOpened, asKind, Bool.not_not]
      congr 1
      congr 1
      · rw [get?_invalidateParent_eq, ← stillOpen, BatchTracker.isOpen]
        split <;> simp
      · simp only [opened, Opened.parent, getBatchTag]
        cases tagValue batchKey m.tags with
        | none => rfl
        | some parent =>
            simp only [Option.any_some]
            rw [← limits parent, get?_invalidateParent_eq]
            cases tracker.openBatches.get? parent <;> simp
    rw [invalid]
    cases opened.wellOpened unicode ref <;> simp [Opened.untouched, Opened.contents]
  · have opens : opensBatch k m = false := by simp [opensBatch, opener, here]
    have closes : closesBatch k m = false := by simp [closesBatch, opener]
    have marked := tracks.mark line k opens closes
    simp only [BatchTracker.startBatch, Map.get?_insert, here, if_false]
    rw [get?_invalidateParent_eq]
    split
    · rename_i tagged
      have inside : getBatchTag m = some k := tagged
      -- the batch around the new one is marked a second time
      have again := rel_hear (f := fun info => info.invalidate.invalidate) k (tracks k) opens
        closes fun o info holds => (holds.touch line inside).touchAgain (by
          simp [untouched_hear, line, inside])
      rw [get?_invalidateParent_eq, if_pos inside, Option.map_map]
      exact again
    · exact marked

theorem Tracks.finish (tracks : Tracks unicode tracker past) (kind : Option Str)
    (params : Option (List Str)) (closer : m.command = .batch ('-' :: ref) kind params) :
    Tracks unicode ((tracker.invalidateParent (getBatchTag m)).endBatch ref).2 (m :: past) := by
  have line : isBatchLine m = true := by simp [isBatchLine, closer]
  intro k
  have opens : opensBatch k m = false := by simp [opensBatch, closer]
  simp only [BatchTracker.endBatch, Map.get?_erase]
  by_cases here : ref = k
  · have closes : closesBatch k m = true := by simp [closesBatch, closer, here]
    simp only [openedAs, opens, closes, here, Bool.false_eq_true, if_false, if_true]
    exact .none
  · rw [if_neg here]
    exact tracks.mark line k opens (by simp [closesBatch, closer, here])

theorem isOpen_ended (tracks : Tracks unicode tracker past) (k : Str) :
    ((tracker.invalidateParent (getBatchTag m)).endBatch ref).2.isOpen k =
      (decide (k ≠ ref) && (openedAs k past).isSome) := by
  have same : ((tracker.invalidateParent (getBatchTag m)).openBatches.get? k).isSome =
      (openedAs k past).isSome := by
    rw [get?_invalidateParent_eq, ← tracks.isOpen, BatchTracker.isOpen]
    split <;> simp
  simp only [BatchTracker.isOpen, BatchTracker.endBatch, Map.get?_erase]
  by_cases here : ref = k
  · simp [here]
  · simp [here, Ne.symm here, same]

variable (past) in
/-- What a batch holds when it is clean, told from what the tracker has of it. -/
theorem Holds.tokens {o : Opened} {info : BatchInfo} (holds : Holds unicode ref (o.hear m) info)
    (line : isBatchLine m = true) :
    (if info.batchType ≠ isupportType ∨ info.parentRef.any (fun parent =>
        !(decide (parent ≠ ref) && (openedAs parent past).isSome)) = true then []
      else (info.isupportTokens true).getD []) =
      if o.Clean unicode ref m past then (isupportLines (o.contents ref)).getD [] else [] := by
  have contents : (o.hear m).contents ref = o.contents ref := by simp [contents_hear, line]
  have kept := holds.messages
  have whole := holds.drops
  rw [contents] at kept whole
  have around : info.parentRef = o.parent :=
    congrArg (tagValue batchKey) holds.openerTags
  by_cases clean : o.Clean unicode ref m past
  · rw [if_pos clean]
    rcases clean with ⟨limits, plain, opened, undisturbed, fits, inside⟩
    have limits' : info.batchType = isupportType := holds.batchType.trans limits
    have undropped := (whole limits').mpr ⟨opened, undisturbed, fits⟩
    have plain' : info.params = [] := holds.params.trans plain
    rw [if_neg]
    · rw [List.take_of_length_le fits] at kept
      simp only [BatchInfo.isupportTokens, undropped, kept, plain']
      by_cases empty : o.contents ref = []
      · simp [empty, isupportLines]
      · simp [empty]
    · rw [around]
      simp only [limits', ne_eq, not_true_eq_false, false_or, Option.any_eq_true, not_exists,
        not_and, Bool.not_eq_true', Bool.not_eq_false, Bool.and_eq_true, decide_eq_true_eq]
      intro parent named
      exact inside parent named
  · rw [if_neg clean]
    split
    · rfl
    · rename_i goes
      simp only [not_or, ne_eq, Decidable.not_not] at goes
      by_cases undropped : info.droppedMessages = 0
      · by_cases plain : info.params = []
        · exfalso
          have held := (whole goes.1).mp undropped
          refine clean ⟨holds.batchType.symm.trans goes.1, holds.params.symm.trans plain, held.1,
            held.2.1, held.2.2, ?_⟩
          intro parent named
          have stillOpen := goes.2
          rw [around, named] at stillOpen
          simpa [← Option.isSome_iff_ne_none] using stillOpen
        · simp [BatchInfo.isupportTokens, plain]
      · simp [BatchInfo.isupportTokens, undropped]

/-- One message: the tracker keeps the history, and the tokens that take effect are those that
the history says. -/
theorem Tracks.take (tracks : Tracks unicode tracker past) (now : Nat) (m : Message) :
    Tracks unicode (tracker.takeTokens unicode now m).1 (m :: past) ∧
      (tracker.takeTokens unicode now m).2 = effectiveTokens unicode past m := by
  cases same : m.command with
  | batch reference kind params =>
      have line : isBatchLine m = true := by simp [isBatchLine, same]
      simp only [BatchTracker.takeTokens, same]
      split
      · rename_i ref
        exact ⟨tracks.start ref now kind params same, by simp [effectiveTokens, same]⟩
      · rename_i ref
        have finished := tracks.finish ref kind params same
        have rel := tracks ref
        simp only [effectiveTokens, same]
        cases opened : openedAs ref past with
        | none =>
            rw [opened] at rel
            cases found : tracker.openBatches.get? ref with
            | some info =>
                rw [found] at rel
                cases rel
            | none =>
                have gone : ((tracker.invalidateParent (getBatchTag m)).endBatch ref).1 = none := by
                  simp [BatchTracker.endBatch, get?_invalidateParent_eq, found]
                split
                · rename_i ended
                  rw [ended] at finished
                  exact ⟨finished, rfl⟩
                · rename_i ended
                  rw [ended] at gone
                  cases gone
        | some o =>
            rw [opened] at rel
            cases found : tracker.openBatches.get? ref with
            | none =>
                rw [found] at rel
                cases rel
            | some info =>
                rw [found] at rel
                cases rel with
                | some holds =>
                    have closing : ∃ info', ((tracker.invalidateParent (getBatchTag m)).endBatch
                        ref).1 = some info' ∧ Holds unicode ref (o.hear m) info' := by
                      simp only [BatchTracker.endBatch, get?_invalidateParent_eq, found]
                      split
                      · rename_i inside
                        exact ⟨_, rfl, holds.touch line inside⟩
                      · rename_i elsewhere
                        exact ⟨_, rfl, holds.skip elsewhere⟩
                    rcases closing with ⟨info', ended, closing⟩
                    have tokens := closing.tokens ref past line
                    split
                    · rename_i ended'
                      rw [ended'] at ended
                      cases ended
                    · rename_i batch rest ended'
                      have still := isOpen_ended (m := m) ref tracks
                      rw [ended'] at finished ended still
                      cases ended
                      simp only [still]
                      constructor
                      · split <;> exact finished
                      · rw [← tokens]
                        split <;> rfl
      · rename_i plus minus
        have neither : ∀ k, opensBatch k m = false ∧ closesBatch k m = false := by
          intro k
          simp only [opensBatch, closesBatch, same, decide_eq_false_iff_not]
          exact ⟨plus k, minus k⟩
        refine ⟨fun k => tracks.mark line k (neither k).1 (neither k).2, ?_⟩
        simp only [effectiveTokens, same]
        split
        · rename_i ref _ _ named
          cases named
          exact absurd rfl (minus ref)
        · rename_i absurd
          cases absurd
        · rfl
  | response code args =>
      have line : isBatchLine m = false := by simp [isBatchLine, same]
      have added := tracks.add line
      simp only [BatchTracker.takeTokens, effectiveTokens, same]
      cases tag : getBatchTag m with
      | some other => simpa using added
      | none =>
          have untouched : (tracker.addMessage m).2 = tracker := by
            simp [BatchTracker.addMessage, tag]
          rw [untouched] at added
          simpa using added
  | privmsg _ _ | notice _ _ | quit _ | raw _ _ | error _ =>
      have line : isBatchLine m = false := by simp [isBatchLine, same]
      have added := tracks.add line
      simp only [BatchTracker.takeTokens, effectiveTokens, same]
      cases tag : getBatchTag m with
      | some other => simpa using added
      | none =>
          have untouched : (tracker.addMessage m).2 = tracker := by
            simp [BatchTracker.addMessage, tag]
          rw [untouched] at added
          simpa using added

end Tracking

/-! ### The last word -/

section Confirmed

/-- The session is the one that was asked for. -/
def Selection.Admits : Selection → Identity → Prop
  | .automatic, _ => True
  | .control, identity => identity = .control
  | .network wanted, identity => identity = .network wanted

/-- What the client takes the session for is what the last statement makes it. -/
structure Knows (expected : Selection) (confirmed : Option Identity) (stated : List Statement) :
    Prop where
  last : confirmed = expected.identity stated.getLast?
  admitted : ∀ identity, confirmed = some identity → expected.Admits identity

theorem admits_unstated (expected : Selection) (identity : Identity)
    (unstated : expected.unstated = some identity) : expected.Admits identity := by
  cases expected with
  | automatic => trivial
  | control => exact (Option.some.inj unstated).symm
  | network wanted => cases unstated

theorem knows_nothing (expected : Selection) : Knows expected expected.unstated [] where
  last := rfl
  admitted := admits_unstated expected

variable {expected : Selection} {confirmed confirmed' : Option Identity} {stated : List Statement}

theorem Knows.token (knows : Knows expected confirmed stated) (token : Str)
    (applied : applyToken expected confirmed token = .ok confirmed') :
    Knows expected confirmed' (stated ++ (statement? token).toList) := by
  by_cases withdrawal : token = withdrawalToken
  · have unprefixed : stripPrefix netidPrefix withdrawalToken = none := by decide
    have known : confirmed' = expected.unstated := by
      simp only [applyToken, withdrawal, if_true, unprefixed] at applied
      exact (Except.ok.inj applied).symm
    have withdrawn : statement? token = some .withdrawn := by simp [statement?, withdrawal]
    rw [withdrawn, known]
    exact ⟨by simp [Selection.identity], admits_unstated expected⟩
  · simp only [applyToken, withdrawal, if_false] at applied
    cases value : stripPrefix netidPrefix token with
    | none =>
        have silent : statement? token = none := by simp [statement?, withdrawal, value]
        rw [value] at applied
        cases applied
        rw [silent]
        simpa using knows
    | some text =>
        have stating : statement? token = some (.bound text) := by
          simp [statement?, withdrawal, value]
        rw [value] at applied
        cases normal : normalizeNetworkId text with
        | none => simp [normal] at applied
        | some network =>
            simp only [normal] at applied
            have meant : expected.identity (some (.bound text)) = some (.network network) := by
              simp [Selection.identity, normal]
            rw [stating]
            cases expected with
            | automatic =>
                cases applied
                exact ⟨by simpa using meant.symm, fun _ _ => trivial⟩
            | control => cases applied
            | network wanted =>
                simp only at applied
                split at applied
                · cases applied
                · rename_i same
                  cases applied
                  refine ⟨by simpa using meant.symm, ?_⟩
                  intro identity is
                  cases is
                  simp only [ne_eq, Decidable.not_not] at same
                  simp [Selection.Admits, same]

theorem Knows.tokens (tokens : List Str) (confirmed : Option Identity) (stated : List Statement)
    (knows : Knows expected confirmed stated)
    (applied : tokens.foldlM (applyToken expected) confirmed = .ok confirmed') :
    Knows expected confirmed' (stated ++ tokens.filterMap statement?) := by
  induction tokens generalizing confirmed stated with
  | nil =>
      cases applied
      simpa using knows
  | cons token rest ih =>
      rw [List.foldlM_cons, bind_eq_ok] at applied
      rcases applied with ⟨next, first, later⟩
      have more := ih next (stated ++ (statement? token).toList) (knows.token token first) later
      have split : (token :: rest).filterMap statement? =
          (statement? token).toList ++ rest.filterMap statement? := by
        cases stating : statement? token <;> simp [stating]
      rw [split, ← List.append_assoc]
      exact more

variable {unicode : Unicode} {now : Nat} {s s' : Confirming} {past : List Message}

/-- The state of the confirmation after the messages of a history. -/
structure Follows (unicode : Unicode) (expected : Selection) (s : Confirming)
    (past : List Message) : Prop where
  tracks : Tracks unicode s.tracker past
  knows : Knows expected s.confirmed (statements unicode past)

theorem Follows.take (follows : Follows unicode expected s past) (m : Message)
    (taken : takeMessage unicode now expected s m = .ok s') :
    Follows unicode expected s' (m :: past) := by
  simp only [takeMessage] at taken
  split at taken
  · cases taken
  · have step := follows.tracks.take now m
    simp only [confirmIdentity] at taken
    rw [step.2] at taken
    cases applied : (effectiveTokens unicode past m).foldlM (applyToken expected) s.confirmed with
    | error e => simp [applied, Except.map] at taken
    | ok confirmed =>
        simp only [applied, Except.map] at taken
        cases taken
        exact ⟨step.1, follows.knows.tokens _ _ _ applied⟩

theorem Follows.takeAll (messages : List Message) (s : Confirming) (past : List Message)
    (follows : Follows unicode expected s past)
    (taken : messages.foldlM (takeMessage unicode now expected) s = .ok s') :
    Follows unicode expected s' (messages.reverse ++ past) := by
  induction messages generalizing s past with
  | nil =>
      cases taken
      exact follows
  | cons m rest ih =>
      rw [List.foldlM_cons, bind_eq_ok] at taken
      rcases taken with ⟨next, first, later⟩
      have done := ih next (m :: past) (follows.take m first) later
      simpa using done

theorem listen_spec (stream : List (Except Str Message)) (s : Confirming)
    (earlyMessages : List Message) (follows : Follows unicode expected s earlyMessages.reverse)
    (identity : Identity) (messages : List Message)
    (heard : listenForIdentity unicode now expected s earlyMessages stream =
      .ok (identity, messages)) :
    Knows expected (some identity) (statements unicode messages.reverse) ∧
      ∃ consumed rest, stream = consumed.map .ok ++ rest ∧
        messages = earlyMessages ++ consumed := by
  induction stream generalizing s earlyMessages with
  | nil => cases heard
  | cons item rest ih =>
      cases item with
      | error text => cases heard
      | ok m =>
          simp only [listenForIdentity] at heard
          cases taken : takeMessage unicode now expected s m with
          | error e =>
              rw [taken] at heard
              cases heard
          | ok next =>
              rw [taken] at heard
              have more : Follows unicode expected next (earlyMessages ++ [m]).reverse := by
                simpa using follows.take m taken
              cases turns : turn m with
              | fail e => simp [turns] at heard
              | registered =>
                  simp only [turns] at heard
                  cases known : next.confirmed with
                  | none => simp [known] at heard
                  | some last =>
                      rw [known] at heard
                      cases heard
                      have knows := more.knows
                      rw [known] at knows
                      exact ⟨knows, [m], rest, rfl, rfl⟩
              | goOn =>
                  simp only [turns] at heard
                  rcases ih next (earlyMessages ++ [m]) more heard with
                    ⟨knows, consumed, unread, split, all⟩
                  refine ⟨knows, m :: consumed, unread, ?_, ?_⟩
                  · rw [split, List.map_cons, List.cons_append]
                  · rw [all, List.append_assoc, List.singleton_append]

/-- A bouncer that names the network in a batch of limits before the end of registration. -/
def boundRegistration : List Message :=
  [⟨none, none, .response Numeric.welcome ["me".toList, "hi".toList]⟩,
   ⟨none, none, .batch "+a".toList (some "draft/isupport".toList) none⟩,
   ⟨some [⟨batchKey, some "a".toList⟩], none,
     .response Numeric.isupport ["me".toList, "BOUNCER_NETID=042".toList, "are supported".toList]⟩,
   ⟨none, none, .batch "-a".toList none none⟩,
   ⟨none, none, .response Numeric.endOfMotd ["me".toList]⟩]

end Confirmed

end Repartee.Irc
