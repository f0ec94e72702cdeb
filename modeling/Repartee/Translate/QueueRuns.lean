import Repartee.Lib.Flow
import Repartee.Translate.Queue

/-!
Runs of the reorder queue: no message is lost or doubled, the ids leave in order, and the rows of
one reservation leave together.
-/

namespace Repartee.Translate

open Repartee.Lib

variable {ρ : Type}

/-- What a message is to the queue: what the network carried, and for a row that is no candidate
for translation also what it displays. -/
structure Ticket (ρ : Type) where
  id : Nat
  message : Message ρ
  activity : ActivityLevel
  delivery : ReadyDelivery
  shown : Option Str

def Message.asSent (m : Message ρ) : Message ρ :=
  match m.wireOrigin with
  | some origin => { m with text := origin.text, wireOrigin := none }
  | none => m

def readyTicket (id : Nat) (message : Message ρ) (level : ActivityLevel) (origin : ReadyOrigin)
    (delivery : ReadyDelivery) : Ticket ρ :=
  ⟨id, message.asSent, level, delivery,
    if origin = .notTranslated then some message.text else none⟩

def rowTicket (id : Nat) (row : Row ρ) : Ticket ρ :=
  readyTicket id row.1 row.2 .notTranslated .logged

/-- The messages an entry stands for. -/
def Entry.tickets (e : Entry ρ) : Multiset (Ticket ρ) :=
  match e.slot with
  | .reserved _ held => (held.map (rowTicket e.id) : List (Ticket ρ))
  | .pending original payload _ =>
      {⟨e.id, { payload.message with text := original, wireOrigin := none }, payload.activity,
        .logged, none⟩}
  | .ready message level origin delivery => {readyTicket e.id message level origin delivery}

def ReadyEntry.entry (r : ReadyEntry ρ) : Entry ρ :=
  ⟨r.id, .ready r.message r.activity r.origin r.delivery⟩

def weigh (entries : List (Entry ρ)) : Multiset (Ticket ρ) := (entries.map Entry.tickets).sum

/-- A queue and everything it has released, in the order it did. -/
structure QueueRun (ρ : Type) where
  queue : TranslateQueue ρ
  released : List (ReadyEntry ρ)

namespace QueueRun

def new : QueueRun ρ := ⟨.new, []⟩

/-- What has left the queue, and what is still in it. -/
def line (s : QueueRun ρ) : List (Entry ρ) := s.released.map ReadyEntry.entry ++ s.queue.entries

def release (s : QueueRun ρ) (step : TranslateQueue ρ × List (ReadyEntry ρ)) : QueueRun ρ :=
  ⟨step.1, s.released ++ step.2⟩

end QueueRun

inductive QueueOp (ρ : Type) where
  | pushPending (id : Nat) (original : Str) (payload : PendingPayload ρ) (now : Nat)
  | pushUntranslated (id : Nat) (message : Message ρ) (level : ActivityLevel)
      (reason : UntranslatedReason)
  | pushResolvedAs (id : Nat) (message : Message ρ) (level : ActivityLevel)
      (delivery : ReadyDelivery)
  | reserve (id now : Nat)
  | hold (id : Nat) (message : Message ρ) (level : ActivityLevel)
  | fill (id : Nat) (rows : List (Row ρ))
  | release (id : Nat)
  | resolve (id : Nat) (outcome : Except UntranslatedReason Str)
  | expire (now timeout : Nat)
  | enforceCeiling (max : Nat)
  | flushAll
  | flushPending
  | drainReady

namespace QueueOp

def exec (s : QueueRun ρ) : QueueOp ρ → QueueRun ρ
  | .pushPending id original payload now =>
      { s with queue := s.queue.pushPendingAt id original payload now }
  | .pushUntranslated id message level reason =>
      { s with queue := s.queue.pushUntranslated id message level reason }
  | .pushResolvedAs id message level delivery =>
      { s with queue := s.queue.pushResolvedAs id message level delivery }
  | .reserve id now => { s with queue := s.queue.reserveAt id now }
  | .hold id message level => { s with queue := (s.queue.holdInReserved id message level).1 }
  | .fill id rows => { s with queue := (s.queue.fillReservedWith id rows).1 }
  | .release id => { s with queue := s.queue.releaseReserved id }
  | .resolve id outcome => { s with queue := (s.queue.resolve id outcome).1 }
  | .expire now timeout => { s with queue := (s.queue.expire now timeout).1 }
  | .enforceCeiling max => { s with queue := (s.queue.enforceCeiling max).1 }
  | .flushAll => s.release s.queue.flushAll
  | .flushPending => s.release s.queue.flushPending
  | .drainReady => s.release s.queue.drainReady

/-- The entry an operation puts at the end of the queue. -/
def pushed : QueueOp ρ → Option (Entry ρ)
  | .pushPending id original payload now => some ⟨id, .pending original payload now⟩
  | .pushUntranslated id message level reason =>
      some ⟨id, .ready message level (.untranslated reason) .logged⟩
  | .pushResolvedAs id message level delivery =>
      some ⟨id, .ready message level .notTranslated delivery⟩
  | .reserve id now => some ⟨id, .reserved now []⟩
  | _ => none

def pushedId (op : QueueOp ρ) : Option Nat := op.pushed.map Entry.id

/-- The messages handed in. -/
def takenIn : QueueOp ρ → Multiset (Ticket ρ)
  | .hold id message level => {rowTicket id (message, level)}
  | .fill id rows => (rows.map (rowTicket id) : List (Ticket ρ))
  | op => (op.pushed.map Entry.tickets).getD 0

/-- The messages that stay with the caller: a held row that comes back, and the rows of a fill that
answers `false`. -/
def handedBack (s : QueueRun ρ) : QueueOp ρ → Multiset (Ticket ρ)
  | .hold id message level =>
      ((s.queue.holdInReserved id message level).2.map fun m => rowTicket id (m, level)).elim
        0 ({·})
  | .fill id rows =>
      if (s.queue.fillReservedWith id rows).2 then 0 else (rows.map (rowTicket id) : List (Ticket ρ))
  | _ => 0

/-- The rows an operation parks at a reservation. -/
def parked (id : Nat) : QueueOp ρ → List (Row ρ)
  | .hold key message level => if key = id then [(message, level)] else []
  | _ => []

end QueueOp

section Settling

abbrev Settled (e : Entry ρ) : Prop := e.isReady = true

/-- Waiting entries become ready ones where they stand, and no message is lost. -/
abbrev Clears (before after : List (Entry ρ)) : Prop :=
  SettlesAll Entry.id Settled Entry.tickets before after

theorem isReady_rowEntry (id : Nat) (row : Row ρ) :
    (TranslateQueue.rowEntry id row).isReady = true := rfl

theorem weigh_rows (id : Nat) (rows : List (Row ρ)) :
    weigh (rows.map (TranslateQueue.rowEntry id)) = (rows.map (rowTicket id) : List (Ticket ρ)) := by
  induction rows with
  | nil => rfl
  | cons row rest ih =>
      have head : weigh (TranslateQueue.rowEntry id row :: rest.map (TranslateQueue.rowEntry id)) =
          {rowTicket id row} + weigh (rest.map (TranslateQueue.rowEntry id)) := rfl
      rw [List.map_cons, head, ih]
      rfl

theorem tickets_resolvedSlot (id : Nat) (original : Str) (payload : PendingPayload ρ) (since : Nat)
    (outcome : Except UntranslatedReason Str) :
    (⟨id, TranslateQueue.resolvedSlot original payload outcome⟩ : Entry ρ).tickets =
      (⟨id, .pending original payload since⟩ : Entry ρ).tickets := by
  cases outcome <;> rfl

theorem isReady_resolvedSlot (id : Nat) (original : Str) (payload : PendingPayload ρ)
    (outcome : Except UntranslatedReason Str) :
    (⟨id, TranslateQueue.resolvedSlot original payload outcome⟩ : Entry ρ).isReady = true := by
  cases outcome <;> rfl

variable (q : TranslateQueue ρ)

/-- What filling an open reservation does. -/
theorem fillReservedWith_eq (id : Nat) (rows : List (Row ρ)) :
    (∃ earlier since held later, q.entries = earlier ++ ⟨id, .reserved since held⟩ :: later ∧
      q.fillReservedWith id rows =
        (⟨earlier ++ (held ++ rows).map (TranslateQueue.rowEntry id) ++ later⟩, true)) ∨
    (∀ e ∈ q.entries, e.isReserved = true → e.id ≠ id) ∧ q.fillReservedWith id rows = (q, false) := by
  cases found : splitAtFirst (fun e => e.id == id && e.isReserved) q.entries with
  | none =>
      right
      have absent := (splitAtFirst_eq_none _ _).mp found
      refine ⟨?_, by simp [TranslateQueue.fillReservedWith, found]⟩
      intro e member open_ same
      have rejected := absent e member
      simp [open_, same] at rejected
  | some parts =>
      obtain ⟨earlier, ⟨key, slot⟩, later⟩ := parts
      obtain ⟨whole, accepted, _⟩ := splitAtFirst_eq_some _ _ _ _ _ found
      simp only [Bool.and_eq_true, beq_iff_eq] at accepted
      obtain ⟨rfl, open_⟩ := accepted
      cases slot with
      | reserved since held =>
          left
          exact ⟨earlier, since, held, later, whole, by simp [TranslateQueue.fillReservedWith, found]⟩
      | pending original payload since => simp [Entry.isReserved] at open_
      | ready message level origin delivery => simp [Entry.isReserved] at open_

/-- What resolving a pending line does. -/
theorem resolve_eq (id : Nat) (outcome : Except UntranslatedReason Str) :
    (∃ earlier original payload since later,
      q.entries = earlier ++ ⟨id, .pending original payload since⟩ :: later ∧
      q.resolve id outcome =
        (⟨earlier ++ ⟨id, TranslateQueue.resolvedSlot original payload outcome⟩ :: later⟩, true)) ∨
    ((∀ e ∈ q.entries, e.id ≠ id) ∨ ∃ e ∈ q.entries, e.id = id ∧ e.isPending = false) ∧
      q.resolve id outcome = (q, false) := by
  cases found : splitAtFirst (fun e => e.id == id) q.entries with
  | none =>
      right
      have absent := (splitAtFirst_eq_none _ _).mp found
      refine ⟨Or.inl fun e member => ?_, by simp [TranslateQueue.resolve, found]⟩
      simpa using absent e member
  | some parts =>
      obtain ⟨earlier, ⟨key, slot⟩, later⟩ := parts
      obtain ⟨whole, accepted, _⟩ := splitAtFirst_eq_some _ _ _ _ _ found
      simp only [beq_iff_eq] at accepted
      subst accepted
      have member : (⟨key, slot⟩ : Entry ρ) ∈ q.entries := by simp [whole]
      cases slot with
      | pending original payload since =>
          left
          exact ⟨earlier, original, payload, since, later, whole,
            by simp [TranslateQueue.resolve, found]⟩
      | reserved since held =>
          right
          exact ⟨Or.inr ⟨_, member, rfl, rfl⟩, by simp [TranslateQueue.resolve, found]⟩
      | ready message level origin delivery =>
          right
          exact ⟨Or.inr ⟨_, member, rfl, rfl⟩, by simp [TranslateQueue.resolve, found]⟩

/-- What parking a row does. -/
theorem holdInReserved_eq (id : Nat) (message : Message ρ) (level : ActivityLevel) :
    (∃ earlier since held later, q.entries = earlier ++ ⟨id, .reserved since held⟩ :: later ∧
      q.holdInReserved id message level =
        (⟨earlier ++ ⟨id, .reserved since (held ++ [(message, level)])⟩ :: later⟩, none)) ∨
    ((∀ e ∈ q.entries, e.id ≠ id) ∨ ∃ e ∈ q.entries, e.id = id ∧ e.isReserved = false) ∧
      q.holdInReserved id message level = (q, some message) := by
  cases found : splitAtFirst (fun e => e.id == id) q.entries with
  | none =>
      right
      have absent := (splitAtFirst_eq_none _ _).mp found
      refine ⟨Or.inl fun e member => ?_, by simp [TranslateQueue.holdInReserved, found]⟩
      simpa using absent e member
  | some parts =>
      obtain ⟨earlier, ⟨key, slot⟩, later⟩ := parts
      obtain ⟨whole, accepted, _⟩ := splitAtFirst_eq_some _ _ _ _ _ found
      simp only [beq_iff_eq] at accepted
      subst accepted
      have member : (⟨key, slot⟩ : Entry ρ) ∈ q.entries := by simp [whole]
      cases slot with
      | reserved since held =>
          left
          exact ⟨earlier, since, held, later, whole, by simp [TranslateQueue.holdInReserved, found]⟩
      | pending original payload since =>
          right
          exact ⟨Or.inr ⟨_, member, rfl, rfl⟩, by simp [TranslateQueue.holdInReserved, found]⟩
      | ready message level origin delivery =>
          right
          exact ⟨Or.inr ⟨_, member, rfl, rfl⟩, by simp [TranslateQueue.holdInReserved, found]⟩

theorem clears_releaseReserved (id : Nat) : Clears q.entries (q.releaseReserved id).entries := by
  rcases fillReservedWith_eq q id [] with ⟨earlier, since, held, later, whole, filled⟩ | ⟨_, same⟩
  · rw [TranslateQueue.releaseReserved, filled, whole, List.append_nil]
    apply Relation.ReflTransGen.single
    apply Settles.settle
    · simp [Entry.isReady]
    · intro x member
      obtain ⟨row, _, rfl⟩ := List.mem_map.mp member
      exact ⟨rfl, isReady_rowEntry id row⟩
    · exact weigh_rows id held
  · rw [TranslateQueue.releaseReserved, same]

theorem clears_resolve (id : Nat) (outcome : Except UntranslatedReason Str) :
    Clears q.entries (q.resolve id outcome).1.entries := by
  rcases resolve_eq q id outcome with
    ⟨earlier, original, payload, since, later, whole, resolved⟩ | ⟨_, same⟩
  · have settle : Settles Entry.id Settled Entry.tickets
        (earlier ++ ⟨id, .pending original payload since⟩ :: later)
        (earlier ++ [⟨id, TranslateQueue.resolvedSlot original payload outcome⟩] ++ later) := by
      apply Settles.settle
      · simp [Entry.isReady]
      · intro x member
        rw [List.mem_singleton.mp member]
        exact ⟨rfl, isReady_resolvedSlot id original payload outcome⟩
      · simpa using tickets_resolvedSlot id original payload since outcome
    rw [List.append_assoc, List.singleton_append] at settle
    rw [resolved, whole]
    exact Relation.ReflTransGen.single settle
  · rw [same]

theorem clears_giveUp (id : Nat) : Clears q.entries (q.giveUp id).entries :=
  (clears_releaseReserved q id).trans (clears_resolve (q.releaseReserved id) id (.error .timeout))

theorem clears_giveUpAll (entries : List (Entry ρ)) :
    Clears q.entries (q.giveUpAll entries).entries := by
  induction entries generalizing q with
  | nil => exact .refl
  | cons e rest ih => exact (clears_giveUp q e.id).trans (ih (q.giveUp e.id))

theorem clears_enforceCeiling (max : Nat) : Clears q.entries (q.enforceCeiling max).1.entries := by
  unfold TranslateQueue.enforceCeiling
  split
  · exact .refl
  · exact clears_giveUpAll q _

/-- The ready entries that leave and the entries that stay are the entries there were. -/
theorem popReady_entries (entries : List (Entry ρ)) :
    (TranslateQueue.popReady entries).1.map ReadyEntry.entry ++
      (TranslateQueue.popReady entries).2 = entries := by
  induction entries with
  | nil => rfl
  | cons e rest ih =>
      obtain ⟨id, slot⟩ := e
      cases slot with
      | ready message level origin delivery =>
          simp only [TranslateQueue.popReady, List.map_cons, List.cons_append, ih]
          rfl
      | reserved since held => rfl
      | pending original payload since => rfl

theorem line_release (s : QueueRun ρ) (q : TranslateQueue ρ) :
    (s.release q.drainReady).line = s.released.map ReadyEntry.entry ++ q.entries := by
  simp only [QueueRun.release, QueueRun.line, TranslateQueue.drainReady, List.map_append,
    List.append_assoc, popReady_entries]

end Settling

section Steps

/-- What one operation does to the line, and the messages that stay with the caller. -/
inductive Advances (line : List (Entry ρ)) :
    QueueOp ρ → List (Entry ρ) → Multiset (Ticket ρ) → Prop where
  | pushes (op : QueueOp ρ) (e : Entry ρ) (pushed : op.pushed = some e) :
      Advances line op (line ++ [e]) 0
  | holds (id : Nat) (row : Row ρ) (pre post : List (Entry ρ)) (since : Nat) (held : List (Row ρ))
      (whole : line = pre ++ ⟨id, .reserved since held⟩ :: post) :
      Advances line (.hold id row.1 row.2) (pre ++ ⟨id, .reserved since (held ++ [row])⟩ :: post) 0
  | returns (id : Nat) (row : Row ρ)
      (gone : (∀ e ∈ line, e.isReserved = true → e.id ≠ id) ∨
        ∃ e ∈ line, e.id = id ∧ e.isReserved = false) :
      Advances line (.hold id row.1 row.2) line {rowTicket id row}
  | fills (id : Nat) (rows : List (Row ρ)) (pre post : List (Entry ρ)) (since : Nat)
      (held : List (Row ρ)) (whole : line = pre ++ ⟨id, .reserved since held⟩ :: post) :
      Advances line (.fill id rows)
        (pre ++ (held ++ rows).map (TranslateQueue.rowEntry id) ++ post) 0
  | refuses (id : Nat) (rows : List (Row ρ))
      (gone : ∀ e ∈ line, e.isReserved = true → e.id ≠ id) :
      Advances line (.fill id rows) line (rows.map (rowTicket id) : List (Ticket ρ))
  | clears (op : QueueOp ρ) (last : List (Entry ρ)) (idle : op.takenIn = 0)
      (parks : ∀ id, op.parked id = []) (pushed : op.pushed = none) (clears : Clears line last) :
      Advances line op last 0

theorem not_reserved_of_released (s : QueueRun ρ) (e : Entry ρ)
    (member : e ∈ s.released.map ReadyEntry.entry) : e.isReady = true := by
  obtain ⟨r, _, rfl⟩ := List.mem_map.mp member
  rfl

theorem isReserved_of_isReady (e : Entry ρ) (ready : e.isReady = true) : e.isReserved = false := by
  obtain ⟨id, slot⟩ := e
  cases slot <;> simp_all [Entry.isReady, Entry.isReserved]

/-- A reservation of the line is still in the queue. -/
theorem reserved_in_queue (s : QueueRun ρ) {e : Entry ρ} (member : e ∈ s.line)
    (reserved : e.isReserved = true) : e ∈ s.queue.entries := by
  rcases List.mem_append.mp member with out | inside
  · have ready := not_reserved_of_released s e out
    rw [isReserved_of_isReady e ready] at reserved
    cases reserved
  · exact inside

theorem advances_exec (s : QueueRun ρ) (op : QueueOp ρ) :
    Advances s.line op (op.exec s).line (op.handedBack s) := by
  have pushing (e : Entry ρ) (q : TranslateQueue ρ) (back : q.entries = s.queue.entries ++ [e]) :
      (⟨q, s.released⟩ : QueueRun ρ).line = s.line ++ [e] := by
    simp [QueueRun.line, back]
  have clearing (q : TranslateQueue ρ) (clears : Clears s.queue.entries q.entries) :
      Clears s.line (⟨q, s.released⟩ : QueueRun ρ).line :=
    clears.behind (s.released.map ReadyEntry.entry)
  have releasing (q : TranslateQueue ρ) (clears : Clears s.queue.entries q.entries) :
      Clears s.line (s.release q.drainReady).line := by
    rw [line_release]
    exact clears.behind (s.released.map ReadyEntry.entry)
  cases op with
  | pushPending id original payload now =>
      have pushed := pushing _ (s.queue.pushPendingAt id original payload now) rfl
      exact pushed ▸ .pushes (.pushPending id original payload now) _ rfl
  | pushUntranslated id message level reason =>
      have pushed := pushing _ (s.queue.pushUntranslated id message level reason) rfl
      exact pushed ▸ .pushes (.pushUntranslated id message level reason) _ rfl
  | pushResolvedAs id message level delivery =>
      have pushed := pushing _ (s.queue.pushResolvedAs id message level delivery) rfl
      exact pushed ▸ .pushes (.pushResolvedAs id message level delivery) _ rfl
  | reserve id now =>
      have pushed := pushing _ (s.queue.reserveAt id now) rfl
      exact pushed ▸ .pushes (.reserve id now) _ rfl
  | hold id message level =>
      rcases holdInReserved_eq s.queue id message level with
        ⟨earlier, since, held, later, whole, parked⟩ | ⟨gone, returned⟩
      · have step : Advances s.line (.hold id message level) _ 0 :=
          .holds id (message, level) (s.released.map ReadyEntry.entry ++ earlier) later since held
            (by simp [QueueRun.line, whole])
        simpa [QueueOp.exec, QueueOp.handedBack, parked, QueueRun.line] using step
      · have step : Advances s.line (.hold id message level) s.line _ := .returns id (message, level) (by
          rcases gone with absent | ⟨e, member, same, open_⟩
          · left
            intro e member reserved
            exact absent e (reserved_in_queue s member reserved)
          · right
            exact ⟨e, List.mem_append_right _ member, same, open_⟩)
        simpa [QueueOp.exec, QueueOp.handedBack, returned] using step
  | fill id rows =>
      rcases fillReservedWith_eq s.queue id rows with
        ⟨earlier, since, held, later, whole, filled⟩ | ⟨gone, refused⟩
      · have step : Advances s.line (.fill id rows) _ 0 :=
          .fills id rows (s.released.map ReadyEntry.entry ++ earlier) later since held
            (by simp [QueueRun.line, whole])
        simpa [QueueOp.exec, QueueOp.handedBack, filled, QueueRun.line] using step
      · have step : Advances s.line (.fill id rows) s.line _ := .refuses id rows
          fun e member reserved => gone e (reserved_in_queue s member reserved) reserved
        simpa [QueueOp.exec, QueueOp.handedBack, refused] using step
  | release id =>
      exact .clears _ _ rfl (fun _ => rfl) rfl (clearing _ (clears_releaseReserved s.queue id))
  | resolve id outcome =>
      exact .clears _ _ rfl (fun _ => rfl) rfl (clearing _ (clears_resolve s.queue id outcome))
  | expire now timeout =>
      exact .clears _ _ rfl (fun _ => rfl) rfl (clearing _ (clears_giveUpAll s.queue _))
  | enforceCeiling max =>
      exact .clears _ _ rfl (fun _ => rfl) rfl (clearing _ (clears_enforceCeiling s.queue max))
  | flushAll => exact .clears _ _ rfl (fun _ => rfl) rfl (releasing _ (clears_giveUpAll s.queue _))
  | flushPending =>
      have resolved (entries : List (Entry ρ)) (q : TranslateQueue ρ) : Clears q.entries
          (entries.foldl (fun q e => (q.resolve e.id (.error .timeout)).1) q).entries := by
        induction entries generalizing q with
        | nil => exact .refl
        | cons e rest ih => exact (clears_resolve q e.id (.error .timeout)).trans (ih _)
      exact .clears _ _ rfl (fun _ => rfl) rfl (releasing _ (resolved _ s.queue))
  | drainReady => exact .clears _ _ rfl (fun _ => rfl) rfl (releasing s.queue .refl)

variable {line last : List (Entry ρ)} {op : QueueOp ρ} {back : Multiset (Ticket ρ)}

theorem weigh_append (a b : List (Entry ρ)) : weigh (a ++ b) = weigh a + weigh b := by
  simp [weigh]

theorem weigh_cons (e : Entry ρ) (rest : List (Entry ρ)) :
    weigh (e :: rest) = e.tickets + weigh rest := by
  simp [weigh]

theorem weigh_around (pre post : List (Entry ρ)) (e : Entry ρ) :
    weigh (pre ++ e :: post) = weigh (pre ++ post) + e.tickets := by
  rw [weigh_append, weigh_append, weigh_cons]
  abel

/-- What was there and came in is there or came back. -/
theorem Advances.balance (advances : Advances line op last back) :
    weigh line + op.takenIn = weigh last + back := by
  cases advances with
  | pushes _ e pushed =>
      rw [weigh_append, add_zero]
      cases op <;> simp_all [QueueOp.pushed, QueueOp.takenIn, weigh]
  | holds id row pre post since held whole =>
      rw [whole, weigh_around, weigh_around, add_zero, add_assoc]
      congr 1
      have snoc : held.map (rowTicket id) ++ [rowTicket id row] =
          (held ++ [row]).map (rowTicket id) := by simp
      exact congrArg (fun rows : List (Ticket ρ) => (rows : Multiset (Ticket ρ))) snoc
  | returns id row gone => rfl
  | fills id rows pre post since held whole =>
      have after := weigh_append (pre ++ (held ++ rows).map (TranslateQueue.rowEntry id)) post
      rw [whole, weigh_around, after, weigh_append, weigh_append, weigh_rows]
      simp only [Entry.tickets, QueueOp.takenIn, List.map_append, ← Multiset.coe_add]
      abel
  | refuses id rows gone => rfl
  | clears _ last idle parks pushed clears => rw [idle, weigh, weigh, clears.weight_eq]

/-- The ids that an operation finds and leaves in the line. -/
theorem Advances.ids (advances : Advances line op last back) {e : Entry ρ} (member : e ∈ last) :
    (∃ a ∈ line, e.id = a.id) ∨ op.pushedId = some e.id := by
  cases advances with
  | pushes _ a pushed =>
      rcases List.mem_append.mp member with before | new
      · exact Or.inl ⟨e, before, rfl⟩
      · right
        rw [List.mem_singleton.mp new, QueueOp.pushedId, pushed]
        rfl
  | holds id row pre post since held whole =>
      left
      rw [whole]
      rcases List.mem_append.mp member with before | later
      · exact ⟨e, List.mem_append_left _ before, rfl⟩
      · cases later with
        | head => exact ⟨⟨id, .reserved since held⟩, by simp, rfl⟩
        | tail _ after => exact ⟨e, List.mem_append_right _ (List.mem_cons_of_mem _ after), rfl⟩
  | returns id row gone => exact Or.inl ⟨e, member, rfl⟩
  | fills id rows pre post since held whole =>
      left
      rw [whole]
      rcases List.mem_append.mp member with front | after
      · rcases List.mem_append.mp front with before | new
        · exact ⟨e, List.mem_append_left _ before, rfl⟩
        · obtain ⟨row, _, rfl⟩ := List.mem_map.mp new
          exact ⟨⟨id, .reserved since held⟩, by simp, rfl⟩
      · exact ⟨e, by simp [after], rfl⟩
  | refuses id rows gone => exact Or.inl ⟨e, member, rfl⟩
  | clears _ last idle parks pushed clears => exact Or.inl (clears.keys member)

/-- The line of a run whose ids increase. -/
abbrev InOrder (line : List (Entry ρ)) : Prop := Orderly Entry.id Settled line

theorem Advances.inOrder (advances : Advances line op last back) (inOrder : InOrder line)
    (fresh : ∀ id, op.pushedId = some id → ∀ e ∈ line, e.id < id) : InOrder last := by
  cases advances with
  | pushes _ e pushed =>
      apply inOrder.snoc
      exact fresh e.id (by rw [QueueOp.pushedId, pushed]; rfl)
  | holds id row pre post since held whole =>
      rw [whole] at inOrder
      exact inOrder.update (by simp [Entry.isReady]) rfl
  | returns id row gone => exact inOrder
  | fills id rows pre post since held whole =>
      rw [whole] at inOrder
      apply inOrder.replace
      · intro x member
        obtain ⟨row, _, rfl⟩ := List.mem_map.mp member
        rfl
      · intro x member
        obtain ⟨row, _, rfl⟩ := List.mem_map.mp member
        exact isReady_rowEntry id row
  | refuses id rows gone => exact inOrder
  | clears _ last idle parks pushed clears => exact clears.orderly inOrder

/-- Ready rows that stand together stay together. -/
theorem Advances.block (advances : Advances line op last back) {block : List (Entry ρ)}
    (ready : ∀ e ∈ block, e.isReady = true) (inside : block <:+: line) : block <:+: last := by
  have reserved_not_in (id since : Nat) (held : List (Row ρ)) :
      (⟨id, .reserved since held⟩ : Entry ρ) ∉ block := by
    intro member
    have settled := ready _ member
    simp [Entry.isReady] at settled
  cases advances with
  | pushes _ e pushed => exact inside.trans (List.prefix_append line [e]).isInfix
  | holds id row pre post since held whole =>
      rw [whole] at inside
      simpa using infix_replace [⟨id, .reserved since (held ++ [row])⟩] inside
        (reserved_not_in id since held)
  | returns id row gone => exact inside
  | fills id rows pre post since held whole =>
      rw [whole] at inside
      exact infix_replace _ inside (reserved_not_in id since held)
  | refuses id rows gone => exact inside
  | clears _ last idle parks pushed clears => exact clears.block ready inside

/-- A reservation that is open now was open before, with the rows parked since. -/
theorem Advances.reserved (advances : Advances line op last back) (inOrder : InOrder line)
    {id since : Nat} {held : List (Row ρ)} (old : op.pushedId ≠ some id)
    (member : (⟨id, .reserved since held⟩ : Entry ρ) ∈ last) :
    ∃ before, (⟨id, .reserved since before⟩ : Entry ρ) ∈ line ∧ held = before ++ op.parked id := by
  have waits : ¬Settled (⟨id, .reserved since held⟩ : Entry ρ) := by simp [Entry.isReady]
  cases advances with
  | pushes _ e pushed =>
      have idle : op.parked id = [] := by
        cases op <;> simp_all [QueueOp.parked, QueueOp.pushed]
      rcases List.mem_append.mp member with before | new
      · exact ⟨held, before, by simp [idle]⟩
      · rw [QueueOp.pushedId, pushed, ← List.mem_singleton.mp new] at old
        exact absurd rfl old
  | holds key row pre post since' parked whole =>
      have open_ : ¬Settled (⟨key, .reserved since' parked⟩ : Entry ρ) := by simp [Entry.isReady]
      rw [whole] at inOrder
      have apart := inOrder.alone open_
      rw [whole]
      by_cases same : key = id
      · subst same
        rcases List.mem_append.mp member with before | later
        · exact absurd rfl (apart ⟨key, .reserved since held⟩ (List.mem_append_left post before))
        · rcases List.mem_cons.mp later with here | after
          · simp only [Entry.mk.injEq, Slot.reserved.injEq, true_and] at here
            obtain ⟨rfl, rfl⟩ := here
            exact ⟨parked, by simp, by simp [QueueOp.parked]⟩
          · exact absurd rfl (apart ⟨key, .reserved since held⟩ (List.mem_append_right pre after))
      · refine ⟨held, ?_, by simp [QueueOp.parked, same]⟩
        rcases List.mem_append.mp member with before | later
        · exact List.mem_append_left _ before
        · rcases List.mem_cons.mp later with here | after
          · simp only [Entry.mk.injEq] at here
            exact absurd here.1.symm same
          · exact List.mem_append_right _ (List.mem_cons_of_mem _ after)
  | returns key row gone =>
      refine ⟨held, member, ?_⟩
      by_cases same : key = id
      · subst same
        rcases gone with absent | ⟨e, other, tie, open_⟩
        · exact absurd rfl (absent _ member rfl)
        · rw [inOrder.eq_of_waiting member waits other tie] at open_
          cases open_
      · simp [QueueOp.parked, same]
  | fills key rows pre post since' parked whole =>
      refine ⟨held, ?_, by simp [QueueOp.parked]⟩
      rw [whole]
      rcases List.mem_append.mp member with front | after
      · rcases List.mem_append.mp front with before | new
        · exact List.mem_append_left _ before
        · obtain ⟨row, _, row_eq⟩ := List.mem_map.mp new
          rw [← row_eq] at waits
          exact absurd (isReady_rowEntry key row) waits
      · exact List.mem_append_right _ (List.mem_cons_of_mem _ after)
  | refuses key rows gone => exact ⟨held, member, by simp [QueueOp.parked]⟩
  | clears _ last idle parks pushed clears =>
      exact ⟨held, clears.waited member waits, by simp [parks]⟩

end Steps

section Flush

variable (q : TranslateQueue ρ)

/-- Giving up on an id leaves no entry that waits under it. -/
theorem giveUp_settles (id : Nat) (inOrder : InOrder q.entries) :
    ∀ e ∈ (q.giveUp id).entries, e.id = id → e.isReady = true := by
  have orderly := (clears_releaseReserved q id).orderly inOrder
  have released : ∀ e ∈ (q.releaseReserved id).entries, e.id = id → e.isReserved = false := by
    rcases fillReservedWith_eq q id [] with ⟨earlier, since, held, later, whole, filled⟩ | ⟨gone, same⟩
    · rw [whole] at inOrder
      have apart := inOrder.alone (by simp [Entry.isReady])
      rw [TranslateQueue.releaseReserved, filled]
      intro e member same
      rcases List.mem_append.mp member with front | after
      · rcases List.mem_append.mp front with before | new
        · exact absurd same (apart e (List.mem_append_left later before))
        · obtain ⟨row, _, rfl⟩ := List.mem_map.mp new
          rfl
      · exact absurd same (apart e (List.mem_append_right earlier after))
    · rw [TranslateQueue.releaseReserved, same]
      intro e member key
      by_contra reserved
      exact gone e member (by simpa using reserved) key
  intro e member key
  by_contra waits
  have before := (clears_resolve (q.releaseReserved id) id (.error .timeout)).waited member waits
  have pending : e.isPending = true := by
    have unreserved := released e before key
    obtain ⟨_, slot⟩ := e
    cases slot <;> simp_all [Entry.isReady, Entry.isReserved, Entry.isPending]
  rcases resolve_eq (q.releaseReserved id) id (.error .timeout) with
    ⟨earlier, original, payload, since, later, whole, resolved⟩ | ⟨missing, same⟩
  · rw [whole] at orderly
    have apart := orderly.alone (by simp [Entry.isReady])
    rw [TranslateQueue.giveUp, resolved] at member
    rcases List.mem_append.mp member with first | rest
    · exact apart e (List.mem_append_left later first) key
    · rcases List.mem_cons.mp rest with here | after
      · rw [here] at waits
        exact waits (isReady_resolvedSlot id original payload (.error .timeout))
      · exact apart e (List.mem_append_right earlier after) key
  · rcases missing with absent | ⟨other, there, tie, open_⟩
    · exact absent e before key
    · rw [orderly.eq_of_waiting before waits there (tie.trans key.symm), pending] at open_
      cases open_

theorem giveUpAll_settles (entries : List (Entry ρ)) (inOrder : InOrder q.entries) :
    ∀ e ∈ (q.giveUpAll entries).entries, e.isReady = false → ∀ a ∈ entries, e.id ≠ a.id := by
  induction entries generalizing q with
  | nil =>
      intro e _ _ a member
      cases member
  | cons first rest ih =>
      have inOrder' := (clears_giveUp q first.id).orderly inOrder
      intro e member waits a among
      rcases List.mem_cons.mp among with here | later
      · intro same
        have clears := clears_giveUpAll (q.giveUp first.id) rest
        have before := clears.waited member (by simp [waits])
        rw [giveUp_settles q first.id inOrder e before (same.trans (congrArg Entry.id here))] at waits
        cases waits
      · exact ih (q.giveUp first.id) inOrder' e member waits a later

theorem popReady_ready (entries : List (Entry ρ)) (ready : ∀ e ∈ entries, e.isReady = true) :
    (TranslateQueue.popReady entries).2 = [] := by
  induction entries with
  | nil => rfl
  | cons e rest ih =>
      have head := ready e List.mem_cons_self
      obtain ⟨id, slot⟩ := e
      cases slot with
      | ready message level origin delivery =>
          exact ih fun e member => ready e (List.mem_cons_of_mem _ member)
      | reserved since held => cases head
      | pending original payload since => cases head

/-- A flush empties the queue. -/
theorem flushAll_empties (inOrder : InOrder q.entries) : q.flushAll.1.entries = [] := by
  apply popReady_ready
  intro e member
  by_contra waits
  have before := (clears_giveUpAll q (q.entries.filter fun e => !e.isReady)).waited member waits
  have waiting : e.isReady = false := by simpa using waits
  apply giveUpAll_settles q _ inOrder e member waiting e _ rfl
  simp [before, waiting]

end Flush

section Runs

/-- The ids pushed along a run increase. -/
def Increasing (ops : List (QueueOp ρ)) : Prop := (ops.filterMap QueueOp.pushedId).Pairwise (· < ·)

instance (ops : List (QueueOp ρ)) : Decidable (Increasing ops) :=
  inferInstanceAs (Decidable ((ops.filterMap QueueOp.pushedId).Pairwise (· < ·)))

abbrev run (ops : List (QueueOp ρ)) : QueueRun ρ := runFrom QueueOp.exec .new ops

theorem run_snoc (ops : List (QueueOp ρ)) (op : QueueOp ρ) :
    run (ops ++ [op]) = op.exec (run ops) := by
  rw [run, runFrom_append]
  rfl

theorem increasing_front {ops more : List (QueueOp ρ)} (increasing : Increasing (ops ++ more)) :
    Increasing ops := by
  rw [Increasing, List.filterMap_append] at increasing
  exact (List.pairwise_append.mp increasing).1

theorem increasing_later {ops more : List (QueueOp ρ)} (increasing : Increasing (ops ++ more))
    {op : QueueOp ρ} (among : op ∈ more) {id : Nat} (pushes : op.pushedId = some id) :
    ∀ earlier ∈ ops.filterMap QueueOp.pushedId, earlier < id := by
  rw [Increasing, List.filterMap_append] at increasing
  intro earlier member
  apply (List.pairwise_append.mp increasing).2.2 earlier member
  exact List.mem_filterMap.mpr ⟨op, among, pushes⟩

/-- Every id of the line was pushed. -/
theorem ids_run (ops : List (QueueOp ρ)) :
    ∀ e ∈ (run ops).line, e.id ∈ ops.filterMap QueueOp.pushedId := by
  induction ops using List.reverseRecOn with
  | nil =>
      intro e member
      cases member
  | append_singleton ops op ih =>
      intro e member
      rw [run_snoc] at member
      rw [List.filterMap_append]
      rcases (advances_exec (run ops) op).ids member with ⟨a, before, same⟩ | new
      · rw [same]
        exact List.mem_append_left _ (ih a before)
      · exact List.mem_append_right _ (by simp [new])

theorem inOrder_run (ops : List (QueueOp ρ)) (increasing : Increasing ops) :
    InOrder (run ops).line := by
  induction ops using List.reverseRecOn with
  | nil => exact List.Pairwise.nil
  | append_singleton ops op ih =>
      rw [run_snoc]
      apply (advances_exec (run ops) op).inOrder (ih (increasing_front increasing))
      intro id pushes e member
      exact increasing_later increasing (List.mem_singleton_self op) pushes e.id (ids_run ops e member)

/-- The rows parked at an open reservation are those held since it was made. -/
theorem reserved_run (before middle : List (QueueOp ρ)) (id now : Nat)
    (increasing : Increasing (before ++ .reserve id now :: middle)) (since : Nat)
    (held : List (Row ρ))
    (member : (⟨id, .reserved since held⟩ : Entry ρ) ∈
      (run (before ++ .reserve id now :: middle)).line) :
    held = middle.flatMap (QueueOp.parked id) := by
  induction middle using List.reverseRecOn generalizing since held with
  | nil =>
      rw [run_snoc] at member
      have there : (⟨id, .reserved since held⟩ : Entry ρ) ∈
          (run before).line ++ [⟨id, .reserved now []⟩] := by
        simpa [QueueOp.exec, QueueRun.line, TranslateQueue.reserveAt, TranslateQueue.pushBack]
          using member
      rcases List.mem_append.mp there with earlier | here
      · have less := increasing_later increasing (List.mem_singleton_self _) rfl id
          (ids_run before _ earlier)
        exact absurd less (lt_irrefl id)
      · simp only [List.mem_singleton, Entry.mk.injEq, Slot.reserved.injEq] at here
        simp [here.2.2]
  | append_singleton middle op ih =>
      have assoc : before ++ .reserve id now :: (middle ++ [op]) =
          (before ++ .reserve id now :: middle) ++ [op] := by simp
      rw [assoc] at increasing member
      rw [run_snoc] at member
      have earlier := increasing_front increasing
      have inOrder := inOrder_run _ earlier
      have old : op.pushedId ≠ some id := by
        intro pushes
        have less := increasing_later increasing (List.mem_singleton_self op) pushes id (by
          simp [QueueOp.pushedId, QueueOp.pushed])
        exact absurd less (lt_irrefl id)
      obtain ⟨rows, there, grown⟩ := (advances_exec _ op).reserved inOrder old member
      rw [grown, ih earlier since rows there, List.flatMap_append]
      simp

theorem block_run (s : QueueRun ρ) (ops : List (QueueOp ρ)) (block : List (Entry ρ))
    (ready : ∀ e ∈ block, e.isReady = true) (inside : block <:+: s.line) :
    block <:+: (runFrom QueueOp.exec s ops).line :=
  runFrom_invariant (fun s => block <:+: s.line)
    (fun s op inside => (advances_exec s op).block ready inside) s ops inside

/-- The rows that fill an open reservation stand behind those parked at it. -/
theorem fill_block (s : QueueRun ρ) (id : Nat) (rows parked : List (Row ρ))
    (open_ : s.queue.holdsReservation id = true)
    (held_eq : ∀ since held, (⟨id, .reserved since held⟩ : Entry ρ) ∈ s.line → held = parked) :
    (parked ++ rows).map (TranslateQueue.rowEntry id) <:+:
      ((QueueOp.fill id rows).exec s).line := by
  rcases fillReservedWith_eq s.queue id rows with
    ⟨earlier, since, held, later, whole, filled⟩ | ⟨gone, _⟩
  · have there : (⟨id, .reserved since held⟩ : Entry ρ) ∈ s.line := by
      simp [QueueRun.line, whole]
    rw [← held_eq since held there]
    refine ⟨s.released.map ReadyEntry.entry ++ earlier, later, ?_⟩
    simp [QueueOp.exec, QueueRun.line, filled]
  · simp only [TranslateQueue.holdsReservation, List.any_eq_true, Bool.and_eq_true,
      beq_iff_eq] at open_
    obtain ⟨e, member, same, reserved⟩ := open_
    exact absurd same (gone e member reserved)

/-- In every run whose pushed ids increase, what came in has left the queue, is in it or was handed
back, each message once; the ids leave in order; the rows of a reservation, those parked and those
that fill it, stand together in the order they came; and a flush lets everything leave. -/
theorem translate_queue_conserves_and_orders (ops : List (QueueOp ρ)) (increasing : Increasing ops) :
    runSum QueueOp.exec (fun _ op => op.takenIn) .new ops =
        weigh ((run ops).released.map ReadyEntry.entry) + weigh (run ops).queue.entries +
          runSum QueueOp.exec (fun s op => op.handedBack s) .new ops ∧
      ((run ops).released.map ReadyEntry.id).Pairwise (· ≤ ·) ∧
      (∀ before id now middle rows after,
        ops = (before ++ .reserve id now :: middle) ++ .fill id rows :: after →
        (run (before ++ .reserve id now :: middle)).queue.holdsReservation id = true →
        (middle.flatMap (QueueOp.parked id) ++ rows).map (TranslateQueue.rowEntry id) <:+:
          (run ops).line) ∧
      (QueueOp.flushAll.exec (run ops)).queue.entries = [] := by
  have inOrder := inOrder_run ops increasing
  refine ⟨?_, ?_, ?_, ?_⟩
  · have balance := runSum_balance (fun s : QueueRun ρ => weigh s.line)
      (fun _ op => op.takenIn) (fun s op => op.handedBack s)
      (fun s op _ => (advances_exec s op).balance) QueueRun.new ops
      (along_of_forall (fun _ _ => trivial) _ ops)
    have start : weigh (QueueRun.new : QueueRun ρ).line = 0 := rfl
    rw [start, zero_add] at balance
    rw [balance, ← weigh_append]
    rfl
  · have sorted : InOrder ((run ops).released.map ReadyEntry.entry) :=
      (List.pairwise_append.mp inOrder).1
    have apart := sorted.sorted
    rw [List.pairwise_map] at apart ⊢
    exact apart
  · intro before id now middle rows after split open_
    subst split
    rw [run, runFrom_append]
    apply block_run ((QueueOp.fill id rows).exec (run (before ++ .reserve id now :: middle))) after
    · intro e member
      obtain ⟨row, _, rfl⟩ := List.mem_map.mp member
      exact isReady_rowEntry id row
    · apply fill_block _ id rows _ open_
      exact reserved_run before middle id now (increasing_front increasing)
  · exact flushAll_empties _ (List.pairwise_append.mp inOrder).2.1

/-- A split echo whose first row waits at its reservation while a reply behind it is translated. -/
theorem translate_queue_conserves_and_orders_echo :
    let row (text : String) : Message Unit := ⟨text.toList, none, ()⟩
    let middle : List (QueueOp Unit) :=
      [.pushPending 2 "hej".toList ⟨row "hej", .activity, true⟩ 0, .hold 1 (row "one") .none,
        .resolve 2 (.ok "hi".toList), .drainReady]
    let ops : List (QueueOp Unit) :=
      .reserve 1 0 :: middle ++ [.fill 1 [(row "two", .none)], .drainReady]
    Increasing ops ∧ (run ops).released.map ReadyEntry.id = [1, 1, 2] ∧
      ([(row "one", .none), (row "two", .none)] : List (Row Unit)).map
        (TranslateQueue.rowEntry 1) <:+: (run ops).line ∧
      (QueueOp.flushAll.exec (run ops)).queue.entries = [] := by
  intro row middle ops
  have increasing : Increasing ops := by decide
  obtain ⟨_, _, blocks, flushed⟩ := translate_queue_conserves_and_orders ops increasing
  have block := blocks [] 1 0 middle [(row "two", .none)] [.drainReady] rfl (by decide)
  exact ⟨increasing, by decide, block, flushed⟩

end Runs

end Repartee.Translate
