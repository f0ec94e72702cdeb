import Repartee.App.Who
import Repartee.Fields

/-!
What every run of the queue of channels sends: each channel once in each of the three requests and
in order, in lines that fit, and the runs in which no request names more targets than the server
takes.
-/

namespace Repartee.Who

open Repartee.Text
open Repartee.Lib

theorem utf8Length_chanlist (channels : List Str) :
    utf8Length (chanlist channels) =
      (channels.map utf8Length).sum + (channels.length - 1) := by
  induction channels with
  | nil => rfl
  | cons ch rest ih =>
      cases rest with
      | nil => simp [chanlist]
      | cons next rest =>
          have comma : utf8Length ",".toList = 1 := by decide
          simp only [chanlist] at ih
          rw [chanlist, List.intercalate_cons_cons, utf8Length_append, utf8Length_append, ih, comma]
          simp only [List.map_cons, List.sum_cons, List.length_cons]
          omega

theorem utf8Length_chanlist_take_le (channels : List Str) {m n : Nat} (le : m ≤ n) :
    utf8Length (chanlist (channels.take m)) ≤ utf8Length (chanlist (channels.take n)) := by
  have split : channels.take n = channels.take m ++ (channels.drop m).take (n - m) := by
    rw [← List.take_add, Nat.add_sub_cancel' le]
  rw [utf8Length_chanlist, utf8Length_chanlist, split, List.map_append, List.sum_append,
    List.length_append]
  omega

/-- What a batch cut off the queue is. -/
structure Cut (budget : Nat) (queue batch rest : List Str) : Prop where
  split : batch ++ rest = queue
  some : batch ≠ []
  few : batch.length ≤ maxWhoTargets
  fits : 2 ≤ batch.length → utf8Length (chanlist batch) ≤ budget
  full : rest ≠ [] → batch.length = maxWhoTargets ∨
    budget < utf8Length (chanlist (queue.take (batch.length + 1)))

theorem cut_cutBatch_from (budget : Nat) (queue : List Str) (batch : List Str) (len : Nat)
    (counted : len = utf8Length (chanlist batch)) (few : batch.length ≤ maxWhoTargets)
    (fits : 2 ≤ batch.length → len ≤ budget) (some : batch ++ queue ≠ []) :
    Cut budget (batch ++ queue) (cutBatch budget batch len queue).1
      (cutBatch budget batch len queue).2 := by
  induction queue generalizing batch len with
  | nil =>
      rw [List.append_nil] at some
      exact ⟨rfl, some, few, counted ▸ fits, fun left => absurd rfl left⟩
  | cons ch queue ih =>
      have five : maxWhoTargets = 5 := rfl
      have longer : utf8Length (chanlist (batch ++ [ch])) =
          len + if batch = [] then utf8Length ch else 1 + utf8Length ch := by
        rw [counted, utf8Length_chanlist, utf8Length_chanlist]
        cases batch with
        | nil => simp
        | cons first rest =>
            simp only [List.map_append, List.sum_append, List.length_append, List.map_cons,
              List.map_nil, List.sum_cons, List.sum_nil, List.length_cons, List.length_nil,
              reduceCtorEq, if_false]
            omega
      have taken : (batch ++ ch :: queue).take (batch.length + 1) = batch ++ [ch] := by
        rw [List.append_cons, List.take_left']
        simp
      rw [cutBatch]
      by_cases whole : maxWhoTargets ≤ batch.length
      · rw [if_pos whole]
        have nonempty : batch ≠ [] := by
          intro empty
          simp [empty, five] at whole
        exact ⟨rfl, nonempty, few, counted ▸ fits, fun _ => .inl (Nat.le_antisymm few whole)⟩
      · rw [if_neg whole]
        by_cases wide :
            budget < len + (if batch = [] then utf8Length ch else 1 + utf8Length ch) ∧ batch ≠ []
        · rw [if_pos wide]
          exact ⟨rfl, wide.2, few, counted ▸ fits, fun _ => .inr (by rw [taken, longer]; exact wide.1)⟩
        · rw [if_neg wide]
          have next := ih (batch ++ [ch]) _ longer.symm
            (by simp only [List.length_append, List.length_singleton]; omega)
            (by
              intro two
              by_contra beyond
              refine wide ⟨Nat.lt_of_not_le beyond, ?_⟩
              intro empty
              simp [empty] at two)
            (by simp)
          simpa [List.append_assoc] using next

theorem cut_cutBatch (budget : Nat) (queue : List Str) (some : queue ≠ []) :
    Cut budget queue (cutBatch budget [] 0 queue).1 (cutBatch budget [] 0 queue).2 :=
  cut_cutBatch_from budget queue [] 0 rfl (by decide) (by simp) some

/-- The batch keeps a limit unless there is room on the line for one more than it. -/
theorem Cut.length_le_iff {budget : Nat} {queue batch rest : List Str}
    (cut : Cut budget queue batch rest) (n : Nat) (positive : 0 < n) :
    batch.length ≤ n ↔ (n < maxWhoTargets → n < queue.length →
      budget < utf8Length (chanlist (queue.take (n + 1)))) := by
  have lengths : queue.length = batch.length + rest.length := by
    rw [← cut.split, List.length_append]
  constructor
  · intro within few more
    have left : rest ≠ [] := by
      intro empty
      rw [empty, List.length_nil] at lengths
      omega
    cases cut.full left with
    | inl whole => omega
    | inr wide =>
        have longer := utf8Length_chanlist_take_le queue (Nat.succ_le_succ within)
        exact Nat.lt_of_lt_of_le wide longer
  · intro room
    by_contra beyond
    have few := cut.few
    have wide := room (by omega) (by omega)
    have taken : queue.take batch.length = batch := by rw [← cut.split, List.take_left']; rfl
    have longer := utf8Length_chanlist_take_le queue (show n + 1 ≤ batch.length by omega)
    have fits := cut.fits (by omega)
    rw [taken] at longer
    omega

section requests

variable (batch : List Str) (fields : Option Str) (multiMode : Bool)

theorem whoTargets_requests : (requests batch fields multiMode).flatMap Request.whoTargets = batch := by
  cases multiMode <;> simp [requests, Request.whoTargets, List.flatMap_map]

theorem modeTargets_requests :
    (requests batch fields multiMode).flatMap Request.modeTargets = batch := by
  cases multiMode <;> simp [requests, Request.modeTargets, List.flatMap_map]

theorem banListTargets_requests :
    (requests batch fields multiMode).flatMap Request.banListTargets = batch := by
  cases multiMode <;> simp [requests, Request.banListTargets, List.flatMap_map]

theorem mem_requests (request : Request) :
    request ∈ requests batch fields multiMode ↔
      request = .who batch fields ∨ (multiMode = true ∧ request = .mode batch) ∨
        (multiMode = false ∧ ∃ ch ∈ batch, request = .mode [ch]) ∨
          ∃ ch ∈ batch, request = .banList ch := by
  cases multiMode <;> simp [requests, eq_comm]

end requests

theorem utf8Length_whoToken (counter : Nat) : utf8Length (natText (nextWhoToken counter)) ≤ 3 := by
  have digits : ∀ token < 1000, utf8Length (natText token) ≤ 3 := by decide +kernel
  apply digits
  have small := Nat.mod_lt counter (show 0 < 999 by decide)
  rw [nextWhoToken]
  omega

theorem whoxRequest_length (isupport : Isupport) :
    ∀ selector ∈ isupport.whoxRequest, utf8Length selector ≤ 11 := by
  intro selector member
  rw [Isupport.whoxRequest] at member
  split at member
  · cases member
    rw [Isupport.whoxFieldSelector]
    split <;> decide
  · cases member

namespace ChannelQueries

/-- The WHOX argument the next batch would carry. -/
def fields (s : ChannelQueries) : Option Str := (s.connection.map buildWhoxFields).bind Prod.fst

theorem whoOverhead_covers (s : ChannelQueries) (names : List Str) :
    utf8Length (Request.line (.who names s.fields)) ≤ utf8Length (chanlist names) + s.whoOverhead ∧
      s.whoOverhead ≤ 22 := by
  have ends : utf8Length "\r\n".toList = 2 := by decide
  have who : utf8Length "WHO".toList = 3 := by decide
  have blank : Char.utf8Size ' ' = 1 := by decide
  have comma : Char.utf8Size ',' = 1 := by decide
  rw [fields, whoOverhead, whoxSelector]
  cases s.connection with
  | none =>
      simp only [Option.map_none, Option.bind_none, Request.line, Request.command,
        Request.arguments, utf8Length_append, utf8Length_cons, ends, who, blank]
      omega
  | some connection =>
      rw [Option.map_some, Option.bind_some, Option.bind_some, buildWhoxFields]
      cases found : connection.isupport.whoxRequest with
      | none =>
          simp only [Request.line, Request.command, Request.arguments, utf8Length_append,
            utf8Length_cons, ends, who, blank]
          omega
      | some selector =>
          have short := whoxRequest_length connection.isupport selector found
          have token := utf8Length_whoToken connection.whoTokenCounter
          simp only [Request.line, Request.command, Request.arguments, utf8Length_append,
            utf8Length_cons, ends, who, blank, comma]
          omega

theorem whoOverhead_ge (s : ChannelQueries) : 6 ≤ s.whoOverhead := by
  rw [whoOverhead]
  split <;> omega

/-- Every request of a batch cut for the budget fits, or names one channel. -/
theorem line_le {s : ChannelQueries} {batch rest : List Str} (cut : Cut s.budget s.queue batch rest)
    (request : Request) (member : request ∈ requests batch s.fields s.multiMode) :
    utf8Length request.line ≤ 512 ∨ request.targets.length = 1 := by
  have positive : 0 < batch.length := List.length_pos_of_ne_nil cut.some
  have who := s.whoOverhead_covers batch
  have least := s.whoOverhead_ge
  by_cases two : 2 ≤ batch.length
  · have fits := cut.fits two
    rw [budget] at fits
    rw [mem_requests] at member
    rcases member with rfl | ⟨-, rfl⟩ | ⟨-, ch, -, rfl⟩ | ⟨ch, -, rfl⟩
    · left
      omega
    · left
      have around : utf8Length (Request.line (.mode batch)) = utf8Length (chanlist batch) + 7 := by
        simp only [Request.line, Request.command, Request.arguments, utf8Length_append,
          utf8Length_cons, show utf8Length "\r\n".toList = 2 by decide,
          show utf8Length "MODE".toList = 4 by decide, show Char.utf8Size ' ' = 1 by decide]
        omega
      omega
    · exact .inr rfl
    · exact .inr rfl
  · right
    have one : batch.length = 1 := by omega
    rw [mem_requests] at member
    rcases member with rfl | ⟨-, rfl⟩ | ⟨-, ch, -, rfl⟩ | ⟨ch, -, rfl⟩
    · exact one
    · exact one
    · rfl
    · rfl

theorem sendChannelQueryBatch_empty (s : ChannelQueries) (now : Nat) (empty : s.queue = []) :
    s.sendChannelQueryBatch now = { s.clearInFlight with sentAt := none } := by
  rw [sendChannelQueryBatch, if_pos empty]

/-- With a handle, a queue with a channel in it sends the batch cut off it. -/
theorem sendChannelQueryBatch_cut (s : ChannelQueries) (now : Nat) (some : s.queue ≠ [])
    (handle : s.handle = true) :
    ∃ batch rest, Cut s.budget s.queue batch rest ∧
      s.sendChannelQueryBatch now = { s with
        queue := rest
        inFlight := .some batch.dedup
        sentAt := .some now
        connection := (s.connection.map buildWhoxFields).map Prod.snd
        sent := s.sent ++ (requests batch s.fields s.multiMode).map
          (.mk (s.connection.map (·.isupport)))
        batches := s.batches + 1 } := by
  have cut := cut_cutBatch s.budget s.queue some
  refine ⟨_, _, cut, ?_⟩
  rw [sendChannelQueryBatch, if_neg some]
  simp only [cut.some, handle, false_or, Bool.true_eq_false, if_false]
  rfl

end ChannelQueries

namespace ChannelQueries

/-- The operation sends the next batch. -/
def sends (s : ChannelQueries) : Nat × Op → Bool
  | (_, .queueChannelQuery _) => s.inFlight.isNone
  | (_, .handleWhoBatchComplete target) =>
      s.inFlight.any fun inFlight => decide (answered inFlight target = [])
  | (now, .checkStaleWhoBatches) => s.overdue now
  | _ => false

def queued : Nat × Op → List Str
  | (_, .queueChannelQuery channel) => [channel]
  | _ => []

/-- What the operation leaves before it sends anything. -/
def prepared (s : ChannelQueries) : Nat × Op → ChannelQueries
  | (_, .queueChannelQuery channel) => { s with queue := s.queue ++ [channel] }
  | (_, .handleWhoBatchComplete target) =>
      match s.inFlight with
      | none => s
      | some inFlight =>
          if answered inFlight target = [] then s.clearInFlight
          else { s with inFlight := some (answered inFlight target) }
  | (now, .checkStaleWhoBatches) =>
      if s.overdue now then { s.clearInFlight with sentAt := none } else s
  | (_, .connection connection) => { s with connection := connection }
  | (_, .reorder inFlight) =>
      if s.inFlight.any fun set => inFlight.isPerm set then { s with inFlight := some inFlight }
      else s

theorem exec_eq (s : ChannelQueries) (op : Nat × Op) :
    exec s op =
      if s.sends op then (s.prepared op).sendChannelQueryBatch op.1 else s.prepared op := by
  obtain ⟨now, op⟩ := op
  cases op with
  | queueChannelQuery channel => rfl
  | handleWhoBatchComplete target =>
      cases found : s.inFlight with
      | none => simp [exec, handleWhoBatchComplete, sends, prepared, found]
      | some inFlight =>
          by_cases last : answered inFlight target = [] <;>
            simp [exec, handleWhoBatchComplete, sends, prepared, found, last]
  | checkStaleWhoBatches =>
      simp only [exec, checkStaleWhoBatches, sends, prepared]
      split <;> rfl
  | connection connection => rfl
  | reorder inFlight => rfl

theorem prepared_frame (s : ChannelQueries) (op : Nat × Op) :
    (s.prepared op).queue = s.queue ++ queued op ∧ (s.prepared op).sent = s.sent ∧
      (s.prepared op).handle = s.handle ∧
      (s.sends op = true → (s.prepared op).connection = s.connection) := by
  obtain ⟨now, op⟩ := op
  cases op with
  | queueChannelQuery channel => simp [prepared, queued]
  | handleWhoBatchComplete target =>
      simp only [prepared, queued, List.append_nil]
      cases s.inFlight with
      | none => simp
      | some inFlight => by_cases last : answered inFlight target = [] <;> simp [last, clearInFlight]
  | checkStaleWhoBatches =>
      simp only [prepared, queued, List.append_nil]
      cases s.overdue now <;> simp [clearInFlight]
  | connection connection => simp [prepared, queued, sends]
  | reorder inFlight =>
      simp only [prepared, queued, List.append_nil]
      split <;> simp

/-- One batch is in flight at most, one is while channels wait, and it has been sent at some time. -/
structure Tracked (s : ChannelQueries) : Prop where
  atMostOne : s.batches = s.done + if s.inFlight.isSome then 1 else 0
  waiting : s.queue ≠ [] → s.inFlight.isSome
  timed : s.inFlight.isSome → s.sentAt.isSome

theorem prepared_tracked {s : ChannelQueries} (tracked : s.Tracked) (op : Nat × Op) :
    (s.sends op = true → (s.prepared op).inFlight = none ∧
      (s.prepared op).batches = (s.prepared op).done) ∧
    (s.sends op = false → (s.prepared op).Tracked) := by
  obtain ⟨atMostOne, waiting, timed⟩ := tracked
  obtain ⟨now, op⟩ := op
  cases op with
  | queueChannelQuery channel =>
      simp only [sends, prepared, Option.isNone_iff_eq_none]
      constructor
      · intro idle
        exact ⟨idle, by simpa [idle] using atMostOne⟩
      · intro busy
        have inFlight : s.inFlight.isSome = true := by
          cases found : s.inFlight with
          | none => simp [found] at busy
          | some set => rfl
        exact ⟨atMostOne, fun _ => inFlight, timed⟩
  | handleWhoBatchComplete target =>
      cases found : s.inFlight with
      | none =>
          simp only [sends, prepared, found, Option.any_none, Bool.false_eq_true, false_implies,
            true_and]
          exact fun _ => ⟨atMostOne, waiting, timed⟩
      | some inFlight =>
          simp only [found, Option.isSome_some, if_true] at atMostOne timed
          by_cases last : answered inFlight target = []
          · simp [sends, prepared, found, last, clearInFlight, atMostOne]
          · simp only [sends, prepared, found, last, Option.any_some, decide_false, if_false,
              Bool.false_eq_true, false_implies, true_and]
            exact fun _ => ⟨atMostOne, fun _ => rfl, fun _ => timed trivial⟩
  | checkStaleWhoBatches =>
      simp only [sends, prepared]
      cases s.overdue now with
      | true => simpa [clearInFlight] using atMostOne
      | false => simpa using ⟨atMostOne, waiting, timed⟩
  | connection connection =>
      simp only [sends, prepared, Bool.false_eq_true, false_implies, true_and]
      exact fun _ => ⟨atMostOne, waiting, timed⟩
  | reorder inFlight =>
      simp only [sends, prepared, Bool.false_eq_true, false_implies, true_and]
      intro _
      split
      · rename_i reordered
        have inFlight : s.inFlight.isSome = true := by
          cases found : s.inFlight with
          | none => simp [found] at reordered
          | some set => rfl
        simp only [inFlight, if_true] at atMostOne
        exact ⟨atMostOne, fun _ => rfl, fun _ => timed inFlight⟩
      · exact ⟨atMostOne, waiting, timed⟩

end ChannelQueries

/-- The channels named in one kind of request, in the order they were sent. -/
def named (part : Request → List Str) (sent : List Sent) : List Str :=
  sent.flatMap fun one => part one.request

/-- No request went out with more targets than the server took for its command. -/
def RespectsTargmax (sent : List Sent) : Prop :=
  ∀ one ∈ sent, ∀ isupport ∈ one.announced, ∀ n ∈ isupport.targmax one.request.command,
    one.request.targets.length ≤ n

/-- What the claim asks of the queue, the limits on targets apart. -/
structure Kept (queued : List Str) (s : ChannelQueries) : Prop where
  who : named Request.whoTargets s.sent ++ s.queue = queued
  mode : named Request.modeTargets s.sent ++ s.queue = queued
  banList : named Request.banListTargets s.sent ++ s.queue = queued
  tracked : s.Tracked
  lines : ∀ one ∈ s.sent,
    utf8Length one.request.line ≤ 512 ∨ one.request.targets.length = 1

/-- Where a batch could name more channels than the limit, the line has no room for them. -/
def LineEndsFirst (s : ChannelQueries) (queue : List Str) (command : Str) : Prop :=
  ∀ connection ∈ s.connection, ∀ n ∈ connection.isupport.targmax command,
    n < maxWhoTargets → n < queue.length → s.budget < utf8Length (chanlist (queue.take (n + 1)))

/-- If the operation sends a batch, neither limit is below what the line takes; the one for MODE
counts where several channels go into one request. -/
def BatchWithinLimits (s : ChannelQueries) (op : Nat × Op) : Prop :=
  s.sends op = true →
    LineEndsFirst s (s.queue ++ ChannelQueries.queued op) "WHO".toList ∧
      (s.multiMode = true →
        LineEndsFirst s (s.queue ++ ChannelQueries.queued op) "MODE".toList)

theorem limitIn_pos (command : Str) (entries : List Str) :
    ∀ n ∈ Isupport.limitIn command entries, 0 < n := by
  induction entries with
  | nil => simp [Isupport.limitIn]
  | cons entry rest ih =>
      intro n member
      rw [Isupport.limitIn] at member
      split at member
      · exact ih n member
      · split at member
        · split at member
          · split at member
            · cases member
              assumption
            · cases member
          · cases member
        · exact ih n member

theorem targmax_pos (isupport : Isupport) (command : Str) :
    ∀ n ∈ isupport.targmax command, 0 < n := by
  intro n member
  rw [Isupport.targmax, Option.mem_def, Option.bind_eq_some_iff] at member
  obtain ⟨targmax, -, found⟩ := member
  exact limitIn_pos command _ n found

namespace ChannelQueries

/-- What a sent batch keeps of the limits. -/
theorem respects_batch_iff (s : ChannelQueries) {batch rest : List Str}
    (cut : Cut s.budget s.queue batch rest) :
    RespectsTargmax ((requests batch s.fields s.multiMode).map
        (.mk (s.connection.map (·.isupport)))) ↔
      LineEndsFirst s s.queue "WHO".toList ∧
        (s.multiMode = true → LineEndsFirst s s.queue "MODE".toList) := by
  constructor
  · intro respects
    constructor
    · intro connection known n limit
      apply (cut.length_le_iff n (targmax_pos _ _ n limit)).mp
      have member := List.mem_map_of_mem (f := Sent.mk (s.connection.map (·.isupport)))
        ((mem_requests batch s.fields s.multiMode _).mpr (.inl rfl))
      exact respects _ member connection.isupport (by simp [Option.mem_def.mp known]) n limit
    · intro multi connection known n limit
      apply (cut.length_le_iff n (targmax_pos _ _ n limit)).mp
      have member := List.mem_map_of_mem (f := Sent.mk (s.connection.map (·.isupport)))
        ((mem_requests batch s.fields s.multiMode _).mpr (.inr (.inl ⟨multi, rfl⟩)))
      exact respects _ member connection.isupport (by simp [Option.mem_def.mp known]) n limit
  · intro room one member isupport announced n limit
    obtain ⟨request, requested, rfl⟩ := List.mem_map.mp member
    obtain ⟨connection, known, rfl⟩ := Option.map_eq_some_iff.mp announced
    have positive : 0 < n := targmax_pos _ _ n limit
    rw [mem_requests] at requested
    rcases requested with rfl | ⟨multi, rfl⟩ | ⟨-, ch, -, rfl⟩ | ⟨ch, -, rfl⟩
    · exact (cut.length_le_iff n positive).mpr (room.1 connection known n limit)
    · exact (cut.length_le_iff n positive).mpr (room.2 multi connection known n limit)
    · exact positive
    · exact positive

/-- What one operation adds to what has been sent. -/
theorem exec_sends (s : ChannelQueries) (op : Nat × Op) (handle : s.handle = true) :
    (exec s op).handle = true ∧
    (((exec s op).queue = s.queue ++ queued op ∧ (exec s op).sent = s.sent ∧
        (s.sends op = true → s.queue ++ queued op = [])) ∨
      ∃ batch, s.sends op = true ∧ Cut s.budget (s.queue ++ queued op) batch (exec s op).queue ∧
        (exec s op).sent = s.sent ++ (requests batch s.fields s.multiMode).map
          (.mk (s.connection.map (·.isupport)))) := by
  obtain ⟨queue, sent, same, connection⟩ := s.prepared_frame op
  rw [exec_eq]
  by_cases sends : s.sends op = true
  · rw [if_pos sends]
    by_cases empty : (s.prepared op).queue = []
    · rw [sendChannelQueryBatch_empty _ _ empty]
      refine ⟨same.trans handle, .inl ⟨queue, sent, fun _ => queue ▸ empty⟩⟩
    · obtain ⟨batch, rest, cut, step⟩ :=
        sendChannelQueryBatch_cut (s.prepared op) op.1 empty (same.trans handle)
      have known := connection sends
      rw [step]
      refine ⟨same.trans handle, .inr ⟨batch, sends, ?_, ?_⟩⟩
      · simpa only [queue, budget, whoOverhead, whoxSelector, known] using cut
      · simp only [sent, fields, multiMode, known]
  · rw [if_neg sends]
    exact ⟨same.trans handle, .inl ⟨queue, sent, fun sent => absurd sent sends⟩⟩

theorem exec_tracked {s : ChannelQueries} (tracked : s.Tracked) (op : Nat × Op)
    (handle : s.handle = true) : (exec s op).Tracked := by
  have before := prepared_tracked tracked op
  have same := (s.prepared_frame op).2.2.1
  rw [exec_eq]
  by_cases sends : s.sends op = true
  · rw [if_pos sends]
    obtain ⟨idle, counted⟩ := before.1 sends
    by_cases empty : (s.prepared op).queue = []
    · rw [sendChannelQueryBatch_empty _ _ empty]
      constructor
      · simpa [clearInFlight, idle] using counted
      · exact fun some => absurd empty some
      · exact fun some => absurd some (by simp [clearInFlight])
    · obtain ⟨batch, rest, -, step⟩ :=
        sendChannelQueryBatch_cut (s.prepared op) op.1 empty (same.trans handle)
      rw [step]
      exact ⟨by simp [counted], fun _ => rfl, fun _ => rfl⟩
  · rw [if_neg sends]
    exact before.2 (by simpa using sends)

/-- A kind of request that names every channel of a batch names every channel of the queue. -/
theorem exec_named (part : Request → List Str)
    (each : ∀ batch fields multiMode, (requests batch fields multiMode).flatMap part = batch)
    (s : ChannelQueries) (op : Nat × Op) (handle : s.handle = true) :
    named part (exec s op).sent ++ (exec s op).queue =
      named part s.sent ++ s.queue ++ queued op := by
  cases (s.exec_sends op handle).2 with
  | inl kept => rw [kept.1, kept.2.1, List.append_assoc]
  | inr batch =>
      obtain ⟨batch, -, cut, sent⟩ := batch
      have inside : named part ((requests batch s.fields s.multiMode).map
          (.mk (s.connection.map (·.isupport)))) = batch := by
        rw [named, List.flatMap_map, each]
      calc named part (exec s op).sent ++ (exec s op).queue
        _ = named part s.sent ++ (batch ++ (exec s op).queue) := by
            rw [sent, named, List.flatMap_append, ← named, ← named, inside, List.append_assoc]
        _ = named part s.sent ++ s.queue ++ queued op := by rw [cut.split, List.append_assoc]

theorem exec_kept {names : List Str} {s : ChannelQueries} (kept : Kept names s) (op : Nat × Op)
    (handle : s.handle = true) : Kept (names ++ queued op) (exec s op) := by
  constructor
  · rw [exec_named _ whoTargets_requests s op handle, kept.who]
  · rw [exec_named _ modeTargets_requests s op handle, kept.mode]
  · rw [exec_named _ banListTargets_requests s op handle, kept.banList]
  · exact exec_tracked kept.tracked op handle
  · cases (s.exec_sends op handle).2 with
    | inl same =>
        rw [same.2.1]
        exact kept.lines
    | inr batch =>
        obtain ⟨batch, -, cut, sent⟩ := batch
        intro one member
        rw [sent, List.mem_append, List.mem_map] at member
        rcases member with before | ⟨request, requested, rfl⟩
        · exact kept.lines one before
        · exact line_le (s := { s with queue := s.queue ++ queued op }) cut request requested

theorem respects_append (first second : List Sent) :
    RespectsTargmax (first ++ second) ↔ RespectsTargmax first ∧ RespectsTargmax second :=
  List.forall_mem_append

theorem exec_respects_iff (s : ChannelQueries) (op : Nat × Op) (handle : s.handle = true) :
    RespectsTargmax (exec s op).sent ↔ RespectsTargmax s.sent ∧ BatchWithinLimits s op := by
  cases (s.exec_sends op handle).2 with
  | inl same =>
      rw [same.2.1]
      constructor
      · intro respects
        refine ⟨respects, fun sends => ?_⟩
        rw [same.2.2 sends]
        exact ⟨fun _ _ _ _ _ more => absurd more (by simp),
          fun _ _ _ _ _ _ more => absurd more (by simp)⟩
      · exact And.left
  | inr batch =>
      obtain ⟨batch, sends, cut, sent⟩ := batch
      have step := respects_batch_iff { s with queue := s.queue ++ queued op } cut
      rw [sent, respects_append, BatchWithinLimits]
      exact and_congr_right fun _ => step.trans ⟨fun room _ => room, fun room => room sends⟩

/-- A stale check later than the last batch's time sends the next batch. -/
theorem stale_check_sends {s : ChannelQueries} (handle : s.handle = true) (tracked : s.Tracked)
    (waiting : s.queue ≠ []) :
    ∃ now, ∀ later ≥ now,
      (exec s (later, .checkStaleWhoBatches)).queue.length < s.queue.length := by
  obtain ⟨sentAt, known⟩ := Option.isSome_iff_exists.mp (tracked.timed (tracked.waiting waiting))
  refine ⟨sentAt + staleAfter + 1, fun later after => ?_⟩
  have sends : s.sends (later, .checkStaleWhoBatches) = true := by
    simp only [sends, overdue, known, Option.any_some, decide_eq_true_eq]
    omega
  cases (s.exec_sends (later, .checkStaleWhoBatches) handle).2 with
  | inl same => exact absurd (same.2.2 sends) (by simpa [queued] using waiting)
  | inr batch =>
      obtain ⟨batch, -, cut, -⟩ := batch
      have positive : 0 < batch.length := List.length_pos_of_ne_nil cut.some
      have split := congrArg List.length cut.split
      simp only [queued, List.append_nil, List.length_append] at split
      omega

end ChannelQueries

def queuedBy (ops : List (Nat × Op)) : List Str := ops.flatMap ChannelQueries.queued

theorem runFrom_kept {names : List Str} {s : ChannelQueries} (kept : Kept names s)
    (handle : s.handle = true) (ops : List (Nat × Op)) :
    Kept (names ++ queuedBy ops) (runFrom exec s ops) ∧ (runFrom exec s ops).handle = true := by
  induction ops generalizing names s with
  | nil => simpa [queuedBy] using ⟨kept, handle⟩
  | cons op rest ih =>
      have next := ih (ChannelQueries.exec_kept kept op handle) (s.exec_sends op handle).1
      simpa [queuedBy, List.append_assoc] using next

theorem runFrom_respects_iff (s : ChannelQueries) (handle : s.handle = true)
    (ops : List (Nat × Op)) :
    RespectsTargmax (runFrom exec s ops).sent ↔
      RespectsTargmax s.sent ∧ Along BatchWithinLimits exec s ops := by
  induction ops generalizing s with
  | nil => simp [Along]
  | cons op rest ih =>
      rw [runFrom_cons, ih _ (s.exec_sends op handle).1, s.exec_respects_iff op handle, Along,
        and_assoc]

/-- Stale checks alone empty the queue. -/
theorem stale_checks_drain (since : Nat) {s : ChannelQueries} (handle : s.handle = true)
    (tracked : s.Tracked) :
    ∃ checks : List (Nat × Op),
      (∀ check ∈ checks, since ≤ check.1 ∧ check.2 = .checkStaleWhoBatches) ∧
        (runFrom exec s checks).queue = [] := by
  induction waiting : s.queue.length using Nat.strong_induction_on generalizing s with
  | _ n ih =>
      by_cases empty : s.queue = []
      · exact ⟨[], by simp, empty⟩
      · obtain ⟨now, shorter⟩ := ChannelQueries.stale_check_sends handle tracked empty
        let check : Nat × Op := (max since now, .checkStaleWhoBatches)
        have less := shorter (max since now) (Nat.le_max_right _ _)
        obtain ⟨checks, all, drained⟩ := ih _ (waiting ▸ less) (s.exec_sends check handle).1
          (ChannelQueries.exec_tracked tracked check handle) rfl
        refine ⟨check :: checks, ?_, drained⟩
        intro one member
        cases List.mem_cons.mp member with
        | inl first =>
            rw [first]
            exact ⟨Nat.le_max_left _ _, rfl⟩
        | inr later => exact all one later

theorem kept_new (connection : Option Connection) : Kept [] (.new connection) :=
  ⟨rfl, rfl, rfl, ⟨rfl, fun waiting => absurd rfl waiting, nofun⟩, nofun⟩

/-- Every run asks about each queued channel once in each way and in order, and asks about those
still waiting when the stale checks go on; the requests name no more targets than the server takes
exactly in the runs whose batches stay within the limits. -/
theorem queue_asks_once (connection : Option Connection) (ops : List (Nat × Op)) :
    Kept (queuedBy ops) (run connection ops) ∧
      (∀ since, ∃ checks : List (Nat × Op),
        (∀ check ∈ checks, since ≤ check.1 ∧ check.2 = .checkStaleWhoBatches) ∧
          (run connection (ops ++ checks)).queue = []) ∧
      (RespectsTargmax (run connection ops).sent ↔
        Along BatchWithinLimits exec (.new connection) ops) := by
  obtain ⟨kept, handle⟩ := runFrom_kept (kept_new connection) rfl ops
  refine ⟨kept, fun since => ?_, ?_⟩
  · obtain ⟨checks, all, drained⟩ := stale_checks_drain since handle kept.tracked
    exact ⟨checks, all, by rw [run, runFrom_append]; exact drained⟩
  · rw [run, runFrom_respects_iff _ rfl]
    exact and_iff_right nofun

/-- The server takes one target of a WHO. -/
def singleTarget : Connection := ⟨⟨⟨[("TARGMAX".toList, "WHO:1".toList)], by simp⟩⟩, 0⟩

/-- Two channels queued behind a first go into one WHO. -/
theorem who_exceeds_targmax :
    ¬ RespectsTargmax (run (some singleTarget)
      [(0, .queueChannelQuery "#a".toList), (1, .queueChannelQuery "#b".toList),
        (2, .queueChannelQuery "#c".toList), (3, .handleWhoBatchComplete "#a".toList)]).sent := by
  intro respects
  have last := respects ⟨some singleTarget.isupport, .who ["#b".toList, "#c".toList] none⟩
    (List.mem_of_getElem? (i := 3) rfl) singleTarget.isupport rfl 1 (by decide +kernel)
  exact absurd last (by decide)

end Repartee.Who
