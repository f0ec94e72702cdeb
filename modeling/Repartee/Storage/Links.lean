import Repartee.Lib.Linked
import Repartee.Storage.Pages
import Repartee.Storage.Writer

/-!
The rows of the log that refer to another row: what a step of the writer must not give up for them
to find it.
-/

namespace Repartee.Storage

open Text Lib

/-- AES-GCM and JSON take back what they have written. -/
structure SoundCodec extends LogCodec where
  decrypt_encrypt : ∀ key text ciphertext iv, encrypt key text = .ok (ciphertext, iv) →
    decrypt key ciphertext iv = .ok text
  iv_length : ∀ key text ciphertext iv, encrypt key text = .ok (ciphertext, iv) → iv.length = 12
  parse_render : ∀ params, parseParams (renderParams params) = some params

/-- A row of the log as a reader understands it, wherever it is on its way. -/
structure LogEntry where
  network : Str
  msgId : Option Str
  refId : Option Str
  type : Str
  timestamp : Int
  text : Option Str
  eventKey : Option Str
  params : Option (List Str)

namespace LogEntry

def key (e : LogEntry) : Str × Option Str := (e.network, e.msgId)

def ref (e : LogEntry) : Option (Str × Option Str) := e.refId.map fun id => (e.network, some id)

/-- A row carries the text of an event that another row only refers to. `render` makes the text of
an event from its parameters. -/
structure Carries (render : Option Str → List Str → Str) (p r : LogEntry) : Prop where
  primary : p.refId = none
  text : ∃ params, r.params = some params ∧ p.text = some (render r.eventKey params)
  timestamp : p.timestamp = r.timestamp
  type : p.type = r.type

end LogEntry

def LogRow.entry (row : LogRow) : LogEntry where
  network := row.network
  msgId := some row.msgId
  refId := row.refId
  type := typeColumn row.msgType
  timestamp := row.timestamp
  text := some row.text
  eventKey := row.eventKey
  params := row.eventParams

def MessageRow.entry (C : LogCodec) (cryptoKey : Option C.Key) (m : MessageRow) : LogEntry where
  network := m.network
  msgId := m.msgId
  refId := m.refId
  type := m.type
  timestamp := m.timestamp
  text := (textOf C cryptoKey.isSome cryptoKey m.text m.iv).toOption
  eventKey := m.eventKey
  params := paramsOf C cryptoKey m.eventParams m.eventParamsIv

section Entries

variable (C : SoundCodec) {cryptoKey : Option C.Key}

theorem textOf_sealed {plain : Str} {column : Str × Option Bytes}
    (done : sealed C.toLogCodec cryptoKey plain = some column) :
    textOf C.toLogCodec cryptoKey.isSome cryptoKey column.1 column.2 = .ok plain := by
  cases cryptoKey with
  | none =>
      cases done
      rfl
  | some key =>
      simp only [sealed] at done
      split at done
      · next ciphertext iv encrypted =>
          cases done
          simp [textOf, C.decrypt_encrypt key plain ciphertext iv encrypted, Except.mapError]
      · cases done

theorem paramsOf_sealed {params : List Str} {column : Str × Option Bytes}
    (done : sealed C.toLogCodec cryptoKey (C.renderParams params) = some column) :
    paramsOf C.toLogCodec cryptoKey (some column.1) column.2 = some params := by
  cases cryptoKey with
  | none =>
      cases done
      simp [paramsOf, C.parse_render]
  | some key =>
      simp only [sealed] at done
      split at done
      · next ciphertext iv encrypted =>
          cases done
          simp [paramsOf, C.iv_length key _ ciphertext iv encrypted,
            C.decrypt_encrypt key _ ciphertext iv encrypted, C.parse_render, Except.toOption]
      · cases done

theorem paramsOf_sealedParams {params : Option (List Str)} {columns : Option Str × Option Bytes}
    (done : sealedParams C.toLogCodec cryptoKey params = some columns) :
    paramsOf C.toLogCodec cryptoKey columns.1 columns.2 = params := by
  cases params with
  | none =>
      cases done
      rfl
  | some list =>
      rcases Option.map_eq_some_iff.mp done with ⟨column, columnDone, rfl⟩
      exact paramsOf_sealed C columnDone

/-- What a reader understands of the columns of a row is the row. -/
theorem columns_entry {row : LogRow} {values : MessageRow}
    (done : columns C.toLogCodec cryptoKey row = some values) :
    values.entry C.toLogCodec cryptoKey = row.entry ∧ values.msgId = some row.msgId := by
  simp only [columns, Option.bind_eq_bind, Option.bind_eq_some_iff] at done
  rcases done with ⟨text, textDone, params, paramsDone, same⟩
  simp only [Option.pure_def, Option.some.injEq] at same
  subst same
  apply And.intro _ rfl
  have plain := textOf_sealed C textDone
  have read := paramsOf_sealedParams C paramsDone
  simp only [MessageRow.entry, LogRow.entry, plain, read, Except.toOption]

end Entries

namespace Writer

open Linked

variable (C : SoundCodec) (cryptoKey : Option C.Key) (render : Option Str → List Str → Str)

def stored (w : Writer) : List LogEntry := w.db.rows.map (MessageRow.entry C.toLogCodec cryptoKey)

def waiting (w : Writer) : List LogRow := w.pending ++ w.channel

/-- Every stored row that refers to another finds it in the table, and every row on its way will. -/
structure Links (w : Writer) : Prop where
  settled : ∀ e ∈ w.stored C cryptoKey,
    Resolved LogEntry.key LogEntry.ref (LogEntry.Carries render) (w.stored C cryptoKey) e
  linked : LinkedFrom LogEntry.key LogEntry.ref (LogEntry.Carries render) (w.stored C cryptoKey)
    (w.waiting.map LogRow.entry)

/-- No row of a list refers to one of the rows that are given up. -/
def Unreferenced (lost survivors : List LogRow) : Prop :=
  ∀ p ∈ lost, ∀ r ∈ survivors, r.entry.ref ≠ some p.entry.key

/-- Whether a transaction stores a row. -/
def keeps (faults : Faults) (row : LogRow) : Bool :=
  faults.commits && faults.inserts row && (columns C.toLogCodec cryptoKey row).isSome

/-- A flush gives up no row that one it keeps refers to. -/
def FlushSafe (faults : Faults) (w : Writer) : Prop :=
  faults.locks = true → faults.begins = true →
    Unreferenced (w.pending.filter fun row => !keeps C cryptoKey faults row)
      (w.pending.filter (keeps C cryptoKey faults) ++ w.channel)

/-- What is cut off an overlong list of pending rows. -/
def overflow (queue : List LogRow) : List LogRow :=
  if queue.length ≤ maxPendingRows then [] else queue.take (queue.length - maxPendingRows)

/-- The cut gives up no row that a later one refers to. -/
def CapSafe (queue later : List LogRow) : Prop :=
  Unreferenced (overflow queue) (capPendingRows queue ++ later)

def ReceiveSafe (faults : Faults) (w : Writer) : Prop :=
  match w.channel with
  | [] => True
  | row :: rest =>
      CapSafe (w.pending ++ [row]) rest ∧
        FlushSafe C cryptoKey faults ({ w with channel := rest }.push row)

def ShutdownSafe (faults : Faults) (w : Writer) : Prop :=
  CapSafe w.waiting [] ∧
    FlushSafe C cryptoKey faults (w.channel.foldl push { w with channel := [] })

/-- A deletion takes no row that one on its way refers to. -/
def PurgeSafe (gone : MessageRow → Bool) (w : Writer) : Prop :=
  ∀ m ∈ w.db.rows, gone m = true → ∀ r ∈ w.waiting, r.entry.ref ≠ some (m.network, m.msgId)

variable {C} {cryptoKey} {render} {w : Writer}

theorem entry_key (m : MessageRow) :
    (m.entry C.toLogCodec cryptoKey).key = (m.network, m.msgId) := rfl

theorem stored_insertOrIgnore {db : MessageTable} {row : LogRow} {values : MessageRow}
    (done : columns C.toLogCodec cryptoKey row = some values) :
    (db.insertOrIgnore values).rows.map (MessageRow.entry C.toLogCodec cryptoKey) =
      insertNew LogEntry.key (db.rows.map (MessageRow.entry C.toLogCodec cryptoKey)) row.entry := by
  have spec := columns_entry C done
  have key : row.entry.key = (values.network, values.msgId) := by
    rw [← spec.1]
    rfl
  have taken : (db.rows.any fun m => m.msgId.isSome && decide (m.network = values.network) &&
        decide (m.msgId = values.msgId)) =
      (db.rows.map (MessageRow.entry C.toLogCodec cryptoKey)).any fun e =>
        decide (e.key = row.entry.key) := by
    rw [List.any_map]
    congr 1
    funext m
    rw [Function.comp_apply, entry_key, key, spec.2]
    cases m.msgId with
    | none => simp
    | some id => simp
  unfold MessageTable.insertOrIgnore insertNew
  rw [← taken]
  split
  · rfl
  · rw [List.map_append, ← spec.1]
    rfl

theorem stored_insertRows (faults : Faults) (commits : faults.commits = true) (queue : List LogRow)
    (db : MessageTable) :
    (queue.foldl (insertRow C.toLogCodec cryptoKey faults) db).rows.map
        (MessageRow.entry C.toLogCodec cryptoKey) =
      ((queue.filter (keeps C cryptoKey faults)).map LogRow.entry).foldl (insertNew LogEntry.key)
        (db.rows.map (MessageRow.entry C.toLogCodec cryptoKey)) := by
  induction queue generalizing db with
  | nil => rfl
  | cons row rest ih =>
      rw [List.foldl_cons, ih]
      cases done : columns C.toLogCodec cryptoKey row with
      | none =>
          have dropped : keeps C cryptoKey faults row = false := by simp [keeps, done]
          simp [insertRow, done, dropped]
      | some values =>
          cases taken : faults.inserts row with
          | false =>
              have dropped : keeps C cryptoKey faults row = false := by simp [keeps, taken]
              simp [insertRow, done, taken, dropped]
          | true =>
              have kept : keeps C cryptoKey faults row = true := by
                simp [keeps, taken, done, commits]
              simp only [insertRow, done, taken, if_true, List.filter_cons_of_pos kept,
                List.map_cons, List.foldl_cons, stored_insertOrIgnore done]

/-- Rows at the front of those on their way may be given up when no later one refers to them. -/
theorem linked_of_front {ahead : List LogEntry} {front kept : List LogRow}
    (linked : LinkedFrom LogEntry.key LogEntry.ref (LogEntry.Carries render) ahead
      ((front ++ kept).map LogRow.entry))
    (unreferenced : Unreferenced front kept) :
    LinkedFrom LogEntry.key LogEntry.ref (LogEntry.Carries render) ahead
      (kept.map LogRow.entry) := by
  rw [List.map_append] at linked
  have thinned := linked.thin (fun _ => false) (by
    intro p member _ r survivor
    simp only [List.filter_false, List.map_nil, List.nil_append] at survivor
    rcases List.mem_map.mp survivor with ⟨row, rowMember, rfl⟩
    exact unreferenced p member row rowMember)
  simpa using thinned

theorem Links.trySend (links : Links C cryptoKey render w) (row : LogRow)
    (resolved : w.takes = true → Resolved LogEntry.key LogEntry.ref (LogEntry.Carries render)
      (w.stored C cryptoKey ++ w.waiting.map LogRow.entry) row.entry) :
    Links C cryptoKey render (w.trySend row) := by
  unfold Writer.trySend
  split
  · next takes =>
      constructor
      · exact links.settled
      have waiting : (Writer.waiting { w with channel := w.channel ++ [row] }).map LogRow.entry =
          w.waiting.map LogRow.entry ++ [row.entry] := by
        simp [Writer.waiting]
      rw [waiting, linkedFrom_append]
      exact ⟨links.linked, resolved takes, trivial⟩
  · exact links

theorem Links.flushPending (links : Links C cryptoKey render w) (faults : Faults)
    (safe : FlushSafe C cryptoKey faults w) :
    Links C cryptoKey render (w.flushPending C.toLogCodec cryptoKey faults) := by
  unfold Writer.flushPending
  split
  · exact links
  unfold flush
  split
  · exact links
  next begun =>
    simp only [Bool.or_eq_true, Bool.not_eq_true', not_or, Bool.not_eq_false] at begun
    have unreferenced := safe begun.1 begun.2
    split
    · next commits =>
        have both : LinkedFrom LogEntry.key LogEntry.ref (LogEntry.Carries render)
            (w.stored C cryptoKey)
            ((w.pending.filter (keeps C cryptoKey faults)).map LogRow.entry ++
              w.channel.map LogRow.entry) := by
          apply LinkedFrom.thin
          · rw [← List.map_append]
            exact links.linked
          · intro p member dropped r survivor
            rw [← List.map_append] at survivor
            rcases List.mem_map.mp survivor with ⟨row, rowMember, rfl⟩
            exact unreferenced p (List.mem_filter.mpr ⟨member, by simp [dropped]⟩) row rowMember
        have done := both.store links.settled
        unfold Writer.stored at done
        rw [← stored_insertRows faults commits] at done
        exact ⟨done.1, done.2⟩
    · next aborts =>
        constructor
        · exact links.settled
        have none_ : ∀ row, keeps C cryptoKey faults row = false := by
          intro row
          simp [keeps, aborts]
        have waiting := links.linked
        apply linked_of_front waiting
        intro p member r survivor
        apply unreferenced p
        · exact List.mem_filter.mpr ⟨member, by simp [none_]⟩
        · exact List.mem_append_right _ survivor

theorem overflow_append (queue : List LogRow) : overflow queue ++ capPendingRows queue = queue := by
  unfold overflow capPendingRows
  split
  · exact List.nil_append queue
  · exact List.take_append_drop _ _

theorem Links.push (row : LogRow) (rest : List LogRow) (channel : w.channel = row :: rest)
    (links : Links C cryptoKey render w) (safe : CapSafe (w.pending ++ [row]) rest) :
    Links C cryptoKey render ({ w with channel := rest }.push row) := by
  constructor
  · exact links.settled
  have all : w.waiting = overflow (w.pending ++ [row]) ++
      (capPendingRows (w.pending ++ [row]) ++ rest) := by
    rw [← List.append_assoc, overflow_append, Writer.waiting, channel, List.append_assoc,
      List.singleton_append]
  have linked := links.linked
  rw [all] at linked
  have waiting : Writer.waiting ({ w with channel := rest }.push row) =
      capPendingRows (w.pending ++ [row]) ++ rest := by
    simp only [Writer.waiting, Writer.push]
  rw [waiting]
  exact linked_of_front linked safe

theorem Links.receive (links : Links C cryptoKey render w) (faults : Faults)
    (safe : ReceiveSafe C cryptoKey faults w) :
    Links C cryptoKey render (w.receive C.toLogCodec cryptoKey faults) := by
  unfold Writer.receive
  unfold ReceiveSafe at safe
  split
  · exact links
  · next row rest channel =>
      rw [channel] at safe
      split
      · exact links
      · have pushed := Links.push row rest channel links safe.1
        dsimp only
        split
        · exact pushed.flushPending faults safe.2
        · exact pushed

theorem Links.tick (links : Links C cryptoKey render w) (faults : Faults)
    (safe : FlushSafe C cryptoKey faults w) :
    Links C cryptoKey render (w.tick C.toLogCodec cryptoKey faults) := by
  unfold Writer.tick
  split
  · exact links
  · exact links.flushPending faults safe

/-- Cutting a list as it grows is cutting it once. -/
theorem cap_append (queue more : List LogRow) :
    capPendingRows (capPendingRows queue ++ more) = capPendingRows (queue ++ more) := by
  unfold capPendingRows
  generalize maxPendingRows = limit
  by_cases short : queue.length ≤ limit
  · rw [if_pos short]
  · rw [if_neg short]
    have long : ¬(queue ++ more).length ≤ limit := by
      rw [List.length_append]
      omega
    have cut : (queue.drop (queue.length - limit) ++ more).length = limit + more.length := by
      rw [List.length_append, List.length_drop]
      omega
    have split : (queue ++ more).length - limit = (queue.length - limit) + more.length := by
      rw [List.length_append]
      omega
    rw [if_neg long, split, ← List.drop_drop, List.drop_append_of_le_length (Nat.sub_le _ _), cut]
    split
    · next none_ =>
        have empty : more = [] := List.length_eq_zero_iff.mp (by omega)
        simp [empty]
    · rw [Nat.add_sub_cancel_left]

theorem pushes_pending (rows : List LogRow) (w : Writer) (some_ : rows ≠ []) :
    (rows.foldl Writer.push w).pending = capPendingRows (w.pending ++ rows) := by
  induction rows generalizing w with
  | nil => exact absurd rfl some_
  | cons row rest ih =>
      have pushed : (w.push row).pending = capPendingRows (w.pending ++ [row]) := by
        simp only [Writer.push]
      cases rest with
      | nil => exact pushed
      | cons next more =>
          rw [List.foldl_cons, ih _ (List.cons_ne_nil _ _), pushed, cap_append, List.append_assoc,
            List.singleton_append]

theorem pushes_rest (rows : List LogRow) (w : Writer) :
    (rows.foldl Writer.push w).db = w.db ∧ (rows.foldl Writer.push w).channel = w.channel := by
  induction rows generalizing w with
  | nil => exact ⟨rfl, rfl⟩
  | cons row rest ih =>
      have later := ih (w.push row)
      simp only [Writer.push] at later
      simp only [List.foldl_cons, Writer.push]
      exact later

theorem Links.drained (links : Links C cryptoKey render w) (safe : CapSafe w.waiting []) :
    Links C cryptoKey render (w.channel.foldl Writer.push { w with channel := [] }) := by
  have same := pushes_rest w.channel { w with channel := [] }
  have stored : Writer.stored C cryptoKey (w.channel.foldl Writer.push { w with channel := [] }) =
      w.stored C cryptoKey := by
    simp only [Writer.stored, same.1]
  apply Links.mk
  · rw [stored]
    exact links.settled
  · rw [stored, Writer.waiting, same.2, List.append_nil]
    cases channel : w.channel with
    | nil =>
        have linked := links.linked
        rw [Writer.waiting, channel, List.append_nil] at linked
        exact linked
    | cons row rest =>
        rw [pushes_pending _ _ (List.cons_ne_nil _ _)]
        have linked := links.linked
        rw [← overflow_append w.waiting] at linked
        have kept : w.pending ++ row :: rest = w.waiting := by rw [Writer.waiting, channel]
        rw [kept]
        apply linked_of_front linked
        intro p member r survivor
        exact safe p member r (List.mem_append_left _ survivor)

theorem Links.shutdown (links : Links C cryptoKey render w) (faults : Faults)
    (safe : ShutdownSafe C cryptoKey faults w) :
    Links C cryptoKey render (w.shutdown C.toLogCodec cryptoKey faults) := by
  unfold Writer.shutdown
  split
  · exact links
  · have flushed := (links.drained safe.1).flushPending faults safe.2
    constructor
    · exact flushed.settled
    have empty : ((w.channel.foldl Writer.push { w with channel := [] }).flushPending C.toLogCodec
        cryptoKey faults).channel = [] := by
      have same := (pushes_rest w.channel { w with channel := [] }).2
      unfold Writer.flushPending
      split
      · exact same
      · exact same
    simp only [Writer.waiting, empty, List.append_nil, List.map_nil]
    trivial

/-- The copies of an event are of one time and type, so a deletion by time and type takes them
together. -/
theorem Links.purge (links : Links C cryptoKey render w) (gone : MessageRow → Bool)
    (even : ∀ p r : MessageRow, p.timestamp = r.timestamp → p.type = r.type → gone p = gone r)
    (safe : PurgeSafe gone w) :
    Links C cryptoKey render (w.purge (w.db.deleteWhere gone)) := by
  have stored : Writer.stored C cryptoKey (w.purge (w.db.deleteWhere gone)) =
      (w.db.rows.filter fun m => !gone m).map (MessageRow.entry C.toLogCodec cryptoKey) := rfl
  constructor
  · intro e member
    rw [stored] at member ⊢
    rcases List.mem_map.mp member with ⟨r, kept, rfl⟩
    rw [List.mem_filter] at kept
    apply Resolved.filter
    · exact links.settled _ (List.mem_map_of_mem kept.1)
    · intro p _ carried
      rw [even p r carried.timestamp carried.type]
      exact kept.2
  · rw [stored]
    apply LinkedFrom.filter
    · exact links.linked
    · intro p member dropped e survivor
      rcases List.mem_map.mp survivor with ⟨row, rowMember, rfl⟩
      exact safe p member (by simpa using dropped) row rowMember

theorem start_links : Links C cryptoKey render Writer.start :=
  ⟨fun _ impossible => (List.not_mem_nil impossible).elim, trivial⟩

/-- The join of a linked log finds the text of every stored row that refers to one. -/
theorem Links.joined (links : Links C cryptoKey render w) (m : MessageRow) (stored : m ∈ w.db.rows)
    (id : Str) (refers : m.refId = some id) :
    ∃ p ∈ w.db.rows, p.network = m.network ∧ p.msgId = some id ∧ p.refId = none ∧
      w.db.leftJoin m = [(m, some p)] ∧
      ∃ params, paramsOf C.toLogCodec cryptoKey m.eventParams m.eventParamsIv = some params ∧
        textOf C.toLogCodec cryptoKey.isSome cryptoKey p.text p.iv =
          .ok (render m.eventKey params) := by
  have ref : (m.entry C.toLogCodec cryptoKey).ref = some (m.network, some id) := by
    simp only [LogEntry.ref, MessageRow.entry, refers, Option.map_some]
  rcases links.settled _ (List.mem_map_of_mem stored) _ ref with ⟨e, found, carried⟩
  rcases mem_of_under found with ⟨member, key⟩
  rcases List.mem_map.mp member with ⟨p, inTable, rfl⟩
  rw [entry_key, Prod.mk.injEq] at key
  have primary : w.db.primary m = some p := by
    cases first : w.db.primary m with
    | none =>
        have nowhere := List.find?_eq_none.mp first p inTable
        simp [MessageTable.isPrimaryOf, key.1, key.2, refers] at nowhere
    | some q =>
        have isPrimary := List.find?_some first
        have inTable' := List.mem_of_find?_eq_some first
        simp only [MessageTable.isPrimaryOf, Bool.and_eq_true, decide_eq_true_eq, refers] at isPrimary
        have same := w.db.msgIds q inTable' p inTable (isPrimary.2.trans key.1.symm)
          (isPrimary.1.2.trans key.2.symm) isPrimary.1.1
        rw [same]
  rcases carried.text with ⟨params, has, text⟩
  refine ⟨p, inTable, key.1, key.2, carried.primary, ?_, params, has, ?_⟩
  · rw [leftJoin_eq, primary]
  · change (textOf C.toLogCodec cryptoKey.isSome cryptoKey p.text p.iv).toOption =
      some (render m.eventKey params) at text
    cases read : textOf C.toLogCodec cryptoKey.isSome cryptoKey p.text p.iv with
    | error reason => simp [read, Except.toOption] at text
    | ok plain =>
        simp only [read, Except.toOption, Option.some.injEq] at text
        rw [text]

theorem capSafe_of_short (queue later : List LogRow) (short : queue.length ≤ maxPendingRows) :
    CapSafe queue later := by
  intro p lost
  rw [overflow, if_pos short] at lost
  exact (List.not_mem_nil lost).elim

theorem flushSafe_of_keeps (faults : Faults)
    (kept : ∀ row ∈ w.pending, keeps C cryptoKey faults row = true) :
    FlushSafe C cryptoKey faults w := by
  intro _ _ p lost
  rw [List.mem_filter] at lost
  simp [kept p lost.1] at lost

end Writer

end Repartee.Storage
