import Repartee.State.Buffers
import Repartee.Storage.Messages

/-!
The log writer: the bounded queue that rows are handed to, the rows it waits to store, and the
transactions that store them.
-/

namespace Repartee.Storage

open Text Lib

/-- A row on its way to the `messages` table. -/
structure LogRow where
  msgId : Str
  network : Str
  buffer : Str
  timestamp : Int
  tsMs : Int
  msgType : State.MessageType
  nick : Option Str
  text : Str
  translationSuffixAt : Option Nat
  highlight : Bool
  refId : Option Str
  tags : Option Str
  eventKey : Option Str
  eventParams : Option (List Str)
  deriving DecidableEq

/-- The name of a type in lower case, as its column holds it. -/
def typeColumn : State.MessageType → Str
  | .message => "message".toList
  | .action => "action".toList
  | .event => "event".toList
  | .notice => "notice".toList
  | .mentionLog => "mentionlog".toList

/-- A column that is encrypted when there is a key, with its nonce. -/
def sealed (C : LogCodec) (cryptoKey : Option C.Key) (plain : Str) : Option (Str × Option Bytes) :=
  match cryptoKey with
  | none => some (plain, none)
  | some key =>
      match C.encrypt key plain with
      | .ok (ciphertext, iv) => some (ciphertext, some iv)
      | .error _ => none

def sealedParams (C : LogCodec) (cryptoKey : Option C.Key) :
    Option (List Str) → Option (Option Str × Option Bytes)
  | none => some (none, none)
  | some params =>
      (sealed C cryptoKey (C.renderParams params)).map fun column => (some column.1, column.2)

/-- The columns of a row; `none` when one of them cannot be encrypted. The id is the table's. -/
def columns (C : LogCodec) (cryptoKey : Option C.Key) (row : LogRow) : Option MessageRow := do
  let text ← sealed C cryptoKey row.text
  let params ← sealedParams C cryptoKey row.eventParams
  return {
    id := 0
    msgId := some row.msgId
    network := row.network
    buffer := row.buffer
    timestamp := row.timestamp
    tsMs := some row.tsMs
    type := typeColumn row.msgType
    nick := row.nick
    text := text.1
    translationSuffixAt := row.translationSuffixAt.bind fun at_ =>
      if at_ < 2 ^ 63 then some (at_ : Int) else none
    highlight := some (if row.highlight then 1 else 0)
    iv := text.2
    refId := row.refId
    tags := row.tags
    eventKey := row.eventKey
    eventParams := params.1
    eventParamsIv := params.2
  }

namespace MessageTable

/-- INSERT OR IGNORE under the unique index on network and message id. -/
def insertOrIgnore (db : MessageTable) (values : MessageRow) : MessageTable :=
  if taken : db.rows.any fun row =>
      row.msgId.isSome && decide (row.network = values.network) && decide (row.msgId = values.msgId)
  then db
  else
    { db with
      rows := db.rows ++ [{ values with id := db.sequence + 1 }]
      sequence := db.sequence + 1
      ids := by
        rw [List.map_append, List.nodup_append]
        refine ⟨db.ids, List.nodup_singleton _, ?_⟩
        intro x old y new same
        rcases List.mem_map.mp old with ⟨row, member, rfl⟩
        have bound := db.sequenced row member
        simp only [List.map_cons, List.map_nil, List.mem_singleton] at new
        omega
      sequenced := by
        intro row member
        rcases List.mem_append.mp member with old | new
        · have bound := db.sequenced row old
          omega
        · rw [List.mem_singleton.mp new]
      msgIds := by
        have other : ∀ row ∈ db.rows, row.network = values.network → row.msgId = values.msgId →
            row.msgId.isSome → False := by
          intro row member network msgId known
          apply taken
          rw [List.any_eq_true]
          apply Exists.intro row
          apply And.intro member
          rw [Bool.and_eq_true, Bool.and_eq_true]
          exact ⟨⟨known, decide_eq_true network⟩, decide_eq_true msgId⟩
        intro a inA b inB network msgId known
        rcases List.mem_append.mp inA with oldA | newA
        · rcases List.mem_append.mp inB with oldB | newB
          · exact db.msgIds a oldA b oldB network msgId known
          · rw [List.mem_singleton.mp newB] at network msgId
            exact (other a oldA network msgId known).elim
        · rcases List.mem_append.mp inB with oldB | newB
          · rw [List.mem_singleton.mp newA] at network msgId known
            exact (other b oldB network.symm msgId.symm (msgId ▸ known)).elim
          · rw [List.mem_singleton.mp newA, List.mem_singleton.mp newB] }

/-- DELETE of the rows that a condition holds of. -/
def deleteWhere (db : MessageTable) (gone : MessageRow → Bool) : MessageTable :=
  { db with
    rows := db.rows.filter fun row => !gone row
    ids := db.ids.sublist ((List.filter_sublist).map _)
    sequenced := fun row member => db.sequenced row (List.mem_of_mem_filter member)
    msgIds := fun a inA b inB => db.msgIds a (List.mem_of_mem_filter inA) b
      (List.mem_of_mem_filter inB) }

def purgeOldMessages (db : MessageTable) (cutoff : Int) : MessageTable :=
  db.deleteWhere fun row => decide (row.timestamp < cutoff)

def purgeOldEvents (db : MessageTable) (cutoff : Int) : MessageTable :=
  db.deleteWhere fun row => decide (row.type = "event".toList) && decide (row.timestamp < cutoff)

end MessageTable

/-- What goes wrong in one flush; `inserts` says which rows the statement takes. -/
structure Faults where
  locks : Bool
  begins : Bool
  inserts : LogRow → Bool
  commits : Bool

def Faults.none : Faults := ⟨true, true, fun _ => true, true⟩

section Flush

variable (C : LogCodec) (cryptoKey : Option C.Key) (faults : Faults)

/-- A row that cannot be encrypted or inserted is dropped. -/
def insertRow (db : MessageTable) (row : LogRow) : MessageTable :=
  match columns C cryptoKey row with
  | none => db
  | some values => if faults.inserts row then db.insertOrIgnore values else db

/-- The table, and the rows to try again. A transaction that does not commit is not tried again. -/
def flush (db : MessageTable) (queue : List LogRow) : MessageTable × List LogRow :=
  if !faults.locks || !faults.begins then (db, queue)
  else if faults.commits then (queue.foldl (insertRow C cryptoKey faults) db, [])
  else (db, [])

end Flush

def batchSize : Nat := 50
def maxPendingRows : Nat := 4096
def channelCapacity : Nat := 4096

def capPendingRows (queue : List LogRow) : List LogRow :=
  if queue.length ≤ maxPendingRows then queue else queue.drop (queue.length - maxPendingRows)

/-- `channel` holds the rows handed over and not yet received. -/
structure Writer where
  channel : List LogRow
  pending : List LogRow
  db : MessageTable
  stopped : Bool

namespace Writer

/-- The writer of a log that is still empty. -/
def start : Writer where
  channel := []
  pending := []
  db :=
    { rows := []
      sequence := 0
      hasTsMs := true
      hasTranslationSuffix := true
      hasEventParams := true
      ids := List.nodup_nil
      sequenced := fun _ impossible => (List.not_mem_nil impossible).elim
      msgIds := fun _ impossible => (List.not_mem_nil impossible).elim }
  stopped := false

variable (C : LogCodec) (cryptoKey : Option C.Key) (w : Writer)

/-- Whether a row handed over now is taken. -/
def takes : Bool := !w.stopped && decide (w.channel.length < channelCapacity)

def trySend (row : LogRow) : Writer :=
  if w.takes then { w with channel := w.channel ++ [row] } else w

def flushPending (faults : Faults) : Writer :=
  if w.pending.isEmpty then w
  else
    { w with
      db := (flush C cryptoKey faults w.db w.pending).1
      pending := (flush C cryptoKey faults w.db w.pending).2 }

def push (row : LogRow) : Writer := { w with pending := capPendingRows (w.pending ++ [row]) }

/-- The loop takes one row, and stores the batch once it is full. -/
def receive (faults : Faults) : Writer :=
  match w.channel with
  | [] => w
  | row :: rest =>
      if w.stopped then w
      else
        let received := { w with channel := rest }.push row
        if batchSize ≤ received.pending.length then received.flushPending C cryptoKey faults
        else received

def tick (faults : Faults) : Writer := if w.stopped then w else w.flushPending C cryptoKey faults

/-- The last flush; what it leaves is not tried again. -/
def shutdown (faults : Faults) : Writer :=
  if w.stopped then w
  else
    let drained := w.channel.foldl push { w with channel := [] }
    { drained.flushPending C cryptoKey faults with pending := [], stopped := true }

def purge (purged : MessageTable) : Writer := { w with db := purged }

end Writer

end Repartee.Storage
