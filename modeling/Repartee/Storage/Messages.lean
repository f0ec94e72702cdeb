import Repartee.Text

/-!
The `messages` table of the log and the statements that read a page of it.
-/

namespace Repartee.Storage

open Text

/-- A row of `messages`. Columns without NOT NULL are options. -/
structure MessageRow where
  id : Int
  msgId : Option Str
  network : Str
  buffer : Str
  timestamp : Int
  tsMs : Option Int
  type : Str
  nick : Option Str
  text : Str
  translationSuffixAt : Option Int
  highlight : Option Int
  iv : Option Bytes
  refId : Option Str
  tags : Option Str
  eventKey : Option Str
  eventParams : Option Str
  eventParamsIv : Option Bytes
  deriving DecidableEq, Repr

/-- The table with its two unique keys. The columns added by later migrations are absent from a
database opened read-only before it was migrated. -/
structure MessageTable where
  rows : List MessageRow
  sequence : Int
  hasTsMs : Bool
  hasTranslationSuffix : Bool
  hasEventParams : Bool
  ids : (rows.map MessageRow.id).Nodup
  sequenced : ∀ row ∈ rows, row.id ≤ sequence
  msgIds : ∀ a ∈ rows, ∀ b ∈ rows, a.network = b.network → a.msgId = b.msgId →
    a.msgId.isSome → a = b

/-- The primitives of the log the table leaves open: AES-GCM and JSON. -/
structure LogCodec where
  Key : Type
  decrypt : Key → Str → Bytes → Except Str Str
  encrypt : Key → Str → Except Str (Str × Bytes)
  parseParams : Str → Option (List Str)
  renderParams : List Str → Str

structure StoredMessage where
  id : Int
  msgId : Str
  network : Str
  buffer : Str
  timestamp : Int
  tsMs : Int
  msgType : Str
  nick : Option Str
  text : Str
  translationSuffixAt : Option Nat
  highlight : Bool
  refId : Option Str
  tags : Option Str
  eventKey : Option Str
  eventParams : Option (List Str)
  deriving DecidableEq, Repr, Inhabited

inductive RowError where
  | nullColumn (name : Str)
  | fromSqlConversionFailure (error : Str)
  deriving DecidableEq, Repr

/-- A result row: the projection of a message and of its primary, where it has one. -/
structure SelectedRow where
  id : Int
  msgId : Option Str
  network : Str
  buffer : Str
  timestamp : Int
  tsMs : Int
  type : Str
  nick : Option Str
  text : Str
  translationSuffixAt : Option Int
  highlight : Option Int
  iv : Option Bytes
  refId : Option Str
  tags : Option Str
  eventKey : Option Str
  eventParams : Option Str
  eventParamsIv : Option Bytes

namespace MessageTable

variable (db : MessageTable)

/-- The sub-second time of a row, or its whole seconds in milliseconds. -/
def tsMsExpr (m : MessageRow) : Int :=
  if db.hasTsMs then m.tsMs.getD (m.timestamp * 1000) else m.timestamp * 1000

/-- The ON clause of the self join; NULL equals nothing. -/
def isPrimaryOf (m p : MessageRow) : Bool :=
  p.msgId.isSome && decide (p.msgId = m.refId) && decide (p.network = m.network)

def leftJoin (m : MessageRow) : List (MessageRow × Option MessageRow) :=
  match db.rows.filter (isPrimaryOf m) with
  | [] => [(m, none)]
  | primaries => primaries.map fun p => (m, some p)

def selectMessageColumns (m : MessageRow) (p : Option MessageRow) : SelectedRow where
  id := m.id
  msgId := m.msgId
  network := m.network
  buffer := m.buffer
  timestamp := m.timestamp
  tsMs := db.tsMsExpr m
  type := m.type
  nick := m.nick
  text := (p.map MessageRow.text).getD m.text
  translationSuffixAt :=
    if db.hasTranslationSuffix then (p.bind MessageRow.translationSuffixAt).or m.translationSuffixAt
    else none
  highlight := m.highlight
  iv := (p.bind MessageRow.iv).or m.iv
  refId := m.refId
  tags := m.tags
  eventKey := m.eventKey
  eventParams := if db.hasEventParams then m.eventParams else none
  eventParamsIv := if db.hasEventParams then m.eventParamsIv else none

end MessageTable

variable (C : LogCodec)

def textOf (encrypt : Bool) (cryptoKey : Option C.Key) (stored : Str) (iv : Option Bytes) :
    Except RowError Str :=
  match encrypt, cryptoKey, iv with
  | true, some key, some ivBytes =>
      (C.decrypt key stored ivBytes).mapError RowError.fromSqlConversionFailure
  | _, _, _ => .ok stored

def paramsOf (cryptoKey : Option C.Key) (json : Option Str) (iv : Option Bytes) :
    Option (List Str) :=
  json.bind fun json =>
    let plaintext := match iv with
      | some iv =>
          if iv.length = 12 then cryptoKey.bind fun key => (C.decrypt key json iv).toOption
          else none
      | none => some json
    plaintext.bind C.parseParams

def mapRow (encrypt : Bool) (cryptoKey : Option C.Key) (row : SelectedRow) :
    Except RowError StoredMessage := do
  let msgId ← row.msgId.elim (.error (.nullColumn "msg_id".toList)) .ok
  let highlight ← row.highlight.elim (.error (.nullColumn "highlight".toList)) .ok
  let text ← textOf C encrypt cryptoKey row.text row.iv
  return {
    id := row.id
    msgId
    network := row.network
    buffer := row.buffer
    timestamp := row.timestamp
    tsMs := row.tsMs
    msgType := row.type
    nick := row.nick
    text
    translationSuffixAt := row.translationSuffixAt.bind fun at_ =>
      if 0 ≤ at_ then some at_.toNat else none
    highlight := decide (highlight ≠ 0)
    refId := row.refId
    tags := row.tags
    eventKey := row.eventKey
    eventParams := paramsOf C cryptoKey row.eventParams row.eventParamsIv
  }

/-- LIMIT with the page size cast to a signed integer: a negative limit is none at all. -/
def sqlLimit {α : Type} (limit : UInt64) (rows : List α) : List α :=
  if limit.toNat < 2 ^ 63 then rows.take limit.toNat else rows

variable (db : MessageTable)

/-- The statement the paginated reads share, with its ORDER BY expression and the part of its
WHERE clause that reads the cursor. The page comes back oldest row first. -/
def selectPage (network buffer : Str) (order : MessageRow → Int) (under : MessageRow → Bool)
    (limit : UInt64) (encrypt : Bool) (cryptoKey : Option C.Key) :
    Except RowError (List StoredMessage) := do
  let joined := db.rows.flatMap db.leftJoin
  let selected := joined.filter fun j =>
    decide (j.1.network = network) && decide (j.1.buffer = buffer) && under j.1
  let ordered := selected.insertionSort fun a b =>
    order b.1 < order a.1 ∨ (order b.1 = order a.1 ∧ b.1.id ≤ a.1.id)
  let messages ← (sqlLimit limit ordered).mapM fun j =>
    mapRow C encrypt cryptoKey (db.selectMessageColumns j.1 j.2)
  return messages.reverse

/-- Strictly under the cursor in the order of the expression, ties by row id. -/
def underCursor (order : MessageRow → Int) (cursor : Int × Int) (m : MessageRow) : Bool :=
  decide (order m < cursor.1) || (decide (order m = cursor.1) && decide (m.id < cursor.2))

/-- The whole-second pages of clients that send seconds. -/
def getMessagesPaginated (network buffer : Str) (before : Option (Int × Int)) (limit : UInt64)
    (encrypt : Bool) (cryptoKey : Option C.Key) : Except RowError (List StoredMessage) :=
  selectPage C db network buffer MessageRow.timestamp
    (fun m => before.elim true fun cursor => underCursor MessageRow.timestamp cursor m)
    limit encrypt cryptoKey

/-- Only rows of the whole second of the cursor or earlier are looked at. -/
def getMessagesPaginatedSubsecond (network buffer : Str) (before : Option (Int × Int))
    (limit : UInt64) (encrypt : Bool) (cryptoKey : Option C.Key) :
    Except RowError (List StoredMessage) :=
  selectPage C db network buffer db.tsMsExpr
    (fun m => before.elim true fun cursor =>
      decide (m.timestamp ≤ cursor.1 / 1000) && underCursor db.tsMsExpr cursor m)
    limit encrypt cryptoKey

/-- A cursor under this is whole seconds. -/
def secondScaleMax : Int := 10000000000

def paginateWebHistory (network buffer : Str) (cursor : Option (Int × Option Int)) (limit : UInt64)
    (encrypt : Bool) (cryptoKey : Option C.Key) : Except RowError (List StoredMessage) :=
  match cursor with
  | some (before, beforeId) =>
      if before < secondScaleMax then
        getMessagesPaginated C db network buffer (some (before, beforeId.getD 0)) limit encrypt
          cryptoKey
      else
        getMessagesPaginatedSubsecond C db network buffer (some (before, beforeId.getD 0)) limit
          encrypt cryptoKey
  | none => getMessagesPaginatedSubsecond C db network buffer none limit encrypt cryptoKey

end Repartee.Storage
