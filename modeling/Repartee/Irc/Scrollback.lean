import Repartee.Irc.HistoryRuns

/-!
Scrolling back: the request for the messages before the oldest one on record, a server that answers
it faithfully, and what the client makes of the page.
-/

namespace Repartee.Irc

open Text Lib

section Requests

inductive RefKind where
  | msgId | timestamp
  deriving DecidableEq

/-- What a request is anchored at. An instant goes over the line in milliseconds. -/
inductive HistoryRef where
  | msgId (id : Str)
  | timestamp (ms : Int)
  deriving DecidableEq

def pickRefType (msgreftypes : List Str) : RefKind :=
  if msgreftypes.any fun t => decide (t = "msgid".toList) then .msgId else .timestamp

def clampLimit (want : Nat) (serverMax : Option Nat) : Nat := max (min want (serverMax.getD want)) 1

def chatBacklogPage : Nat := 200

/-- The buffer that is scrolled and its connection: whether it is a channel or a query, whether the
server owns the history or else a log takes it, whether a search is under way for it, and the anchor
of the oldest row stored or shown. -/
structure Scroller where
  target : Str
  conversation : Bool
  cap : Bool
  serverOwned : Bool
  logging : Bool
  searchPending : Bool
  connected : Bool
  msgreftypes : List Str
  serverMax : Option Nat
  oldestRow : Option (Int × Option Str)

namespace Scroller

variable (c : Scroller)

def limit : Nat := clampLimit chatBacklogPage c.serverMax

def key : Str := asciiLower c.target

/-- Whether a request is anchored at this message id. -/
def usesMsgid (id : Str) : Prop := pickRefType c.msgreftypes = .msgId ∧ id ≠ []

instance (id : Str) : Decidable (c.usesMsgid id) :=
  inferInstanceAs (Decidable (pickRefType c.msgreftypes = .msgId ∧ id ≠ []))

def historyRef (anchor : Int × Option Str) : HistoryRef :=
  match anchor.2 with
  | some id => if c.usesMsgid id then .msgId id else .timestamp anchor.1
  | none => .timestamp anchor.1

/-- The oldest line pulled, or before the first page the oldest row. -/
def anchor (h : HistoryState) : Option (Int × Option Str) :=
  match h.oldestFetched.get? c.key with
  | some watermark => some watermark
  | none => c.oldestRow

def requestChathistory (h : HistoryState) (now : Nat) (anchor : Int × Option Str) :
    Option (HistoryRef × HistoryState) :=
  if c.searchPending then none
  else if !h.shouldRequest c.target .before c.cap then none
  else if !c.connected then none
  else some (c.historyRef anchor, h.markInFlight now c.target .before c.limit)

/-- The request for older messages, when one is sent, and the state that awaits its answer. -/
def fetchOlder (h : HistoryState) (now : Nat) : Option (HistoryRef × HistoryState) :=
  if !c.conversation then none
  else if !c.cap || decide (c.key ∈ h.beforeExhausted) then none
  else if !c.serverOwned && !c.logging then none
  else if h.anyInFlight c.target then none
  else match c.anchor h with
    | none => none
    | some anchor => c.requestChathistory h now anchor

end Scroller

end Requests

section Server

/-- A message of a conversation: its place in the server's log, its time and its id. -/
structure HistoryLine where
  place : Nat
  ms : Int
  msgid : Option Str
  deriving DecidableEq

/-- The messages of a conversation as a server keeps them: by their times, those of one instant in
the order of its log, no two with one id. -/
structure ServerHistory where
  lines : List HistoryLine
  ordered : lines.Pairwise fun a b => a.place ≠ b.place ∧ a.ms ≤ b.ms
  named : lines.Pairwise fun a b => ∀ id, id ≠ [] → ¬(a.msgid = some id ∧ b.msgid = some id)

namespace ServerHistory

variable (server : ServerHistory)

/-- The messages in front of an anchor. -/
def olderThan : HistoryRef → List HistoryLine
  | .msgId id => server.lines.takeWhile fun line => decide (line.msgid ≠ some id)
  | .timestamp ms => server.lines.filter fun line => decide (line.ms < ms)

/-- The last of the messages in front of an anchor, as many as were asked for. -/
def page (ref : HistoryRef) (limit : Nat) : List HistoryLine :=
  (server.olderThan ref).drop ((server.olderThan ref).length - limit)

end ServerHistory

end Server

section Paging

def noteOldest (oldest : Option (Int × Option Str)) (line : HistoryLine) :
    Option (Int × Option Str) :=
  match oldest with
  | some cur => if line.ms < cur.1 then some (line.ms, line.msgid) else some cur
  | none => some (line.ms, line.msgid)

def noteNewest (newest : Option (Int × Option Str)) (line : HistoryLine) :
    Option (Int × Option Str) :=
  match newest with
  | some cur => if cur.1 < line.ms then some (line.ms, line.msgid) else some cur
  | none => some (line.ms, line.msgid)

/-- The lines of a page by their times; those of one instant stay in their order. -/
def inOrder (batch : List HistoryLine) : List HistoryLine :=
  batch.insertionSort fun a b => a.ms ≤ b.ms

def oldestOf (batch : List HistoryLine) : Option (Int × Option Str) :=
  (inOrder batch).foldl noteOldest none

def newestOf (batch : List HistoryLine) : Option (Int × Option Str) :=
  (inOrder batch).foldl noteNewest none

/-- A page, when it was asked for, and the oldest of its lines that was stored. -/
structure PageAnswer where
  now : Nat
  batch : List HistoryLine
  oldestIngestedMs : Option Int

/-- The state of the requests, and every line received so far. -/
structure Paging where
  history : HistoryState
  fetched : List HistoryLine

variable (unicode : Unicode) (c : Scroller)

/-- One request and its page. The buffer stays pinned while it is scrolled. -/
def Paging.next (s : Paging) (answer : PageAnswer) : Paging :=
  match c.fetchOlder s.history answer.now with
  | none => s
  | some (_, asked) =>
      let outcome : IngestOutcome :=
        ⟨oldestOf answer.batch, newestOf answer.batch, answer.oldestIngestedMs⟩
      let page : HistoryBatch := ⟨c.target, answer.batch.length, outcome, [], true⟩
      ⟨(processHistoryBatch unicode asked c.serverOwned page).2, s.fetched ++ answer.batch⟩

variable (server : ServerHistory)

/-- A request goes out, and its page comes back, in whatever order. -/
def Faithful (s : Paging) (answer : PageAnswer) : Prop :=
  ∃ ref asked, c.fetchOlder s.history answer.now = some (ref, asked) ∧
    answer.batch.Perm (server.page ref c.limit)

/-- The history is exhausted, or the oldest line on record moved to an earlier time. -/
def Advances (before after : HistoryState) : Prop :=
  c.key ∈ after.beforeExhausted ∨
    ∃ mark, after.oldestFetched.get? c.key = some mark ∧
      ∀ old, before.oldestFetched.get? c.key = some old → mark.1 < old.1

/-- The line is older than the first anchor and was not received, nor will it be. -/
def Skipped (first : Int × Option Str) (s : Paging) (line : HistoryLine) : Prop :=
  line ∈ server.olderThan (c.historyRef first) ∧ line ∉ s.fetched ∧
    (c.key ∈ s.history.beforeExhausted ∨
      ∀ anchor, c.anchor s.history = some anchor → line ∉ server.olderThan (c.historyRef anchor))

/-- The page is the whole rest; or it reaches an earlier time than the oldest line on record, and
when the next request can only give the time of the page's oldest line, all messages of that time
are in the page. -/
def PageFits (s : Paging) (answer : PageAnswer) : Prop :=
  ∀ anchor, c.anchor s.history = some anchor →
    (server.olderThan (c.historyRef anchor)).length < c.limit ∨
    (∀ mark, s.history.oldestFetched.get? c.key = some mark →
      ∃ line ∈ answer.batch, line.ms < mark.1) ∧
    ∀ oldest, oldestOf answer.batch = some oldest → c.historyRef oldest = .timestamp oldest.1 →
      ∀ line ∈ server.olderThan (c.historyRef anchor), line.ms = oldest.1 → line ∈ answer.batch

end Paging

end Repartee.Irc
