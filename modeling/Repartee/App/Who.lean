import Repartee.Lib.Run
import Repartee.Lib.Table
import Repartee.Text

/-!
The queue of channels to ask about after joining them: batches of WHO, MODE and ban list requests,
one at a time, over the entries of one connection.
-/

namespace Repartee.Who

open Repartee.Text
open Repartee.Lib

/-- The server's announcements, by name. -/
structure Isupport where
  tokens : Map Str Str

def whoxFields : Str := "%tcuihnfar".toList
def whoxFieldsIrcnet : Str := "%tcuihnfaUr".toList

namespace Isupport

def hasWhox (isupport : Isupport) : Bool := (isupport.tokens.get? "WHOX".toList).isSome

def isIrcnetLineage (isupport : Isupport) : Bool := (isupport.tokens.get? "IDCHAN".toList).isSome

def whoxFieldSelector (isupport : Isupport) : Str :=
  if isupport.isIrcnetLineage then whoxFieldsIrcnet else whoxFields

def whoxRequest (isupport : Isupport) : Option Str :=
  if isupport.hasWhox then some isupport.whoxFieldSelector else none

/-- Without an announcement many targets are taken to be fine, with one only where it lists MODE. -/
def supportsMultiTargetMode (isupport : Isupport) : Bool :=
  match isupport.tokens.get? "TARGMAX".toList with
  | none => true
  | some targmax => (targmax.splitOn ',').any fun entry =>
      (splitOnce ':' entry).any fun listed => decide (listed.1 = "MODE".toList) &&
        decide (listed.2 ≠ "1".toList) && decide (listed.2 ≠ "0".toList)

/-- The limit of the first entry for the command; an empty or zero one is none. -/
def limitIn (command : Str) : List Str → Option Nat
  | [] => none
  | entry :: rest => match splitOnce ':' entry with
      | none => limitIn command rest
      | some (cmd, limit) =>
          if eqNocase cmd command then
            match parseU64 limit with
            | .ok n => if 0 < n then some n else none
            | .error _ => none
          else limitIn command rest

def targmax (isupport : Isupport) (command : Str) : Option Nat :=
  (isupport.tokens.get? "TARGMAX".toList).bind fun targmax => limitIn command (targmax.splitOn ',')

end Isupport

structure Connection where
  isupport : Isupport
  whoTokenCounter : Nat

def nextWhoToken (counter : Nat) : Nat := counter % 999 + 1

/-- The WHOX argument, and the connection that has used up the token in it. -/
def buildWhoxFields (connection : Connection) : Option Str × Connection :=
  match connection.isupport.whoxRequest with
  | none => (none, connection)
  | some selector =>
      let token := nextWhoToken connection.whoTokenCounter
      (some (selector ++ ',' :: natText token), { connection with whoTokenCounter := token })

inductive Request where
  | who (targets : List Str) (fields : Option Str)
  | mode (targets : List Str)
  | banList (channel : Str)
  deriving DecidableEq

def chanlist (channels : List Str) : Str := ",".toList.intercalate channels

namespace Request

/-- The three requests a channel has to be named in. -/
def whoTargets : Request → List Str
  | who targets _ => targets
  | _ => []

def modeTargets : Request → List Str
  | mode targets => targets
  | _ => []

def banListTargets : Request → List Str
  | banList channel => [channel]
  | _ => []

def command : Request → Str
  | who _ _ => "WHO".toList
  | mode _ => "MODE".toList
  | banList _ => "MODE".toList

def targets : Request → List Str
  | who targets _ => targets
  | mode targets => targets
  | banList channel => [channel]

def arguments : Request → Str
  | who targets none => chanlist targets
  | who targets (some fields) => chanlist targets ++ ' ' :: fields
  | mode targets => chanlist targets
  | banList channel => channel ++ " b".toList

/-- The line on the wire, as the overheads below count its bytes. -/
def line (request : Request) : Str :=
  request.command ++ ' ' :: request.arguments ++ "\r\n".toList

end Request

def maxWhoTargets : Nat := 5

def staleAfter : Nat := 30 * 1000000000

/-- A request with what the server had announced when it went out. -/
structure Sent where
  announced : Option Isupport
  request : Request

/-- What the app holds for one connection, and what it has sent there. Times are in nanoseconds.
`batches` and `done` count the batches sent and those answered or given up. -/
structure ChannelQueries where
  queue : List Str
  inFlight : Option (List Str)
  sentAt : Option Nat
  connection : Option Connection
  /-- The connection has a handle to send on. -/
  handle : Bool
  sent : List Sent
  batches : Nat
  done : Nat

/-- Takes channels off the queue while the batch has room for them; the first one always goes. -/
def cutBatch (budget : Nat) (batch : List Str) (len : Nat) : List Str → List Str × List Str
  | [] => (batch, [])
  | ch :: queue =>
      let add := if batch = [] then utf8Length ch else 1 + utf8Length ch
      if maxWhoTargets ≤ batch.length then (batch, ch :: queue)
      else if budget < len + add ∧ batch ≠ [] then (batch, ch :: queue)
      else cutBatch budget (batch ++ [ch]) (len + add) queue

/-- The requests for a batch. -/
def requests (batch : List Str) (fields : Option Str) (multiMode : Bool) : List Request :=
  .who batch fields ::
    ((if multiMode then [.mode batch] else batch.map fun ch => .mode [ch]) ++ batch.map .banList)

namespace ChannelQueries

def new (connection : Option Connection) : ChannelQueries :=
  ⟨[], none, none, connection, true, [], 0, 0⟩

def whoxSelector (s : ChannelQueries) : Option Str := s.connection.bind (·.isupport.whoxRequest)

def whoOverhead (s : ChannelQueries) : Nat :=
  match s.whoxSelector with
  | none => 6
  | some selector => utf8Length selector + 11

/-- Both commands of a batch have to fit. -/
def budget (s : ChannelQueries) : Nat := min (512 - s.whoOverhead) (512 - 7)

def multiMode (s : ChannelQueries) : Bool :=
  s.connection.any fun connection => connection.isupport.supportsMultiTargetMode

/-- Drops the batch in flight, if there is one. -/
def clearInFlight (s : ChannelQueries) : ChannelQueries :=
  { s with
    inFlight := none
    done := s.done + if s.inFlight.isSome then 1 else 0 }

def sendChannelQueryBatch (s : ChannelQueries) (now : Nat) : ChannelQueries :=
  if s.queue = [] then { s.clearInFlight with sentAt := none }
  else
    let (batch, queue) := cutBatch s.budget [] 0 s.queue
    if batch = [] ∨ s.handle = false then { s.clearInFlight with queue := queue }
    else
      let built := s.connection.map buildWhoxFields
      { s with
        queue := queue
        inFlight := some batch.dedup
        sentAt := some now
        connection := built.map Prod.snd
        sent := s.sent ++ (requests batch (built.bind Prod.fst) s.multiMode).map
          (.mk (s.connection.map (·.isupport)))
        batches := s.batches + 1 }

def queueChannelQuery (s : ChannelQueries) (channel : Str) (now : Nat) : ChannelQueries :=
  let queued := { s with queue := s.queue ++ [channel] }
  if s.inFlight.isNone then queued.sendChannelQueryBatch now else queued

def removeCaseInsensitive (set : List Str) (value : Str) : List Str :=
  if value ∈ set then set.erase value
  else match set.find? fun entry => eqNocase entry value with
    | none => set
    | some existing => set.erase existing

/-- What an end of WHO for the target leaves of a batch. -/
def answered (inFlight : List Str) (target : Str) : List Str :=
  let rest := removeCaseInsensitive inFlight target
  if ',' ∈ target then (target.splitOn ',').foldl removeCaseInsensitive rest else rest

def handleWhoBatchComplete (s : ChannelQueries) (target : Str) (now : Nat) : ChannelQueries :=
  match s.inFlight with
  | none => s
  | some inFlight =>
      if answered inFlight target = [] then s.clearInFlight.sendChannelQueryBatch now
      else { s with inFlight := some (answered inFlight target) }

def overdue (s : ChannelQueries) (now : Nat) : Bool :=
  s.sentAt.any fun sentAt => decide (staleAfter < now - sentAt)

def checkStaleWhoBatches (s : ChannelQueries) (now : Nat) : ChannelQueries :=
  if s.overdue now then
    { s.clearInFlight with sentAt := none }.sendChannelQueryBatch now
  else s

end ChannelQueries

inductive Op where
  | queueChannelQuery (channel : Str)
  | handleWhoBatchComplete (target : Str)
  | checkStaleWhoBatches
  /-- The server announces something, a WHO by hand uses up a token, or the entry comes or goes. -/
  | connection (connection : Option Connection)
  /-- A hash set gives its entries in no particular order. -/
  | reorder (inFlight : List Str)

def exec (s : ChannelQueries) : Nat × Op → ChannelQueries
  | (now, .queueChannelQuery channel) => s.queueChannelQuery channel now
  | (now, .handleWhoBatchComplete target) => s.handleWhoBatchComplete target now
  | (now, .checkStaleWhoBatches) => s.checkStaleWhoBatches now
  | (_, .connection connection) => { s with connection := connection }
  | (_, .reorder inFlight) =>
      if s.inFlight.any fun set => inFlight.isPerm set then { s with inFlight := some inFlight }
      else s

def run (connection : Option Connection) (ops : List (Nat × Op)) : ChannelQueries :=
  runFrom exec (.new connection) ops

end Repartee.Who
