import Repartee.Lib.Run
import Repartee.State.Buffers

/-!
The direct chats: their records, the senders and tasks of those that have been started, and the
events the tasks post under the id they were started with.
-/

namespace Repartee.Dcc

open Text Lib
open State (casefold)

inductive DccState where
  | waitingUser
  | listening
  | connecting
  | connected
  deriving DecidableEq

structure DccRecord where
  id : Str
  nick : Str
  connId : Str
  outgoing : Bool
  addr : Str
  port : Nat
  state : DccState
  passiveToken : Option Nat
  created : Nat
  started : Option Nat
  bytesTransferred : Nat
  /-- The offer the record is of. No function reads it. -/
  session : Nat
  deriving DecidableEq

/-- A task posts under the id it was started with. -/
structure ChatTask where
  session : Nat
  id : Str
  deriving DecidableEq

inductive ChatEvent where
  | connected
  | message (text : Str)
  | action (text : Str)
  | closed (reason : Option Str)
  | error (error : Str)
  deriving DecidableEq

structure Posted where
  task : ChatTask
  event : ChatEvent
  deriving DecidableEq

/-- A sender is known by the session it was made for. -/
structure DccManager where
  records : Map Str DccRecord
  chatSenders : Map Str Nat
  chatTasks : Map Str ChatTask
  timeoutSecs : Nat
  autoacceptLowports : Bool
  autochatMasks : List Str
  maxConnections : Nat

def isPending : DccState → Bool
  | .waitingUser => true
  | .listening => true
  | _ => false

section Manager

variable (unicode : Irc.Unicode)

/-- The nick in lower case, with the first number behind it that makes an unused id. -/
def generateId (records : Map Str DccRecord) (nick : Str) : Str :=
  let base := unicode.toLowercase nick
  if (records.get? base).isNone then base
  else
    let candidates := (List.range' 2 (records.rows.length + 1)).map fun n => base ++ natText n
    (candidates.find? fun candidate => (records.get? candidate).isNone).getD base

def isPeer (connId mapping nick : Str) (r : DccRecord) : Bool :=
  decide (r.connId = connId) && decide (casefold r.nick mapping = casefold nick mapping)

namespace DccManager

variable (m : DccManager)

def firstRecord (p : DccRecord → Bool) : Option DccRecord :=
  (m.records.rows.find? fun e => p e.2).map Prod.snd

def findPending (connId mapping nick : Str) : Option DccRecord :=
  m.firstRecord fun r => isPeer connId mapping nick r && !r.outgoing && r.state = .waitingUser

/-- The last of the records with the latest time. -/
def latestCreated : List DccRecord → Option DccRecord
  | [] => none
  | r :: rest => match latestCreated rest with
      | none => some r
      | some best => if best.created < r.created then some r else some best

def findLatestPending (connId : Str) : Option DccRecord :=
  latestCreated ((m.records.rows.map Prod.snd).filter fun r =>
    decide (r.connId = connId) && !r.outgoing && r.state = .waitingUser)

def closeById (id : Str) : DccManager :=
  { m with
    chatSenders := m.chatSenders.erase id
    chatTasks := m.chatTasks.erase id
    records := m.records.erase id }

def closeByNick (connId mapping nick : Str) : DccManager :=
  match m.records.rows.find? fun e => isPeer connId mapping nick e.2 with
  | none => m
  | some e => m.closeById e.1

def purgeExpired (now : Nat) : DccManager :=
  ((m.records.rows.filter fun e =>
    isPending e.2.state && decide (m.timeoutSecs < now - e.2.created)).map Prod.fst).foldl
      closeById m

/-- Moves what is filed under one id to another. -/
def moved {ν : Type} (map : Map Str ν) (oldId newId : Str) : Map Str ν :=
  match map.get? oldId with
  | none => map
  | some v => Map.insert (map.erase oldId) newId v

def rename (newNick : Str) (oldId : Str) : DccManager :=
  match m.records.get? oldId with
  | none => m
  | some record =>
      let others := m.records.erase oldId
      let newId := generateId unicode others newNick
      { m with
        records := Map.insert others newId { record with nick := newNick, id := newId }
        chatSenders := moved m.chatSenders oldId newId
        chatTasks := moved m.chatTasks oldId newId }

def peerIds (connId mapping nick : Str) : List Str :=
  (m.records.rows.filter fun e => isPeer connId mapping nick e.2).map Prod.fst

def updateNick (connId mapping oldNick newNick : Str) : DccManager :=
  (m.peerIds connId mapping oldNick).foldl (fun m oldId => m.rename unicode newNick oldId) m

/-- A mask is matched the way the regular expression made of it is. -/
def shouldAutoAccept (isMatch : Str → Str → Bool) (nick ident host : Str) (port : Nat) : Bool :=
  if port ≠ 0 ∧ port ≤ 1023 ∧ m.autoacceptLowports = false then false
  else m.autochatMasks.any fun pattern => isMatch pattern (nick ++ '!' :: ident ++ '@' :: host)

end DccManager

end Manager

/-- The manager with what runs beside it: the tasks that can still post, the channel they post
to, and what has been shown, with its buffer. Every offer is numbered. -/
structure DccApp where
  dcc : DccManager
  running : List ChatTask
  queue : List Posted
  sessions : Nat
  shown : List (Option Str × Str)

section App

variable (unicode : Irc.Unicode) (isMatch : Str → Str → Bool)

namespace DccApp

variable (s : DccApp)

/-- Files a new record under a new id. -/
def insertRecord (record : DccRecord) : DccApp :=
  { s with
    dcc := { s.dcc with records := s.dcc.records.insert record.id { record with session := s.sessions } }
    sessions := s.sessions + 1 }

/-- Spawns the task of the record, which is in the given state from now on. -/
def startTask (id : Str) (state : DccState) : DccApp :=
  match s.dcc.records.get? id with
  | none => s
  | some record =>
      let task : ChatTask := ⟨record.session, id⟩
      { s with
        dcc := { s.dcc with
          records := s.dcc.records.adjust id fun r => { r with state := state }
          chatSenders := s.dcc.chatSenders.insert id record.session
          chatTasks := s.dcc.chatTasks.insert id task }
        running := s.running ++ [task] }

/-- `listens` says whether a passive offer could be answered: a handle, a listener, a line sent. -/
def acceptDccChat (id : Str) (listens : Bool) : DccApp :=
  match (s.dcc.records.get? id).filter fun r => !r.outgoing && r.state = .waitingUser with
  | none => s
  | some record =>
      if record.port = 0 ∧ record.passiveToken.isSome then
        if listens then s.startTask id .listening else s
      else s.startTask id .connecting

/-- The listener we have open for the peer, by its id. -/
def ourListening (connId mapping nick : Str) : Option Str :=
  (s.dcc.records.rows.find? fun e =>
    isPeer connId mapping nick e.2 && e.2.state = .listening).map Prod.fst

/-- A request that crosses ours takes its place. -/
def crossed (connId mapping nick : Str) : DccApp :=
  match s.ourListening connId mapping nick with
  | none => s
  | some id => { s with dcc := s.dcc.closeById id }

def isFull : Bool := decide (s.dcc.maxConnections ≤ s.dcc.records.rows.length)

/-- An offer from the peer; it answers our own where the two cross. -/
def incomingRequest (now : Nat) (nick connId mapping addr : Str) (port : Nat)
    (passiveToken : Option Nat) (ident host : Str) (listens : Bool) : DccApp :=
  let cleared := s.crossed connId mapping nick
  let auto := (s.ourListening connId mapping nick).isSome ||
    cleared.dcc.shouldAutoAccept isMatch nick ident host port
  if cleared.isFull then cleared
  else
    let id := generateId unicode cleared.dcc.records nick
    let offered := cleared.insertRecord
      ⟨id, nick, connId, false, addr, port, .waitingUser, passiveToken, now, none, 0, 0⟩
    if auto then offered.acceptDccChat id listens else offered

/-- Our own offer, once its line is sent: with a listener, or with a token for the peer to use. -/
def initiateDccChat (now : Nat) (nick connId addr : Str) (port : Nat)
    (passiveToken : Option Nat) : DccApp :=
  if s.isFull then s
  else
    let id := generateId unicode s.dcc.records nick
    let state := if passiveToken.isSome then DccState.waitingUser else .listening
    let offered := s.insertRecord
      ⟨id, nick, connId, true, addr, port, state, passiveToken, now, none, 0, 0⟩
    if passiveToken.isSome then offered else offered.startTask id .listening

/-- The passive offer of ours a line with the token answers, by its id. -/
def answeredOffer (nick connId mapping : Str) (port : Nat) (passiveToken : Option Nat) :
    Option Str :=
  if passiveToken.isSome ∧ 0 < port then
    (s.dcc.records.rows.find? fun e => decide (e.2.passiveToken = passiveToken) &&
      e.2.outgoing && decide (e.2.connId = connId) && e.2.port = 0 && e.2.state = .waitingUser &&
        decide (casefold e.2.nick mapping = casefold nick mapping)).map Prod.fst
  else none

/-- A line about a direct chat: the peer listens for our passive offer, or makes one. -/
def dccLine (now : Nat) (nick connId mapping addr : Str) (port : Nat) (passiveToken : Option Nat)
    (ident host : Str) (listens : Bool) : DccApp :=
  match s.answeredOffer nick connId mapping port passiveToken with
  | some id =>
      { s with dcc := { s.dcc with
        records := s.dcc.records.adjust id fun r =>
          { r with addr := addr, port := port } } }.startTask id .connecting
  | none =>
      s.incomingRequest unicode isMatch now nick connId mapping addr port passiveToken ident host
        listens

/-- Whether there is an offer to or from the peer that has not been answered. -/
def alreadyPending (connId mapping nick : Str) : Bool :=
  (s.dcc.firstRecord fun r => isPeer connId mapping nick r &&
    (isPending r.state || r.state = .connecting)).isSome

/-- `/dcc chat`: accepts the offer of the nick, or of the last to make one, or makes one. The
offer is the address to make it with, the port of the listener and the token of a passive one;
without it the line could not be sent. -/
def cmdDccChat (now : Nat) (connId mapping : Str) (nick : Option Str) (passive listens : Bool)
    (offer : Option (Str × Nat × Nat)) : DccApp :=
  match nick with
  | none =>
      if passive then s
      else match s.dcc.findLatestPending connId with
        | none => s
        | some r => s.acceptDccChat r.id listens
  | some nick =>
      match if passive then none else s.dcc.findPending connId mapping nick with
      | some r => s.acceptDccChat r.id listens
      | none =>
          if s.alreadyPending connId mapping nick then s
          else match offer with
            | none => s
            | some (addr, port, token) =>
                s.initiateDccChat unicode now nick connId addr (if passive then 0 else port)
                  (if passive then some token else none)

def bufferOf (r : DccRecord) : Str := Irc.makeBufferId unicode r.connId ('=' :: r.nick)

/-- A script may keep a message from being shown. -/
def handleDccEvent (now : Nat) (suppressed : Bool) (id : Str) (event : ChatEvent) : DccApp :=
  match event with
  | .connected => match s.dcc.records.get? id with
      | none => s
      | some record =>
          { s with
            dcc := { s.dcc with records := s.dcc.records.adjust id fun r =>
              { r with state := .connected, started := some now } }
            shown := s.shown ++ [(some (bufferOf unicode record),
              "DCC CHAT connection established with ".toList ++ record.nick)] }
  | .message text => match s.dcc.records.get? id with
      | none => s
      | some record =>
          { s with
            dcc := { s.dcc with records := s.dcc.records.adjust id fun r =>
              { r with bytesTransferred := r.bytesTransferred + utf8Length text } }
            shown := s.shown ++
              if suppressed then [] else [(some (bufferOf unicode record), text)] }
  | .action text => match s.dcc.records.get? id with
      | none => s
      | some record =>
          { s with
            dcc := { s.dcc with records := s.dcc.records.adjust id fun r =>
              { r with bytesTransferred := r.bytesTransferred + utf8Length text } }
            shown := s.shown ++ [(some (bufferOf unicode record), text)] }
  | .closed reason =>
      { s with
        dcc := s.dcc.closeById id
        shown := s.shown ++ (match s.dcc.records.get? id with
          | none => []
          | some record => [(some (bufferOf unicode record), "DCC CHAT with ".toList ++
              record.nick ++ " closed".toList ++
                (match reason with
                  | none => []
                  | some text => " (".toList ++ text ++ ")".toList))]) }
  | .error error =>
      { s with
        dcc := s.dcc.closeById id
        shown := s.shown ++ [(none, "DCC error: ".toList ++ error)] }

end DccApp

inductive Op where
  | dccLine (nick connId mapping addr : Str) (port : Nat) (passiveToken : Option Nat)
      (ident host : Str) (listens : Bool)
  | cmdDccChat (connId mapping : Str) (nick : Option Str) (passive listens : Bool)
      (offer : Option (Str × Nat × Nat))
  | updateNick (connId mapping oldNick newNick : Str)
  | closeByNick (connId mapping nick : Str)
  | purgeExpired
  /-- A task that has not ended posts an event. -/
  | post (posted : Posted)
  | finish (task : ChatTask)
  /-- The oldest event is handled. -/
  | deliver (suppressed : Bool)
  /-- A hash map gives its entries in no particular order. -/
  | reorder (rows : List (Str × DccRecord))

/-- The same records in another order. -/
def reordered (records : Map Str DccRecord) (rows : List (Str × DccRecord)) : Map Str DccRecord :=
  if perm : rows.Perm records.rows then
    ⟨rows, (perm.map Prod.fst).nodup_iff.mpr records.unique⟩
  else records

/-- Times are in seconds. -/
def exec (s : DccApp) : Nat × Op → DccApp
  | (now, .dccLine nick connId mapping addr port passiveToken ident host listens) =>
      s.dccLine unicode isMatch now nick connId mapping addr port passiveToken ident host listens
  | (now, .cmdDccChat connId mapping nick passive listens offer) =>
      s.cmdDccChat unicode now connId mapping nick passive listens offer
  | (_, .updateNick connId mapping oldNick newNick) =>
      { s with dcc := s.dcc.updateNick unicode connId mapping oldNick newNick }
  | (_, .closeByNick connId mapping nick) =>
      { s with dcc := s.dcc.closeByNick connId mapping nick }
  | (now, .purgeExpired) => { s with dcc := s.dcc.purgeExpired now }
  | (_, .post posted) =>
      if posted.task ∈ s.running then { s with queue := s.queue ++ [posted] } else s
  | (_, .finish task) => { s with running := s.running.filter fun t => t ≠ task }
  | (now, .deliver suppressed) => match s.queue with
      | [] => s
      | posted :: rest =>
          { s with queue := rest }.handleDccEvent unicode now suppressed posted.task.id posted.event
  | (_, .reorder rows) => { s with dcc := { s.dcc with records := reordered s.dcc.records rows } }

end App

end Repartee.Dcc
