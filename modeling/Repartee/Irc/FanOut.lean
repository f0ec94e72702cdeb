import Repartee.State.Delivery
import Repartee.Storage.Links

/-!
An event that is shown in several buffers at once, such as a change of nick: every buffer gets a
copy, and only the first copy is logged with its text.
-/

namespace Repartee.FanOut

open Text Lib Irc Storage State
open App (BufferType)

/-- A message, with what only the log reads of it. -/
structure LoggedMessage where
  message : State.Message
  translationSuffixAt : Option Nat
  eventParams : Option (List Str)
  logMsgId : Option Str
  logRefId : Option Str

/-- The settings that decide whether a line is logged. -/
structure Logging where
  enabled : Bool
  excludeTypes : List Str
  ircReplyBuffer : Bool
  suppressEventDisplay : Bool

/-- What is not of this program: the JSON of message tags, and the clock and case mapping. -/
structure LogPlatform extends State.Platform where
  tagsJson : Map Str Str → Option Str

variable (P : LogPlatform)

def networkOf (s : AppState) (connId : Str) : Str :=
  ((s.connections.get? connId).map Connection.networkKey).getD connId

section Logs

variable (s : AppState) (logging : Logging)

/-- The filters a line passes before it is handed to the log. -/
def loggable (bufferId : Str) (type : MessageType) : Bool :=
  logging.enabled && !(logging.excludeTypes.any fun t => eqNocase t type.asStr) &&
    (splitOnce '/' bufferId).isSome && !s.bufferUsesServerHistory bufferId &&
    !(s.buffers.get? bufferId).any fun buffer =>
      (logging.ircReplyBuffer || buffer.bufferType == .server || buffer.bufferType == .special) &&
        (s.connections.get? buffer.connectionId).any Connection.serverOwnsHistory

/-- The id a row is stored under; `fresh` is a new one. -/
def rowMsgId (network bufName : Str) (line : LoggedMessage) (fresh : Str) : Str :=
  match line.logMsgId, line.logRefId with
  | some explicit, _ => explicit
  | none, some _ => fresh
  | none, none => storageIdentity network bufName line.message

/-- The row of a line, by the two parts of its buffer's id. -/
def logRow (parts : Str × Str) (line : LoggedMessage) (fresh : Str) : LogRow where
  msgId := rowMsgId (networkOf s parts.1) parts.2 line fresh
  network := networkOf s parts.1
  buffer := parts.2
  timestamp := line.message.timestamp / 1000000000
  tsMs := line.message.timestampMillis
  msgType := line.message.rest.messageType
  nick := line.message.rest.nick
  text := if line.logRefId.isSome then [] else line.message.text
  translationSuffixAt :=
    if line.logRefId.isSome then none
    else line.translationSuffixAt.or (line.message.wireOrigin.bind Translate.WireOrigin.suffixAt)
  highlight := line.message.rest.highlight
  refId := line.logRefId
  tags := line.message.rest.tags.bind P.tagsJson
  eventKey := line.message.rest.eventKey
  eventParams := line.eventParams

/-- Hands a line to the log; whether the log took it. -/
def maybeLog (w : Writer) (bufferId : Str) (line : LoggedMessage) (fresh : Str) : Writer × Bool :=
  if loggable s logging bufferId line.message.rest.messageType then
    match splitOnce '/' bufferId with
    | some parts => (w.trySend (logRow P s parts line fresh), w.takes)
    | none => (w, false)
  else (w, false)

end Logs

/-- `todo` are the copies of the event at hand that have not gone out yet, `parked` the lines that
wait in their buffers behind translations. -/
structure Client where
  state : AppState
  logging : Logging
  todo : List (Str × LoggedMessage)
  parked : List (Str × LoggedMessage)
  writer : Writer

namespace Client

variable (app : Client)

/-- A line that is shown and logged now. -/
def addMessageUnshrunk (bufferId : Str) (line : LoggedMessage) (fresh : Str) : Client :=
  match app.state.metadataPrepareRow bufferId line.message with
  | none => app
  | some (prepared, _) =>
      if (app.state.buffers.get? bufferId).isNone then app
      else
        { app with
          writer := (maybeLog P app.state app.logging app.writer bufferId
            { line with message := prepared } fresh).1
          state := app.state.addMessageUnshrunk bufferId prepared none }

def addMessage (bufferId : Str) (line : LoggedMessage) (fresh : Str) : Client :=
  match app.state.metadataPrepareRow bufferId line.message with
  | none => app
  | some (prepared, _) =>
      if app.logging.suppressEventDisplay && prepared.rest.messageType == .event then app
      else if (app.state.translateQueues.get? bufferId).isSome then
        { app with parked := app.parked ++ [(bufferId, { line with message := prepared })] }
      else app.addMessageUnshrunk P bufferId { line with message := prepared } fresh

/-- A parked line that leaves its queue. When its conversation was taken over it is logged and not
shown. -/
def release (bufferId : Str) (line : LoggedMessage) (shown : Bool) (fresh : Str) : Client :=
  if shown then
    match app.state.metadataPrepareRow bufferId line.message with
    | none => app
    | some (prepared, _) =>
        if (app.state.buffers.get? bufferId).isNone then app
        else
          { app with
            writer := (maybeLog P app.state app.logging app.writer bufferId
              { line with message := prepared } fresh).1
            state := app.state.addMessageWithActivityUnshrunk P.toPlatform bufferId prepared .none
              none }
  else
    { app with
      writer := (maybeLog P app.state app.logging app.writer bufferId line fresh).1 }

end Client

def nickChangeKey : Str := "nick_change".toList
def quitKey : Str := "quit".toList

def nickChangeText (oldNick newNick : Str) : Str :=
  oldNick ++ " is now known as ".toList ++ newNick

def quitText (nick ident host reason : Str) : Str :=
  nick ++ " (".toList ++ ident ++ "@".toList ++ host ++ ") has quit (".toList ++ reason ++
    ")".toList

/-- The text of an event by its parameters. -/
def eventText (eventKey : Option Str) (params : List Str) : Str :=
  match params with
  | [oldNick, newNick] => if eventKey = some nickChangeKey then nickChangeText oldNick newNick else []
  | [nick, ident, host, reason] =>
      if eventKey = some quitKey then quitText nick ident host reason else []
  | _ => []

def eventMessage (text eventKey : Str) (timestamp : Int) (tags : Option (Map Str Str)) :
    State.Message where
  text := text
  wireOrigin := none
  rest :=
    { id := 0
      timestamp
      messageType := .event
      nick := none
      highlight := false
      eventKey := some eventKey
      tags
      logKey := none
      redactionMsgid := none }

/-- The copies of an event: the first one is logged with its text, the others refer to it. -/
def copies (targets : List Str) (message : State.Message) (params : List Str) (primaryMsgId : Str) :
    List (Str × LoggedMessage) :=
  targets.zipIdx.map fun target =>
    (target.1,
      { message
        translationSuffixAt := none
        eventParams := some params
        logMsgId := if target.2 = 0 then some primaryMsgId else none
        logRefId := if target.2 = 0 then none else some primaryMsgId })

section Events

variable (s : AppState)

def updateNick (bufferId oldNick newNick : Str) : AppState :=
  s.adjustBuffer bufferId fun buffer =>
    match buffer.users.get? (P.unicode.toLowercase oldNick) with
    | none => buffer
    | some entry =>
        { buffer with
          users := Map.insert (buffer.users.erase (P.unicode.toLowercase oldNick))
            (P.unicode.toLowercase newNick) { entry with nick := newNick } }

def removeNick (bufferId nick : Str) : AppState :=
  s.adjustBuffer bufferId fun buffer =>
    { buffer with users := buffer.users.erase (P.unicode.toLowercase nick) }

/-- The buffers of a connection that a user is in, and the conversation with them if asked for. -/
def affectedBuffers (connId nick : Str) (queries : Bool) : List Str :=
  (s.buffers.rows.filter fun e =>
    e.2.connectionId == connId &&
      ((e.2.users.get? (P.unicode.toLowercase nick)).isSome ||
        queries && e.2.bufferType == .query &&
          P.unicode.toLowercase e.2.name == P.unicode.toLowercase nick)).map Prod.fst

end Events

namespace Client

variable (app : Client)

/-- `suppressed` are the buffers in which the flood protection hides the line. The first of the
others gets the copy with the text. -/
def handleNick (connId oldNick newNick : Str) (tags : Option (Map Str Str)) (timestamp : Int)
    (suppressed : Str → Bool) (primaryMsgId : Str) : Client :=
  let affected := affectedBuffers P app.state connId oldNick true
  let message := eventMessage (nickChangeText oldNick newNick) nickChangeKey timestamp tags
  { app with
    state := affected.foldl (fun s bufferId => updateNick P s bufferId oldNick newNick) app.state
    todo := copies (affected.filter fun bufferId => !suppressed bufferId) message
      [oldNick, newNick] primaryMsgId }

def handleQuit (connId nick ident host reason : Str) (tags : Option (Map Str Str))
    (timestamp : Int) (primaryMsgId : Str) : Client :=
  let affected := affectedBuffers P app.state connId nick false
  let message := eventMessage (quitText nick ident host reason) quitKey timestamp tags
  { app with
    state := affected.foldl (fun s bufferId => removeNick P s bufferId nick) app.state
    todo := copies affected message [nick, ident, host, reason] primaryMsgId }

/-- The next copy of the event at hand goes out. -/
def next (fresh : Str) : Client :=
  match app.todo with
  | [] => app
  | (bufferId, line) :: rest =>
      let numbered := app.state.nextMessageId
      { app with state := numbered.2, todo := rest }.addMessage P bufferId
        { line with message := line.message.withId numbered.1 } fresh

end Client

/-- What happens, one step at a time. `world` is everything else the application does to its
buffers and connections; `moved` says where conversations went. The writer's steps come between the
copies of an event as well. -/
inductive FanOp where
  | world (state : AppState) (logging : Logging) (moved : Str → Str)
  | nick (connId oldNick newNick : Str) (tags : Option (Map Str Str)) (timestamp : Int)
      (suppressed : Str → Bool) (primaryMsgId : Str)
  | quit (connId nick ident host reason : Str) (tags : Option (Map Str Str)) (timestamp : Int)
      (primaryMsgId : Str)
  | next (fresh : Str)
  | say (bufferId : Str) (message : State.Message) (translationSuffixAt : Option Nat)
      (eventParams : Option (List Str)) (fresh : Str)
  | release (index : Nat) (shown : Bool) (fresh : Str)
  | receive (faults : Faults)
  | tick (faults : Faults)
  | shutdown (faults : Faults)
  | purgeMessages (cutoff : Int)
  | purgeEvents (cutoff : Int)

section Exec

variable (C : SoundCodec) (cryptoKey : Option C.Key)

/-- The application does one thing after another: while an event is going out it does nothing
else. -/
def exec (app : Client) : FanOp → Client
  | .world state logging moved =>
      if !app.todo.isEmpty then app
      else
        { app with
          state
          logging
          parked := app.parked.map fun line => (moved line.1, line.2) }
  | .nick connId oldNick newNick tags timestamp suppressed primaryMsgId =>
      if !app.todo.isEmpty then app
      else app.handleNick P connId oldNick newNick tags timestamp suppressed primaryMsgId
  | .quit connId nick ident host reason tags timestamp primaryMsgId =>
      if !app.todo.isEmpty then app
      else app.handleQuit P connId nick ident host reason tags timestamp primaryMsgId
  | .next fresh => app.next P fresh
  | .say bufferId message translationSuffixAt eventParams fresh =>
      if !app.todo.isEmpty then app
      else app.addMessage P bufferId ⟨message, translationSuffixAt, eventParams, none, none⟩ fresh
  | .release index shown fresh =>
      if !app.todo.isEmpty then app
      else
        match app.parked[index]? with
        | none => app
        | some (bufferId, line) =>
            { app with parked := app.parked.eraseIdx index }.release P bufferId line shown fresh
  | .receive faults =>
      { app with writer := app.writer.receive C.toLogCodec cryptoKey faults }
  | .tick faults => { app with writer := app.writer.tick C.toLogCodec cryptoKey faults }
  | .shutdown faults => { app with writer := app.writer.shutdown C.toLogCodec cryptoKey faults }
  | .purgeMessages cutoff =>
      { app with writer := app.writer.purge (app.writer.db.purgeOldMessages cutoff) }
  | .purgeEvents cutoff =>
      { app with writer := app.writer.purge (app.writer.db.purgeOldEvents cutoff) }

end Exec

end Repartee.FanOut
