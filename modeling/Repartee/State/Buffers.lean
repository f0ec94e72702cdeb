import Repartee.App.State
import Repartee.Translate.Queue

/-!
The buffers and connections as message delivery sees them: the rows of a buffer, which of them a
policy hides, and the scrollback.
-/

namespace Repartee.State

open Text Lib Translate Irc
open App (BufferType)

inductive MessageType where
  | message
  | action
  | event
  | notice
  | mentionLog
  deriving DecidableEq

def MessageType.asStr : MessageType → Str
  | .message => "message".toList
  | .action => "action".toList
  | .event => "event".toList
  | .notice => "notice".toList
  | .mentionLog => "mention_log".toList

/-- What a row holds besides its text. The timestamp counts nanoseconds since the epoch; the log
key is set on rows read back from the log. -/
structure RowFields where
  id : Nat
  timestamp : Int
  messageType : MessageType
  nick : Option Str
  highlight : Bool
  eventKey : Option Str
  tags : Option (Map Str Str)
  logKey : Option Str
  redactionMsgid : Option Str

abbrev Message : Type := Translate.Message RowFields

def Message.id (m : Message) : Nat := m.rest.id

def Message.withId (m : Message) (id : Nat) : Message := { m with rest := { m.rest with id := id } }

def Message.timestamp (m : Message) : Int := m.rest.timestamp

def Message.timestampMillis (m : Message) : Int := m.timestamp / 1000000

def Message.tag (m : Message) (name : Str) : Option Str := m.rest.tags.bind (·.get? name)

/-- The levels are ordered as they are listed. -/
def rank : ActivityLevel → Nat
  | .none => 0
  | .events => 1
  | .highlight => 2
  | .activity => 3
  | .mention => 4

theorem rank_injective : Function.Injective rank := by
  intro a b same
  cases a <;> cases b <;> simp_all [rank]

instance : LinearOrder ActivityLevel := LinearOrder.lift' rank rank_injective

instance : OrderBot ActivityLevel where
  bot := .none
  bot_le a := Nat.zero_le (rank a)

def metadataScopeTag : Str := "repartee/metadata-scope".toList
def metadataTargetTag : Str := "repartee/metadata-target".toList
def metadataSourceTag : Str := "repartee/metadata-source".toList
def searchTargetTag : Str := "repartee/search-target".toList
def searchScopeTag : Str := "repartee/search-scope".toList

structure NickEntry where
  nick : Str
  account : Option Str

structure Buffer where
  connectionId : Str
  bufferType : BufferType
  name : Str
  /-- Oldest first. -/
  messages : List Message
  activity : ActivityLevel
  unreadCount : Nat
  users : Map Str NickEntry
  /-- The user has scrolled up into loaded backlog. -/
  pinBacklog : Bool
  historyExhausted : Bool

structure Connection where
  label : Str
  networkScope : Option Str
  nick : Str
  bouncerControl : Bool
  bouncerNetworkId : Option Str
  enabledCaps : List Str
  /-- What the server announced, if it did. -/
  announcedCasemapping : Option Str
  connected : Bool

def Connection.serverOwnsHistory (conn : Connection) : Bool :=
  conn.bouncerControl || conn.bouncerNetworkId.isSome

def Connection.networkKey (conn : Connection) : Str := conn.networkScope.getD conn.label

def Connection.casemapping (conn : Connection) : Str :=
  conn.announcedCasemapping.getD "rfc1459".toList

def casefold (nick mapping : Str) : Str :=
  nick.map fun c =>
    if c = '[' ∧ mapping ≠ "ascii".toList then '{'
    else if c = ']' ∧ mapping ≠ "ascii".toList then '}'
    else if c = '\\' ∧ mapping ≠ "ascii".toList then '|'
    else if c = '^' ∧ mapping = "rfc1459".toList then '~'
    else toAsciiLowercase c

structure Flags where
  muted : Bool
  blocked : Bool

/-- The unread row of a buffer: its server time, its level and its place in the order of arrival. -/
structure UnreadRow where
  time : Option Int
  level : ActivityLevel
  order : Nat

/-- `through` is the newest marker for the buffer's own target; `origins` says under which buffer
the server keeps a row that is shown here. -/
structure ReadActivity where
  through : Option Int
  origins : Map Nat Str
  unread : Map Nat UnreadRow

def ReadActivity.default : ReadActivity := ⟨none, Table.empty, Table.empty⟩

structure ReadIdentity where
  accountKnown : Bool
  ownedAccounts : List Str
  currentNick : Str
  currentSince : Option Int
  previous : List (Str × Option Int × Int)

structure AppState where
  buffers : Map Str Buffer
  connections : Map Str Connection
  readActivity : Map Str ReadActivity
  readIdentities : Map Str ReadIdentity
  activityCounter : Nat
  activityOrder : Map Str Nat
  activeBufferId : Option Str
  messageCounter : Nat
  scrollbackLimit : Nat
  translateQueues : Map Str (TranslateQueue RowFields)
  /-- Keyed by network and folded target. -/
  bouncerMetadata : Map (Str × Str) Flags
  metadataCasemappings : Map Str Str

namespace AppState

variable (s : AppState)

def nextMessageId : Nat × AppState :=
  (s.messageCounter + 1, { s with messageCounter := s.messageCounter + 1 })

/-- The rows of a buffer; none when it is closed. -/
def rowsOf (bufferId : Str) : List Message :=
  match s.buffers.get? bufferId with
  | some buffer => buffer.messages
  | none => []

def adjustBuffer (bufferId : Str) (f : Buffer → Buffer) : AppState :=
  { s with buffers := s.buffers.adjust bufferId f }

/-- The connection a buffer id names. -/
def connectionNamed (bufferId : Str) : Option Connection :=
  (splitOnce '/' bufferId).bind fun parts => s.connections.get? parts.1

def bufferUsesServerHistory (bufferId : Str) : Bool :=
  (s.connectionNamed bufferId).any Connection.serverOwnsHistory &&
    match s.buffers.get? bufferId with
    | none => (splitOnce '/' bufferId).any fun parts => parts.2.head? != some '='
    | some buffer => buffer.bufferType == .channel || buffer.bufferType == .query

def metadataFlags (connId target : Str) : Flags :=
  match s.connections.get? connId with
  | none => ⟨false, false⟩
  | some conn =>
      if conn.bouncerNetworkId.isNone || conn.bouncerControl then ⟨false, false⟩
      else if (s.metadataCasemappings.get? conn.networkKey).any (· != conn.casemapping) then
        ⟨false, false⟩
      else
        (s.bouncerMetadata.get? (conn.networkKey, casefold target conn.casemapping)).getD
          ⟨false, false⟩

def metadataPolicy (connId target : Str) (source : Option Str) : Flags :=
  let targetFlags := s.metadataFlags connId target
  let sourceFlags := (source.map (s.metadataFlags connId)).getD ⟨false, false⟩
  ⟨targetFlags.muted || sourceFlags.muted, targetFlags.blocked || sourceFlags.blocked⟩

/-- A row that was copied elsewhere is judged where it comes from. -/
def metadataRowPolicy (bufferId : Str) (message : Message) : Flags :=
  let type := message.rest.messageType
  if type = .mentionLog ∨ type = .event ∧ message.rest.eventKey = some "invite".toList then
    match message.tag metadataScopeTag with
    | none => ⟨false, false⟩
    | some scope =>
        match s.connections.rows.find? fun e => e.2.networkKey == scope with
        | none => ⟨false, false⟩
        | some (id, _) =>
            s.metadataPolicy id ((message.tag metadataTargetTag).getD [])
              (message.tag metadataSourceTag)
  else if type = .message ∨ type = .action ∨ type = .notice then
    match splitOnce '/' bufferId with
    | none => ⟨false, false⟩
    | some (connId, fallback) =>
        let target :=
          match s.buffers.get? bufferId with
          | none => fallback
          | some buffer =>
              if buffer.bufferType = .special ∧ buffer.name = "*search*".toList then
                (message.tag searchTargetTag).getD buffer.name
              else buffer.name
        s.metadataPolicy connId target message.rest.nick
  else ⟨false, false⟩

/-- Drops a blocked row; a muted one loses its highlight and raises no mention. -/
def metadataPrepareRow (bufferId : Str) (message : Message) : Option (Message × ActivityLevel) :=
  let flags := s.metadataRowPolicy bufferId message
  if flags.blocked then none
  else if flags.muted then
    some ({ message with rest := { message.rest with highlight := false } }, .activity)
  else some (message, .mention)

end AppState

/-- What is left of a row once its deletion notice replaces it. -/
def replaceBody (message : Message) (text : Str) : Message where
  text := text
  wireOrigin := none
  rest :=
    { message.rest with
      messageType := .event
      nick := none
      highlight := false
      eventKey := none
      tags := message.rest.tags.map fun tags => tags.retain fun key _ =>
        key == "msgid".toList || key == "time".toList || key == searchTargetTag ||
          key == searchScopeTag }

def pinnedBacklogCap : Nat := 10000

/-- Zero is no limit, pinned or not. -/
def effectiveScrollbackLimit (pinned : Bool) (limit : Nat) : Nat :=
  if !pinned || limit == 0 then limit else max limit pinnedBacklogCap

/-- Drops the oldest rows over the limit; they are in the log still. -/
def enforceScrollback (buffer : Buffer) (limit : Nat) : Buffer :=
  let bound := effectiveScrollbackLimit buffer.pinBacklog limit
  if 0 < bound ∧ bound < buffer.messages.length then
    { buffer with
      messages := buffer.messages.drop (buffer.messages.length - bound)
      historyExhausted := false }
  else buffer

/-- A buffer without its rows and counters. -/
structure Outline where
  connectionId : Str
  bufferType : BufferType
  name : Str
  users : Map Str NickEntry

def Buffer.outline (buffer : Buffer) : Outline :=
  ⟨buffer.connectionId, buffer.bufferType, buffer.name, buffer.users⟩

/-- What deliveries read and never change. -/
structure Setting where
  connections : Map Str Connection
  readIdentities : Map Str ReadIdentity
  activeBufferId : Option Str
  scrollbackLimit : Nat
  translateQueues : Map Str (TranslateQueue RowFields)
  bouncerMetadata : Map (Str × Str) Flags
  metadataCasemappings : Map Str Str
  outlines : List (Str × Outline)

namespace AppState

def setting (s : AppState) : Setting where
  connections := s.connections
  readIdentities := s.readIdentities
  activeBufferId := s.activeBufferId
  scrollbackLimit := s.scrollbackLimit
  translateQueues := s.translateQueues
  bouncerMetadata := s.bouncerMetadata
  metadataCasemappings := s.metadataCasemappings
  outlines := s.buffers.rows.map fun e => (e.1, e.2.outline)

variable {a b : AppState} (same : a.setting = b.setting)

theorem get?_outline (s : AppState) (bufferId : Str) :
    (s.buffers.get? bufferId).map Buffer.outline =
      (s.setting.outlines.find? fun e => decide (e.1 = bufferId)).map Prod.snd := by
  simp only [setting, List.find?_map, Map.get?, Table.find?, Option.map_map]
  rfl

include same

theorem connections_of_setting : a.connections = b.connections := congrArg Setting.connections same

theorem outline_of_setting (bufferId : Str) :
    (a.buffers.get? bufferId).map Buffer.outline = (b.buffers.get? bufferId).map Buffer.outline := by
  rw [get?_outline, get?_outline, same]

theorem connectionNamed_of_setting (bufferId : Str) :
    a.connectionNamed bufferId = b.connectionNamed bufferId := by
  simp only [connectionNamed, connections_of_setting same]

theorem uses_of_setting (bufferId : Str) :
    a.bufferUsesServerHistory bufferId = b.bufferUsesServerHistory bufferId := by
  have outline := outline_of_setting same bufferId
  unfold bufferUsesServerHistory
  rw [connectionNamed_of_setting same]
  cases inA : a.buffers.get? bufferId with
  | none =>
      cases inB : b.buffers.get? bufferId with
      | none => rfl
      | some other => simp [inA, inB] at outline
  | some buffer =>
      cases inB : b.buffers.get? bufferId with
      | none => simp [inA, inB] at outline
      | some other =>
          simp only [inA, inB, Option.map_some, Option.some.injEq] at outline
          have type : buffer.bufferType = other.bufferType := congrArg Outline.bufferType outline
          simp only [type]

omit same

/-- Changing a buffer's rows or counters leaves the setting alone. -/
theorem adjustBuffer_setting (s : AppState) (bufferId : Str) (f : Buffer → Buffer)
    (keeps : ∀ buffer, (f buffer).outline = buffer.outline) :
    (s.adjustBuffer bufferId f).setting = s.setting := by
  have rows : ((s.adjustBuffer bufferId f).buffers.rows.map fun e => (e.1, e.2.outline)) =
      s.buffers.rows.map fun e => (e.1, e.2.outline) := by
    simp only [adjustBuffer, Map.adjust, Map.mapValues, Table.modify, List.map_map]
    apply List.map_congr_left
    intro e _
    by_cases here : e.1 = bufferId
    · simp [here, keeps]
    · simp [here]
  simp only [setting] at rows ⊢
  rw [rows]
  rfl

end AppState

theorem enforceScrollback_outline (buffer : Buffer) (limit : Nat) :
    (enforceScrollback buffer limit).outline = buffer.outline := by
  simp only [enforceScrollback]
  split <;> rfl

theorem enforceScrollback_messages (buffer : Buffer) (limit : Nat) :
    ∃ excess, (enforceScrollback buffer limit).messages = buffer.messages.drop excess := by
  simp only [enforceScrollback]
  split
  · exact ⟨_, rfl⟩
  · exact ⟨0, rfl⟩

theorem enforceScrollback_unlimited (buffer : Buffer) : enforceScrollback buffer 0 = buffer := by
  have none : effectiveScrollbackLimit buffer.pinBacklog 0 = 0 := by
    simp [effectiveScrollbackLimit]
  simp [enforceScrollback, none]

end Repartee.State
