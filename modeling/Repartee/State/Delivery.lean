import Repartee.State.ReadState

/-!
Rows reaching a buffer: live lines appended at its end, and pages of history spliced in by time.
-/

namespace Repartee.Translate.TranslateQueue

/-- Whether a row anywhere in the queue satisfies a test. -/
def anyMessage {ρ : Type} (q : TranslateQueue ρ) (test : Message ρ → Bool) : Bool :=
  q.entries.any fun e =>
    match e.slot with
    | .pending _ payload _ => test payload.message
    | .ready message _ _ _ => test message
    | .reserved _ held => held.any fun row => test row.1

end Repartee.Translate.TranslateQueue

namespace Repartee.State

open Text Lib Translate Irc

variable (P : Platform)

namespace AppState

variable (s : AppState)

def pushMessage (limit : Nat) (message : Message) (buffer : Buffer) : Buffer :=
  enforceScrollback { buffer with messages := buffer.messages ++ [message] } limit

/-- The shared end of every live delivery. `notice` is what the registry of deletions answers for
the row. -/
def deliverMessageToBuffer (bufferId : Str) (message : Message) (level : ActivityLevel)
    (notice : Option Str) : AppState :=
  match s.metadataPrepareRow bufferId message with
  | none => s
  | some (prepared, maxLevel) =>
      let message := (notice.map (replaceBody prepared)).getD prepared
      let level := if notice.isSome then .none else min level maxLevel
      let serverOwned := s.bufferUsesServerHistory bufferId
      let recorded := s.recordReadOrigin bufferId message bufferId
      let alreadyRead := serverOwned && recorded.messageAlreadyRead P bufferId message
      let inactive := recorded.activeBufferId != some bufferId
      let trackLocalActivity := !serverOwned &&
        ((s.buffers.get? bufferId).bind fun buffer => s.connections.get? buffer.connectionId).any
          Connection.serverOwnsHistory
      let counted :=
        if serverOwned || trackLocalActivity && inactive then
          recorded.recordReadActivity P bufferId message level
        else recorded
      let raised :=
        if !alreadyRead && (serverOwned || inactive) then counted.recordActivity bufferId level
        else counted
      let pushed := raised.adjustBuffer bufferId fun buffer =>
        let trimmed := pushMessage s.scrollbackLimit message buffer
        if !serverOwned && !trackLocalActivity && !alreadyRead && inactive &&
            decide (trimmed.activity < level) then
          { trimmed with activity := level, unreadCount := trimmed.unreadCount + 1 }
        else trimmed
      if serverOwned || trackLocalActivity then pushed.refreshReadActivity bufferId else pushed

/-- A line that counts as activity. The policy is asked here and once more on delivery. -/
def addMessageWithActivityUnshrunk (bufferId : Str) (message : Message) (level : ActivityLevel)
    (notice : Option Str) : AppState :=
  match s.metadataPrepareRow bufferId message with
  | none => s
  | some (prepared, maxLevel) =>
      if (s.buffers.get? bufferId).isNone then s
      else s.deliverMessageToBuffer P bufferId prepared (min level maxLevel) notice

/-- A line that is shown and counted but never logged. -/
def deliverTransientNow (bufferId : Str) (message : Message) (level : ActivityLevel)
    (notice : Option Str) : AppState :=
  if (s.buffers.get? bufferId).isNone then s
  else s.deliverMessageToBuffer P bufferId message level notice

/-- A line that raises no activity. -/
def addMessageUnshrunk (bufferId : Str) (message : Message) (notice : Option Str) : AppState :=
  match s.metadataPrepareRow bufferId message with
  | none => s
  | some (prepared, _) =>
      let message := (notice.map (replaceBody prepared)).getD prepared
      s.adjustBuffer bufferId (pushMessage s.scrollbackLimit message)

end AppState

/-- The text a row is identified by: what the network carried. -/
def dedupText (message : Message) : Str :=
  match message.wireOrigin with
  | some origin => origin.text
  | none => message.text

def fnvOffset : UInt64 := 0xcbf29ce484222325
def fnvPrime : UInt64 := 0x00000100000001b3

def fnvByte (h : UInt64) (b : UInt8) : UInt64 := (h ^^^ b.toUInt64) * fnvPrime

/-- A field and the separator after it. -/
def fnvField (h : UInt64) (bytes : Bytes) : UInt64 := (bytes.foldl fnvByte h ^^^ 0xff) * fnvPrime

def hexLoop : Nat → Nat → Str → Str
  | 0, _, acc => acc
  | k + 1, n, acc => hexLoop k (n / 16) (hexDigit (n % 16) :: acc)

def leBytes (n : Int) : Bytes :=
  (List.range 8).map fun i => UInt8.ofNat (((n % 2 ^ 64).toNat / 256 ^ i) % 256)

/-- The stored key of a row that the server gave no id. -/
def syntheticMsgId (network buffer : Str) (tsMs : Int) (nick : Option Str) (typeStr text : Str) :
    Str :=
  let h := [utf8 network, utf8 buffer, leBytes tsMs, utf8 (nick.getD []), utf8 typeStr,
    utf8 text].foldl fnvField fnvOffset
  "synth:".toList ++ hexLoop 16 h.toNat []

def storageIdentity (network bufName : Str) (message : Message) : Str :=
  ((message.tag "msgid".toList).filter fun id => !id.isEmpty).getD
    (syntheticMsgId network bufName message.timestampMillis message.rest.nick
      message.rest.messageType.asStr (dedupText message))

/-- In nanoseconds. -/
def ownEchoReplaySkew : Nat := 60 * 1000000000

def ownEchoMatchesReplay (m candidate : Message) (ownNick : Option Str) : Bool :=
  ownNick.any fun own =>
    m.rest.tags.isNone && m.rest.nick.any (eqNocase · own) && candidate.rest.nick.any (eqNocase · own) &&
      m.rest.messageType == candidate.rest.messageType && dedupText m == dedupText candidate &&
      decide ((m.timestamp - candidate.timestamp).natAbs ≤ ownEchoReplaySkew)

/-- Whether a row is the message of a replayed candidate. -/
def historyRowMatches (m candidate : Message) (candidateKey ownNick : Option Str) : Bool :=
  if m.rest.messageType == .event && m.rest.redactionMsgid.isSome &&
      candidate.tag "msgid".toList == m.rest.redactionMsgid then true
  else
    match candidate.tag "msgid".toList, m.tag "msgid".toList with
    | some cid, some mid => cid == mid
    | _, _ =>
        match m.rest.logKey, candidateKey with
        | some stored, some key => stored == key
        | _, _ =>
            m.timestamp == candidate.timestamp && m.rest.nick == candidate.rest.nick &&
                m.rest.messageType == candidate.rest.messageType &&
                dedupText m == dedupText candidate ||
              ownEchoMatchesReplay m candidate ownNick

def awaitingOwnIdentityPlaceholder : Str := "[E2E: awaiting our own identity]".toList
def awaitingSessionPlaceholderStart : Str := "[E2E: awaiting session with ".toList

/-- A placeholder is known by its text. -/
def isE2ePlaceholder (m : Message) : Bool :=
  m.text == awaitingOwnIdentityPlaceholder || awaitingSessionPlaceholderStart.isPrefixOf m.text

/-- Before the first row that is newer, and when paging back before the first as old. -/
def insertByTime (before : Bool) (msg : Message) : List Message → List Message
  | [] => [msg]
  | m :: rest =>
      if msg.timestamp < m.timestamp ∨ before = true ∧ m.timestamp = msg.timestamp then
        msg :: m :: rest
      else m :: insertByTime before msg rest

/-- Takes out placeholders while the budget of their timestamp lasts. -/
def sweepPlaceholders : List Message → List Int → List Message
  | [], _ => []
  | m :: rest, budget =>
      if isE2ePlaceholder m = true ∧ m.timestamp ∈ budget then
        sweepPlaceholders rest (budget.erase m.timestamp)
      else m :: sweepPlaceholders rest budget

namespace AppState

variable (s : AppState)

/-- The key and name a row of the buffer is stored under. -/
def storedAs (bufferId : Str) : Option (Str × Str) :=
  (splitOnce '/' bufferId).map fun parts =>
    (((s.connections.get? parts.1).map Connection.networkKey).getD parts.1, parts.2)

def ownNickOf (bufferId : Str) : Option Str := (s.connectionNamed bufferId).map Connection.nick

def candidateKey (bufferId : Str) (msg : Message) : Option Str :=
  (s.storedAs bufferId).map fun stored => storageIdentity stored.1 stored.2 msg

/-- Whether the buffer shows a candidate, or its reorder queue holds it. -/
def alreadyPresent (bufferId : Str) (buffer : Buffer) (msg : Message) : Bool :=
  let matchesRow := fun m =>
    historyRowMatches m msg (s.candidateKey bufferId msg) (s.ownNickOf bufferId)
  buffer.messages.any matchesRow ||
    (s.translateQueues.get? bufferId).any fun queue => queue.anyMessage matchesRow

/-- The rows of a page in the order they are spliced, less those the policy of their origin hides. -/
def prepareMetadataHistoryRows (rows : List Message) (before : Bool) (origin : Str) :
    List Message :=
  let kept := rows.filterMap fun message => (s.metadataPrepareRow origin message).map Prod.fst
  if before then kept.reverse else kept

/-- Splices one row that is not there yet. -/
def spliceRow (bufferId : Str) (before : Bool) (origin : Str) (msg : Message) : AppState :=
  let (id, numbered) := s.nextMessageId
  let msg := msg.withId id
  ((numbered.recordReadOrigin bufferId msg origin).recordHistoryReadActivity P bufferId msg
    (s.ownNickOf bufferId)).adjustBuffer bufferId fun buffer =>
      { buffer with messages := insertByTime before msg buffer.messages }

/-- The loop over a page: the state after it and the timestamps spliced; `none` when the buffer is
gone. -/
def spliceRows (bufferId : Str) (before : Bool) (origin : Str) :
    AppState → List Message → Option (AppState × List Int)
  | s, [] => some (s, [])
  | s, msg :: rest =>
      match s.buffers.get? bufferId with
      | none => none
      | some buffer =>
          if s.alreadyPresent bufferId buffer msg then spliceRows bufferId before origin s rest
          else
            (spliceRows bufferId before origin (s.spliceRow P bufferId before origin msg) rest).map
              fun result => (result.1, msg.timestamp :: result.2)

/-- Splices a page of history into a buffer, then clears the placeholders it supersedes. -/
def surfaceHistoryPageFromTarget (bufferId : Str) (rows : List Message) (before : Bool)
    (origin : Str) : AppState :=
  let prepared := s.prepareMetadataHistoryRows rows before origin
  match spliceRows P bufferId before origin s prepared with
  | none => s
  | some (spliced, times) =>
      (spliced.adjustBuffer bufferId fun buffer =>
        enforceScrollback
          { buffer with messages := sweepPlaceholders buffer.messages times }
          s.scrollbackLimit).finishHistoryReadActivity bufferId

end AppState

theorem insertByTime_perm (before : Bool) (msg : Message) (rows : List Message) :
    (insertByTime before msg rows).Perm (msg :: rows) := by
  induction rows with
  | nil => exact List.Perm.refl _
  | cons m rest ih =>
      unfold insertByTime
      split
      · exact List.Perm.refl _
      · exact (ih.cons m).trans (List.Perm.swap msg m rest)

theorem sweepPlaceholders_sublist (rows : List Message) (budget : List Int) :
    (sweepPlaceholders rows budget).Sublist rows := by
  induction rows generalizing budget with
  | nil => exact List.Sublist.refl _
  | cons m rest ih =>
      unfold sweepPlaceholders
      split
      · exact (ih _).cons m
      · exact (ih _).cons_cons m

end Repartee.State
