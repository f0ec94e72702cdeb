import Repartee.Irc.FanOut
import Repartee.Lib.Run

/-!
Over a run the copies of an event that are stored find the copy with the text, as long as no step
logs a copy whose text is not in the log or gives the text up.
-/

namespace Repartee.FanOut

open Text Lib Irc Storage State Linked

variable {P : LogPlatform} {C : SoundCodec} {cryptoKey : Option C.Key}

/-- The rows of the log, stored or on their way, in the order they came. -/
def Client.log (C : SoundCodec) (cryptoKey : Option C.Key) (app : Client) : List LogEntry :=
  app.writer.stored C cryptoKey ++ app.writer.waiting.map LogRow.entry

/-- If a line is a copy that refers to the text of its event, the log has the text. -/
def Referable (P : LogPlatform) (C : SoundCodec) (cryptoKey : Option C.Key) (app : Client)
    (bufferId : Str) (line : LoggedMessage) : Prop :=
  ∀ parts, splitOnce '/' bufferId = some parts →
    Resolved LogEntry.key LogEntry.ref (LogEntry.Carries eventText) (app.log C cryptoKey)
      (logRow P app.state parts line []).entry

/-- The log takes a line of a type in a buffer, if it is handed over now. -/
def accepts (app : Client) (bufferId : Str) (line : LoggedMessage) : Bool :=
  loggable app.state app.logging bufferId line.message.rest.messageType && app.writer.takes

/-- A line that goes out now reaches the log, not only its buffer's queue of translations. -/
def passes (app : Client) (bufferId : Str) (line : LoggedMessage) : Bool :=
  (app.state.metadataPrepareRow bufferId line.message).isSome &&
    !(app.logging.suppressEventDisplay && line.message.rest.messageType == .event) &&
    (app.state.translateQueues.get? bufferId).isNone && (app.state.buffers.get? bufferId).isSome &&
    accepts app bufferId line

/-- A parked line that leaves its queue reaches the log. -/
def surfaces (app : Client) (bufferId : Str) (line : LoggedMessage) (shown : Bool) : Bool :=
  (!shown || (app.state.metadataPrepareRow bufferId line.message).isSome &&
    (app.state.buffers.get? bufferId).isSome) && accepts app bufferId line

/-- No step logs a copy whose text the log does not have, or gives up a text that is referred to. -/
def Allowed (P : LogPlatform) (C : SoundCodec) (cryptoKey : Option C.Key) (app : Client) :
    FanOp → Prop
  | .next _ =>
      match app.todo with
      | [] => True
      | (bufferId, line) :: _ =>
          passes app bufferId line = true → Referable P C cryptoKey app bufferId line
  | .release index shown _ =>
      match app.parked[index]? with
      | none => True
      | some (bufferId, line) =>
          surfaces app bufferId line shown = true → Referable P C cryptoKey app bufferId line
  | .receive faults =>
      app.writer.stopped = false → Writer.ReceiveSafe C cryptoKey faults app.writer
  | .tick faults => app.writer.stopped = false → Writer.FlushSafe C cryptoKey faults app.writer
  | .shutdown faults =>
      app.writer.stopped = false → Writer.ShutdownSafe C cryptoKey faults app.writer
  | .purgeMessages cutoff =>
      Writer.PurgeSafe (fun row => decide (row.timestamp < cutoff)) app.writer
  | .purgeEvents cutoff =>
      Writer.PurgeSafe (fun row => decide (row.type = "event".toList) &&
        decide (row.timestamp < cutoff)) app.writer
  | .world _ _ _ | .nick _ _ _ _ _ _ _ | .quit _ _ _ _ _ _ _ _ | .say _ _ _ _ _ => True

section Steps

variable {app : Client}

/-- Rows that refer to the same text are resolved alike. -/
theorem Resolved.of_same {ahead : List LogEntry} {r r' : LogEntry}
    (resolved : Resolved LogEntry.key LogEntry.ref (LogEntry.Carries eventText) ahead r)
    (ref : r'.ref = r.ref) (params : r'.params = r.params) (eventKey : r'.eventKey = r.eventKey)
    (timestamp : r'.timestamp = r.timestamp) (type : r'.type = r.type) :
    Resolved LogEntry.key LogEntry.ref (LogEntry.Carries eventText) ahead r' := by
  intro k refers
  rw [ref] at refers
  rcases resolved k refers with ⟨p, found, carried⟩
  apply Exists.intro p
  apply And.intro found
  constructor
  · exact carried.primary
  · rw [params, eventKey]
    exact carried.text
  · rw [timestamp]
    exact carried.timestamp
  · rw [type]
    exact carried.type

/-- Two lines that the log reads alike but for their id. -/
structure SameLine (a b : LoggedMessage) : Prop where
  logRefId : a.logRefId = b.logRefId
  params : a.eventParams = b.eventParams
  eventKey : a.message.rest.eventKey = b.message.rest.eventKey
  timestamp : a.message.timestamp = b.message.timestamp
  type : a.message.rest.messageType = b.message.rest.messageType

/-- Whether a line may refer to its text depends on the log and the networks only. -/
theorem Referable.of_same {app' : Client} {bufferId : Str} {line line' : LoggedMessage}
    (referable : Referable P C cryptoKey app bufferId line) (same : SameLine line' line)
    (connections : app'.state.connections = app.state.connections)
    (writer : app'.writer = app.writer) : Referable P C cryptoKey app' bufferId line' := by
  intro parts splits
  rw [Client.log, writer]
  apply Resolved.of_same (referable parts splits)
  · simp only [LogEntry.ref, LogRow.entry, logRow, same.logRefId, networkOf, connections]
  · exact same.params
  · exact same.eventKey
  · simp only [LogRow.entry, logRow, same.timestamp]
  · simp only [LogRow.entry, logRow, same.type]

theorem maybeLog_links (bufferId : Str) (line line' : LoggedMessage) (fresh : Str)
    (same : SameLine line' line)
    (links : Writer.Links C cryptoKey eventText app.writer)
    (referable : accepts app bufferId line = true → Referable P C cryptoKey app bufferId line) :
    Writer.Links C cryptoKey eventText
      (maybeLog P app.state app.logging app.writer bufferId line' fresh).1 := by
  unfold maybeLog
  split
  · next open_ =>
      cases splits : splitOnce '/' bufferId with
      | none => exact links
      | some parts =>
          apply links.trySend
          intro takes
          have accepted : accepts app bufferId line = true := by
            rw [same.type] at open_
            simp only [accepts, open_, takes, Bool.and_self]
          have moved : Referable P C cryptoKey app bufferId line' :=
            (referable accepted).of_same same rfl rfl
          exact Resolved.of_same (moved parts splits) rfl rfl rfl rfl rfl
  · exact links

theorem prepared_same {s : AppState} {bufferId : Str} {line : LoggedMessage}
    {prepared : State.Message} {level : Translate.ActivityLevel}
    (prepare : s.metadataPrepareRow bufferId line.message = some (prepared, level)) :
    SameLine { line with message := prepared } line := by
  unfold AppState.metadataPrepareRow at prepare
  dsimp only at prepare
  split at prepare
  · cases prepare
  split at prepare
  · cases prepare
    exact ⟨rfl, rfl, rfl, rfl, rfl⟩
  · cases prepare
    exact ⟨rfl, rfl, rfl, rfl, rfl⟩

theorem SameLine.trans {a b c : LoggedMessage} (first : SameLine a b) (second : SameLine b c) :
    SameLine a c :=
  ⟨first.logRefId.trans second.logRefId, first.params.trans second.params,
    first.eventKey.trans second.eventKey, first.timestamp.trans second.timestamp,
    first.type.trans second.type⟩

theorem SameLine.refl (a : LoggedMessage) : SameLine a a := ⟨rfl, rfl, rfl, rfl, rfl⟩

theorem addMessageUnshrunk_links (bufferId : Str) (line line' : LoggedMessage) (fresh : Str)
    (same : SameLine line' line) (links : Writer.Links C cryptoKey eventText app.writer)
    (referable : (app.state.buffers.get? bufferId).isSome = true → accepts app bufferId line = true →
      Referable P C cryptoKey app bufferId line) :
    Writer.Links C cryptoKey eventText (app.addMessageUnshrunk P bufferId line' fresh).writer := by
  unfold Client.addMessageUnshrunk
  split
  · exact links
  next prepared _ prepare =>
    split
    · exact links
    next open_ =>
      apply maybeLog_links bufferId line _ fresh ((prepared_same prepare).trans same) links
      apply referable
      simpa [Option.isSome_iff_ne_none] using open_

theorem addMessage_links (bufferId : Str) (line : LoggedMessage) (fresh : Str)
    (links : Writer.Links C cryptoKey eventText app.writer)
    (referable : passes app bufferId line = true → Referable P C cryptoKey app bufferId line) :
    Writer.Links C cryptoKey eventText (app.addMessage P bufferId line fresh).writer := by
  unfold Client.addMessage
  split
  · exact links
  next prepared _ prepare =>
    have same := prepared_same prepare
    split
    · exact links
    next displayed =>
      split
      · exact links
      next free =>
        apply addMessageUnshrunk_links bufferId line _ fresh same links
        intro open_ accepted
        apply referable
        rw [same.type] at displayed
        simp only [passes, prepare, open_, accepted, Option.isSome_some, Bool.true_and,
          Bool.and_true, Bool.and_eq_true, Option.isNone_iff_eq_none, Bool.not_eq_true']
        exact ⟨by simpa using displayed, by simpa using free⟩

theorem prepareRow_isSome (s : AppState) (bufferId : Str) (message : State.Message) :
    (s.metadataPrepareRow bufferId message).isSome = !(s.metadataRowPolicy bufferId message).blocked := by
  unfold AppState.metadataPrepareRow
  dsimp only
  split
  · next blocked => simp [blocked]
  · next open_ => split <;> simp [open_]

/-- The number of a line is nothing that decides whether it is logged. -/
theorem passes_numbered (rest : List (Str × LoggedMessage)) (bufferId : Str) (line : LoggedMessage) :
    passes { app with state := app.state.nextMessageId.2, todo := rest } bufferId
        { line with message := line.message.withId app.state.nextMessageId.1 } =
      passes app bufferId line := by
  unfold passes
  rw [prepareRow_isSome, prepareRow_isSome]
  rfl

theorem next_links (fresh : Str) (links : Writer.Links C cryptoKey eventText app.writer)
    (allowed : Allowed P C cryptoKey app (.next fresh)) :
    Writer.Links C cryptoKey eventText (app.next P fresh).writer := by
  unfold Client.next
  split
  · exact links
  · next bufferId line rest copies =>
      simp only [Allowed, copies] at allowed
      have numbered : Writer.Links C cryptoKey eventText
          ({ app with state := app.state.nextMessageId.2, todo := rest } : Client).writer := links
      apply addMessage_links bufferId _ fresh numbered
      intro goes
      rw [passes_numbered] at goes
      exact (allowed goes).of_same ⟨rfl, rfl, rfl, rfl, rfl⟩ rfl rfl

theorem release_links (bufferId : Str) (line : LoggedMessage) (shown : Bool) (fresh : Str)
    (links : Writer.Links C cryptoKey eventText app.writer)
    (referable : surfaces app bufferId line shown = true →
      Referable P C cryptoKey app bufferId line) :
    Writer.Links C cryptoKey eventText (app.release P bufferId line shown fresh).writer := by
  unfold Client.release
  split
  · next shows =>
      split
      · exact links
      next prepared _ prepare =>
        split
        · exact links
        next open_ =>
          apply maybeLog_links bufferId line _ fresh (prepared_same prepare) links
          intro accepted
          apply referable
          have there : (app.state.buffers.get? bufferId).isSome = true := by
            simpa [Option.isSome_iff_ne_none] using open_
          simp [surfaces, prepare, there, accepted]
  · next hidden =>
      apply maybeLog_links bufferId line line fresh (SameLine.refl line) links
      intro accepted
      apply referable
      simp [surfaces, hidden, accepted]

/-- A line that refers to no other needs nothing of the log. -/
theorem referable_of_none (app : Client) (bufferId : Str) (line : LoggedMessage)
    (plain : line.logRefId = none) : Referable P C cryptoKey app bufferId line := by
  intro parts _ k refers
  simp [LogEntry.ref, LogRow.entry, logRow, plain] at refers

theorem stopped_receive (faults : Faults) (w : Writer) (stopped : w.stopped = true) :
    w.receive C.toLogCodec cryptoKey faults = w := by
  unfold Writer.receive
  split
  · rfl
  · rw [if_pos stopped]

/-- One step keeps the stored copies of every event linked. -/
theorem exec_links (op : FanOp) (links : Writer.Links C cryptoKey eventText app.writer)
    (allowed : Allowed P C cryptoKey app op) :
    Writer.Links C cryptoKey eventText (exec P C cryptoKey app op).writer := by
  cases op with
  | world state logging moved =>
      simp only [exec]
      split <;> exact links
  | nick connId oldNick newNick tags timestamp suppressed primaryMsgId =>
      simp only [exec]
      split <;> exact links
  | quit connId nick ident host reason tags timestamp primaryMsgId =>
      simp only [exec]
      split <;> exact links
  | next fresh => exact next_links fresh links allowed
  | say bufferId message translationSuffixAt eventParams fresh =>
      simp only [exec]
      split
      · exact links
      · exact addMessage_links bufferId _ fresh links fun _ => referable_of_none app bufferId _ rfl
  | release index shown fresh =>
      simp only [exec]
      split
      · exact links
      split
      · exact links
      next bufferId line parked =>
        simp only [Allowed, parked] at allowed
        exact release_links bufferId line shown fresh links allowed
  | receive faults =>
      cases stopped : app.writer.stopped with
      | true =>
          simp only [exec, stopped_receive faults app.writer stopped]
          exact links
      | false => exact links.receive faults (allowed stopped)
  | tick faults =>
      cases stopped : app.writer.stopped with
      | true =>
          simp only [exec, Writer.tick, stopped, if_true]
          exact links
      | false => exact links.tick faults (allowed stopped)
  | shutdown faults =>
      cases stopped : app.writer.stopped with
      | true =>
          simp only [exec, Writer.shutdown, stopped, if_true]
          exact links
      | false => exact links.shutdown faults (allowed stopped)
  | purgeMessages cutoff =>
      apply links.purge
      · intro p r timestamp _
        rw [timestamp]
      · exact allowed
  | purgeEvents cutoff =>
      apply links.purge
      · intro p r timestamp type
        rw [timestamp, type]
      · exact allowed

end Steps

/-- An application whose log is still empty. -/
def Client.start (state : AppState) (logging : Logging) : Client :=
  ⟨state, logging, [], [], Writer.start⟩

section Sample

def jsonChar (c : Char) : Str := if c = '"' ∨ c = '\\' then ['\\', c] else [c]

def jsonArray : List Str → Str
  | [] => "[]".toList
  | first :: rest =>
      '[' :: '"' :: first.flatMap jsonChar ++
        (rest.flatMap fun s => '"' :: ',' :: '"' :: s.flatMap jsonChar) ++ ['"', ']']

/-- Reads the strings of an array, inside the one read so far. -/
def insideJson : Str → Str → Option (List Str)
  | '\\' :: c :: rest, read => insideJson rest (read ++ [c])
  | '"' :: ',' :: '"' :: rest, read => (insideJson rest []).map (read :: ·)
  | ['"', ']'], read => some [read]
  | c :: rest, read => insideJson rest (read ++ [c])
  | [], _ => none

def readJson : Str → Option (List Str)
  | ['[', ']'] => some []
  | '[' :: '"' :: rest => insideJson rest []
  | _ => none

theorem insideJson_chars (s rest read : Str) :
    insideJson (s.flatMap jsonChar ++ rest) read = insideJson rest (read ++ s) := by
  induction s generalizing read with
  | nil => simp
  | cons c s ih =>
      rw [List.flatMap_cons, List.append_assoc, jsonChar]
      split
      · rw [List.cons_append, List.cons_append, List.nil_append, insideJson, ih, List.append_assoc,
          List.singleton_append]
      · next plain =>
          rw [not_or] at plain
          rw [List.singleton_append, insideJson, ih, List.append_assoc, List.singleton_append]
          all_goals simp [plain.1, plain.2]

theorem readJson_jsonArray (params : List Str) : readJson (jsonArray params) = some params := by
  cases params with
  | nil => decide
  | cons first rest =>
      have inside : ∀ (rest : List Str) (first : Str), insideJson (first.flatMap jsonChar ++
          ((rest.flatMap fun s => '"' :: ',' :: '"' :: s.flatMap jsonChar) ++ ['"', ']'])) [] =
            some (first :: rest) := by
        intro rest
        induction rest with
        | nil =>
            intro first
            rw [insideJson_chars]
            rfl
        | cons next rest ih =>
            intro first
            rw [insideJson_chars, List.flatMap_cons]
            simp only [List.cons_append, List.append_assoc, List.nil_append]
            rw [insideJson, ih]
            rfl
      simp only [jsonArray, List.cons_append, List.append_assoc, readJson]
      exact inside rest first

/-- A log kept in the clear. -/
def clearCodec : SoundCodec where
  Key := Unit
  decrypt _ stored _ := .ok stored
  encrypt _ text := .ok (text, List.replicate 12 0)
  parseParams := readJson
  renderParams := jsonArray
  decrypt_encrypt _ text _ _ done := by
    cases done
    rfl
  iv_length _ _ _ _ done := by
    cases done
    rfl
  parse_render := readJson_jsonArray

def plainLog : LogPlatform :=
  { State.Platform.mk (fun _ => none) Unicode.ascii with tagsJson := fun _ => none }

def sharedChannel (name : String) : Buffer :=
  ⟨"c".toList, .channel, name.toList, [], .none, 0,
    Map.insert Table.empty "bob".toList ⟨"bob".toList, none⟩, false, false⟩

def twoChannels : AppState where
  buffers := Map.insert (Map.insert Table.empty "c/#a".toList (sharedChannel "#a")) "c/#b".toList
    (sharedChannel "#b")
  connections := Map.insert Table.empty "c".toList
    ⟨"net".toList, none, "me".toList, false, none, [], none, true⟩
  readActivity := Table.empty
  readIdentities := Table.empty
  activityCounter := 0
  activityOrder := Table.empty
  activeBufferId := none
  messageCounter := 0
  scrollbackLimit := 1
  translateQueues := Table.empty
  bouncerMetadata := Table.empty
  metadataCasemappings := Table.empty

def allLogged : Logging := ⟨true, [], false, false⟩

def bobQuits : FanOp :=
  .quit "c".toList "bob".toList "b".toList "h".toList "bye".toList none 0 "u1".toList

def chat : State.Message where
  text := "hi".toList
  wireOrigin := none
  rest :=
    { id := 0
      timestamp := 0
      messageType := .message
      nick := some "bob".toList
      highlight := false
      eventKey := none
      tags := some (Map.insert Table.empty "msgid".toList "m".toList)
      logKey := none
      redactionMsgid := none }

def chatter : FanOp := .say "c/#a".toList chat none none []

def chatRow : LogRow :=
  logRow plainLog twoChannels ("c".toList, "#a".toList) ⟨chat, none, none, none, none⟩ []

/-- The channel has been talked in, and a list of rows waits for the writer. -/
def talking (channel : List LogRow) : Client :=
  { exec plainLog clearCodec none (Client.start twoChannels allLogged) chatter with
    writer := { Writer.start with channel := channel } }

theorem trySend_room (w : Writer) (row : LogRow) (running : w.stopped = false)
    (room : w.channel.length < channelCapacity) :
    w.trySend row = { w with channel := w.channel ++ [row] } := by
  simp [Writer.trySend, Writer.takes, running, room]

theorem trySend_full (w : Writer) (row : LogRow) (full : w.channel.length = channelCapacity) :
    w.trySend row = w := by
  simp [Writer.trySend, Writer.takes, full]

/-- With one row of scrollback the same line again changes nothing but the queue of the log. -/
theorem exec_chatter (channel : List LogRow) :
    exec plainLog clearCodec none (talking channel) chatter =
      { talking channel with writer := (talking channel).writer.trySend chatRow } := rfl

theorem chatter_fills (n : Nat) (room : n < channelCapacity) :
    runFrom (exec plainLog clearCodec none) (Client.start twoChannels allLogged)
      (List.replicate (n + 1) chatter) = talking (List.replicate (n + 1) chatRow) := by
  induction n with
  | zero => rfl
  | succ n ih =>
      rw [List.replicate_succ', runFrom_append, ih (by omega), runFrom_cons, runFrom_nil,
        exec_chatter]
      have sent := trySend_room (talking (List.replicate (n + 1) chatRow)).writer chatRow rfl
        (by simpa [talking] using room)
      rw [sent]
      unfold talking
      rw [List.replicate_succ' (n := n + 1)]

/-- The first copy of the quit, and the second. -/
def quitCopy (bufName : String) (logMsgId logRefId : Option Str) (fresh : String) : LogRow :=
  logRow plainLog twoChannels ("c".toList, bufName.toList)
    ⟨eventMessage (quitText "bob".toList "b".toList "h".toList "bye".toList) quitKey 0 none, none,
      some ["bob".toList, "b".toList, "h".toList, "bye".toList], logMsgId, logRefId⟩ fresh.toList

def textCopy : LogRow := quitCopy "#a" (some "u1".toList) none ""
def refCopy : LogRow := quitCopy "#b" none (some "u1".toList) "f"

theorem quit_writer (channel : List LogRow) :
    (runFrom (exec plainLog clearCodec none) (talking channel)
      [bobQuits, .next [], .receive .none, .next "f".toList, .shutdown .none]).writer =
      (((((talking channel).writer.trySend textCopy).receive clearCodec.toLogCodec none
        .none).trySend refCopy).shutdown clearCodec.toLogCodec none .none) := rfl

def storedChat : MessageTable :=
  insertRow clearCodec.toLogCodec none .none Writer.start.db chatRow

theorem chatter_stored (n : Nat) :
    (List.replicate (n + 1) chatRow).foldl (insertRow clearCodec.toLogCodec none .none)
      Writer.start.db = storedChat := by
  have again : insertRow clearCodec.toLogCodec none .none storedChat chatRow = storedChat := rfl
  have rest : ∀ n, (List.replicate n chatRow).foldl (insertRow clearCodec.toLogCodec none .none)
      storedChat = storedChat := by
    intro n
    induction n with
    | zero => rfl
    | succ n ih => rw [List.replicate_succ, List.foldl_cons, again, ih]
  rw [List.replicate_succ, List.foldl_cons]
  exact rest n

/-- A row that the writer receives while few are pending only moves on. -/
theorem receive_few (w : Writer) (row : LogRow) (rest : List LogRow)
    (channel : w.channel = row :: rest) (running : w.stopped = false) (idle : w.pending = []) :
    w.receive clearCodec.toLogCodec none .none = { w with channel := rest, pending := [row] } := by
  have short : capPendingRows [row] = [row] := if_pos (Nat.le_of_ble_eq_true rfl)
  simp [Writer.receive, channel, running, Writer.push, idle, short, batchSize]

theorem flushPending_db (w : Writer) :
    (w.flushPending clearCodec.toLogCodec none .none).db =
      w.pending.foldl (insertRow clearCodec.toLogCodec none .none) w.db := by
  unfold Writer.flushPending
  split
  · next empty =>
      rw [List.isEmpty_iff.mp empty]
      rfl
  · rfl

/-- The last flush stores what is left of the rows once the oldest are cut off. -/
theorem shutdown_db (w : Writer) (some_ : w.channel ≠ []) (running : w.stopped = false) :
    (w.shutdown clearCodec.toLogCodec none .none).db =
      (capPendingRows (w.pending ++ w.channel)).foldl (insertRow clearCodec.toLogCodec none .none)
        w.db := by
  have pending := Writer.pushes_pending w.channel { w with channel := [] } some_
  have same := Writer.pushes_rest w.channel { w with channel := [] }
  have flushed := flushPending_db (w.channel.foldl Writer.push { w with channel := [] })
  rw [pending, same.1] at flushed
  unfold Writer.shutdown
  rw [if_neg (by simp [running])]
  exact flushed

/-- Some lines are said, then a user of both channels quits; between the two copies of the quit the
writer receives one row. -/
def afterQuit (lines : Nat) : MessageTable :=
  (runFrom (exec plainLog clearCodec none) (Client.start twoChannels allLogged)
    (List.replicate lines chatter ++
      [bobQuits, .next [], .receive .none, .next "f".toList, .shutdown .none])).writer.db

theorem full_queue_db (n : Nat) (size : n + 1 = channelCapacity) :
    afterQuit (n + 1) = insertRow clearCodec.toLogCodec none .none storedChat refCopy := by
  have refused : (talking (List.replicate (n + 1) chatRow)).writer.trySend textCopy =
      (talking (List.replicate (n + 1) chatRow)).writer :=
    trySend_full _ _ (List.length_replicate.trans size)
  have received : (talking (List.replicate (n + 1) chatRow)).writer.receive clearCodec.toLogCodec
      none .none = { Writer.start with channel := List.replicate n chatRow, pending := [chatRow] } :=
    receive_few _ chatRow (List.replicate n chatRow) rfl rfl rfl
  have sent := trySend_room
    { Writer.start with channel := List.replicate n chatRow, pending := [chatRow] } refCopy rfl (by
      rw [List.length_replicate]
      omega)
  rw [afterQuit, runFrom_append, chatter_fills n (by omega), quit_writer, refused, received, sent,
    shutdown_db _ (by simp) rfl]
  -- one row too many is left to be stored, and the oldest goes
  have cut : capPendingRows ([chatRow] ++ (List.replicate n chatRow ++ [refCopy])) =
      List.replicate n chatRow ++ [refCopy] := by
    have length : ([chatRow] ++ (List.replicate n chatRow ++ [refCopy])).length = n + 2 := by
      simp
    have limit : n + 1 = maxPendingRows := size
    unfold capPendingRows
    rw [length, if_neg (by omega), show n + 2 - maxPendingRows = 1 by omega]
    rfl
  rw [cut, List.foldl_append]
  cases n with
  | zero => exact absurd size (by decide)
  | succ n => rw [chatter_stored n, List.foldl_cons, List.foldl_nil]

end Sample

end Repartee.FanOut
