import Repartee.Irc.Batch

/-!
A QUIT and a batch of them: the users of the buffers, the typing indicators and the departures of
query peers. What is shown of a quit is left to a parameter.
-/

namespace Repartee.Irc

open Text Lib

-- The rows of the nick lists, the typing entries, and the rest of the state.
variable {ν τ ρ : Type}

structure Buffer (ν : Type) where
  connectionId : Str
  /-- Keyed by the nick in lower case. -/
  users : Map Str ν

structure PresenceState (ν τ ρ : Type) where
  buffers : Map Str (Buffer ν)
  /-- By buffer, then by the nick in lower case. -/
  typing : Map Str (Map Str τ)
  queryDepartures : Map Str Nat
  outgoingInFlight : Map Str (List Nat)
  now : Nat
  rest : ρ

def redirectTtl : Nat := 5 * 60 * 1000

section Operations

variable (unicode : Unicode) (s : PresenceState ν τ ρ)

def makeBufferId (connectionId name : Str) : Str := connectionId ++ '/' :: unicode.toLowercase name

def PresenceState.removeNick (s : PresenceState ν τ ρ) (bufferId nick : Str) :
    PresenceState ν τ ρ :=
  { s with buffers := s.buffers.adjust bufferId fun buf =>
      { buf with users := buf.users.erase (unicode.toLowercase nick) } }

/-- Also drops the buffers in which nobody is typing. -/
def PresenceState.clearNickOnConnection (s : PresenceState ν τ ρ) (connId nick : Str) :
    PresenceState ν τ ρ :=
  { s with typing := (s.typing.mapValues fun bufferId buf =>
      if (connId ++ ['/']).isPrefixOf bufferId then buf.erase (unicode.toLowercase nick)
      else buf).retain fun _ buf => !buf.rows.isEmpty }

def PresenceState.fresh (s : PresenceState ν τ ρ) (at_ : Nat) : Bool :=
  decide (s.now - at_ < redirectTtl)

def PresenceState.hasOutgoingInFlight (s : PresenceState ν τ ρ) (bufferId : Str) : Bool :=
  ((s.outgoingInFlight.get? bufferId).getD []).any s.fresh

def PresenceState.noteQueryDeparture (s : PresenceState ν τ ρ) (bufferId : Str) :
    PresenceState ν τ ρ :=
  { s with queryDepartures :=
      (s.queryDepartures.retain fun _ at_ => s.fresh at_).insert bufferId s.now }

/-- The buffers of the connection with the nick, given in lower case, on their list. -/
def PresenceState.buffersWith (s : PresenceState ν τ ρ) (connId nick : Str) : List Str :=
  (s.buffers.rows.filter fun e =>
    decide (e.2.connectionId = connId) && (e.2.users.get? nick).isSome).map Prod.fst

/-- What is shown of a quit, given the affected buffers. -/
abbrev QuitDisplay (ρ : Type) : Type := Message → List Str → ρ → ρ

def handleQuit (display : QuitDisplay ρ) (connId : Str) (msg : Message)
    (s : PresenceState ν τ ρ) : PresenceState ν τ ρ :=
  let nick := (extractNickUserhost msg.source).1
  let affected := s.buffersWith connId (unicode.toLowercase nick)
  let s := affected.foldl (fun s bufId => s.removeNick unicode bufId nick) s
  let s := s.clearNickOnConnection unicode connId nick
  let queryId := makeBufferId unicode connId nick
  let s := if s.hasOutgoingInFlight queryId then s.noteQueryDeparture queryId else s
  { s with rest := display msg affected s.rest }

end Operations

section Batch

variable (unicode : Unicode)

/-- The nicks of a split and the buffers they were in, each once. -/
structure SplitTally where
  nicks : List Str
  affected : List Str

def pushNew (x : Str) (xs : List Str) : List Str := if x ∈ xs then xs else xs ++ [x]

def splitQuit (connId : Str) (msg : Message) (acc : PresenceState ν τ ρ × SplitTally) :
    PresenceState ν τ ρ × SplitTally :=
  match msg.command with
  | .quit _ => match extractNick msg.source with
      | none => acc
      | some nick =>
          let nickLower := unicode.toLowercase nick
          let shared := acc.1.buffersWith connId nickLower
          let s := shared.foldl (fun s bufId => s.removeNick unicode bufId nickLower) acc.1
          (s.clearNickOnConnection unicode connId nick,
            ⟨pushNew nick acc.2.nicks, shared.foldl (fun ids id => pushNew id ids) acc.2.affected⟩)
  | _ => acc

def maxNicksDisplay : Nat := 15

def formatNickList (nicks : List Str) : Str :=
  if maxNicksDisplay < nicks.length then
    ", ".toList.intercalate (nicks.take maxNicksDisplay) ++ " (+".toList ++
      natText (nicks.length - maxNicksDisplay) ++ " more)".toList
  else ", ".toList.intercalate nicks

/-- Posts a line to a buffer. -/
abbrev Post (ρ : Type) : Type := Str → Str → ρ → ρ

def processNetsplitBatch (post : Post ρ) (connId : Str) (batch : BatchInfo)
    (s : PresenceState ν τ ρ) : PresenceState ν τ ρ :=
  let server1 := batch.params.head?.getD "???".toList
  let server2 := (batch.params.drop 1).head?.getD "???".toList
  let done := batch.messages.foldl (fun acc msg => splitQuit unicode connId msg acc) (s, ⟨[], []⟩)
  if done.2.nicks = [] then done.1
  else
    let text := "Netsplit ".toList ++ server1 ++ " ⇄ ".toList ++ server2 ++ " quits: ".toList ++
      formatNickList done.2.nicks
    { done.1 with rest := done.2.affected.foldl (fun rest id => post id text rest) done.1.rest }

/-- The quits of the batch one by one. -/
def handleQuits (display : QuitDisplay ρ) (connId : Str) (messages : List Message)
    (s : PresenceState ν τ ρ) : PresenceState ν τ ρ :=
  messages.foldl (fun s msg => match msg.command with
    | .quit _ => handleQuit unicode display connId msg s
    | _ => s) s

end Batch

section Reads

variable (s : PresenceState ν τ ρ)

/-- The row of a nick on the list of a buffer. -/
def PresenceState.userAt (bufferId nick : Str) : Option ν :=
  (s.buffers.get? bufferId).bind fun buf => buf.users.get? nick

def PresenceState.typingAt (bufferId nick : Str) : Option τ :=
  (s.typing.get? bufferId).bind fun buf => buf.get? nick

def PresenceState.connectionOf (bufferId : Str) : Option Str :=
  (s.buffers.get? bufferId).map Buffer.connectionId

end Reads

section Gone

variable (unicode : Unicode) (connId : Str)

/-- The nicks with these keys have left every list and indicator of the connection, and nothing
else about them changed. -/
structure Gone (keys : List Str) (s s' : PresenceState ν τ ρ) : Prop where
  users : ∀ b k, s'.userAt b k =
    if s.connectionOf b = some connId ∧ k ∈ keys then none else s.userAt b k
  typing : ∀ b k, s'.typingAt b k =
    if (connId ++ ['/']).isPrefixOf b = true ∧ k ∈ keys then none else s.typingAt b k
  connections : ∀ b, s'.connectionOf b = s.connectionOf b
  outgoing : s'.outgoingInFlight = s.outgoingInFlight
  now : s'.now = s.now

variable {connId} {s s' s'' : PresenceState ν τ ρ}

theorem Gone.refl : Gone connId [] s s where
  users b k := by simp
  typing b k := by simp
  connections b := rfl
  outgoing := rfl
  now := rfl

theorem Gone.trans {keys more : List Str} (first : Gone connId keys s s')
    (second : Gone connId more s' s'') : Gone connId (keys ++ more) s s'' where
  users b k := by
    rw [second.users, first.users, first.connections]
    by_cases here : s.connectionOf b = some connId <;> by_cases earlier : k ∈ keys <;>
      simp [here, earlier]
  typing b k := by
    rw [second.typing, first.typing]
    by_cases here : (connId ++ ['/']).isPrefixOf b = true <;> by_cases earlier : k ∈ keys <;>
      simp [here, earlier]
  connections b := by rw [second.connections, first.connections]
  outgoing := by rw [second.outgoing, first.outgoing]
  now := by rw [second.now, first.now]

theorem Gone.hasOutgoingInFlight {keys : List Str} (gone : Gone connId keys s s') (b : Str) :
    s'.hasOutgoingInFlight b = s.hasOutgoingInFlight b := by
  have same : s'.fresh = s.fresh := by
    funext at_
    simp [PresenceState.fresh, gone.now]
  simp [PresenceState.hasOutgoingInFlight, gone.outgoing, same]

end Gone

section Steps

variable (unicode : Unicode) (connId : Str) (s : PresenceState ν τ ρ)

theorem userAt_removeNicks (ids : List Str) (nick b k : Str) :
    (ids.foldl (fun s bufId => s.removeNick unicode bufId nick) s).userAt b k =
      if b ∈ ids ∧ k = unicode.toLowercase nick then none else s.userAt b k := by
  induction ids generalizing s with
  | nil => simp
  | cons id rest ih =>
      rw [List.foldl_cons, ih]
      have here : (s.removeNick unicode id nick).userAt b k =
          if b = id ∧ k = unicode.toLowercase nick then none else s.userAt b k := by
        simp only [PresenceState.userAt, PresenceState.removeNick, Map.get?_adjust]
        by_cases same : b = id
        · cases found : s.buffers.get? b with
          | none => simp [same]
          | some buf =>
              by_cases gone : k = unicode.toLowercase nick
              · simp [same, gone, Map.get?_erase]
              · simp [same, gone, Map.get?_erase, Ne.symm gone]
        · simp [same]
      rw [here]
      by_cases later : b ∈ rest <;> by_cases gone : k = unicode.toLowercase nick <;>
        simp [later, gone]

theorem connectionOf_removeNicks (ids : List Str) (nick b : Str) :
    (ids.foldl (fun s bufId => s.removeNick unicode bufId nick) s).connectionOf b =
      s.connectionOf b := by
  induction ids generalizing s with
  | nil => rfl
  | cons id rest ih =>
      rw [List.foldl_cons, ih]
      simp only [PresenceState.connectionOf, PresenceState.removeNick, Map.get?_adjust]
      split
      · cases s.buffers.get? b <;> rfl
      · rfl

/-- Removing a nick touches the buffers only. -/
theorem frame_removeNicks (ids : List Str) (nick : Str) :
    let s' := ids.foldl (fun s bufId => s.removeNick unicode bufId nick) s
    s'.typing = s.typing ∧ s'.queryDepartures = s.queryDepartures ∧
      s'.outgoingInFlight = s.outgoingInFlight ∧ s'.now = s.now := by
  induction ids generalizing s with
  | nil => exact ⟨rfl, rfl, rfl, rfl⟩
  | cons id rest ih => exact ih (s.removeNick unicode id nick)

theorem mem_buffersWith (nick b : Str) : b ∈ s.buffersWith connId nick ↔
    s.connectionOf b = some connId ∧ (s.userAt b nick).isSome = true := by
  simp only [PresenceState.buffersWith, List.mem_map, List.mem_filter, Bool.and_eq_true,
    decide_eq_true_eq, PresenceState.connectionOf, PresenceState.userAt]
  constructor
  · rintro ⟨⟨id, buf⟩, ⟨row, here, present⟩, rfl⟩
    have found := (Map.get?_eq_some s.buffers id buf).mpr row
    have owner : buf.connectionId = connId := here
    simp [found, owner, present]
  · rintro ⟨here, present⟩
    cases found : s.buffers.get? b with
    | none => simp [found] at here
    | some buf =>
        rw [found] at here present
        exact ⟨(b, buf), ⟨(Map.get?_eq_some s.buffers b buf).mp found, by simpa using here,
          by simpa using present⟩, rfl⟩

theorem typingAt_clear (nick b k : Str) :
    (s.clearNickOnConnection unicode connId nick).typingAt b k =
      if (connId ++ ['/']).isPrefixOf b = true ∧ k = unicode.toLowercase nick then none
      else s.typingAt b k := by
  have pruned (buf : Option (Map Str τ)) :
      ((buf.filter fun buf => !buf.rows.isEmpty).bind fun buf => buf.get? k) =
        buf.bind fun buf => buf.get? k := by
    cases buf with
    | none => rfl
    | some buf =>
        by_cases none : buf.rows = []
        · simp [Option.filter, none, Map.get?, Table.find?]
        · simp [Option.filter, none]
  simp only [PresenceState.typingAt, PresenceState.clearNickOnConnection, Map.get?_retain, pruned,
    Map.get?_mapValues]
  cases found : s.typing.get? b with
  | none => simp
  | some buf =>
      by_cases here : (connId ++ ['/']).isPrefixOf b = true
      · by_cases gone : k = unicode.toLowercase nick
        · simp [here, gone, Map.get?_erase]
        · simp [here, gone, Map.get?_erase, Ne.symm gone]
      · simp [here]

/-- What the two paths have in common, whichever spelling of the nick is removed. -/
theorem gone_of_removal (nick spelled : Str)
    (same : unicode.toLowercase spelled = unicode.toLowercase nick) :
    Gone connId [unicode.toLowercase nick] s
      (((s.buffersWith connId (unicode.toLowercase nick)).foldl
        (fun s bufId => s.removeNick unicode bufId spelled) s).clearNickOnConnection unicode connId
          nick) where
  users b k := by
    have removed := userAt_removeNicks unicode s
      (s.buffersWith connId (unicode.toLowercase nick)) spelled b k
    rw [same] at removed
    refine removed.trans ?_
    simp only [mem_buffersWith, List.mem_singleton]
    by_cases here : s.connectionOf b = some connId <;>
      by_cases gone : k = unicode.toLowercase nick
    · subst gone
      cases present : s.userAt b (unicode.toLowercase nick) <;> simp [here]
    · simp [gone]
    · simp [here]
    · simp [here]
  typing b k := by
    rw [typingAt_clear]
    simp only [PresenceState.typingAt, (frame_removeNicks unicode s _ spelled).1,
      List.mem_singleton]
  connections b := connectionOf_removeNicks unicode s _ spelled b
  outgoing := (frame_removeNicks unicode s _ spelled).2.2.1
  now := (frame_removeNicks unicode s _ spelled).2.2.2

end Steps

section Runs

variable (unicode : Unicode) (connId : Str) (messages : List Message)

def isQuit (msg : Message) : Bool :=
  match msg.command with
  | .quit _ => true
  | _ => false

/-- The nick a quit is taken to be about; a quit without a source is taken to be about no nick. -/
def quitNick (msg : Message) : Str := (extractNickUserhost msg.source).1

/-- The keys the quits of a list remove. -/
def quitKeys : List Str := (messages.filter isQuit).map fun msg => unicode.toLowercase (quitNick msg)

/-- The keys the batch removes: quits without a source are skipped. -/
def splitKeys : List Str :=
  (messages.filter isQuit).filterMap fun msg => (extractNick msg.source).map unicode.toLowercase

theorem handleQuits_cons (display : QuitDisplay ρ) (msg : Message) (rest : List Message)
    (s : PresenceState ν τ ρ) : handleQuits unicode display connId (msg :: rest) s =
      handleQuits unicode display connId rest
        (if isQuit msg then handleQuit unicode display connId msg s else s) := by
  unfold handleQuits isQuit
  rw [List.foldl_cons]
  cases msg.command <;> rfl

/-- The state of one quit before what is shown of it. -/
theorem gone_handleQuit (display : QuitDisplay ρ) (msg : Message) (s : PresenceState ν τ ρ) :
    Gone connId [unicode.toLowercase (quitNick msg)] s
      (handleQuit unicode display connId msg s) := by
  have removed := gone_of_removal unicode connId s (quitNick msg) (quitNick msg) rfl
  unfold handleQuit
  simp only
  split
  · exact ⟨removed.users, removed.typing, removed.connections, removed.outgoing, removed.now⟩
  · exact ⟨removed.users, removed.typing, removed.connections, removed.outgoing, removed.now⟩

theorem gone_handleQuits (display : QuitDisplay ρ) (s : PresenceState ν τ ρ) :
    Gone connId (quitKeys unicode messages) s
      (handleQuits unicode display connId messages s) := by
  induction messages generalizing s with
  | nil => exact Gone.refl
  | cons msg rest ih =>
      rw [handleQuits_cons]
      cases quits : isQuit msg with
      | false => simpa [quitKeys, quits] using ih s
      | true =>
          have step := gone_handleQuit unicode connId display msg s
          simpa [quitKeys, quits] using step.trans (ih _)

/-- One message of the batch: no departure is noted. -/
theorem gone_splitQuit (msg : Message) (acc : PresenceState ν τ ρ × SplitTally) :
    Gone connId (splitKeys unicode [msg]) acc.1 (splitQuit unicode connId msg acc).1 ∧
      (splitQuit unicode connId msg acc).1.queryDepartures = acc.1.queryDepartures := by
  unfold splitQuit
  cases command : msg.command with
  | quit reason =>
      cases sender : extractNick msg.source with
      | none =>
          have keys : splitKeys unicode [msg] = [] := by simp [splitKeys, isQuit, command, sender]
          rw [keys]
          exact ⟨Gone.refl, rfl⟩
      | some nick =>
          have keys : splitKeys unicode [msg] = [unicode.toLowercase nick] := by
            simp [splitKeys, isQuit, command, sender]
          rw [keys]
          exact ⟨gone_of_removal unicode connId acc.1 nick _ (unicode.lower_lower nick),
            (frame_removeNicks unicode acc.1 _ _).2.1⟩
  | privmsg _ _ | notice _ _ | batch _ _ _ | raw _ _ | response _ _ | error _ =>
      have keys : splitKeys unicode [msg] = [] := by simp [splitKeys, isQuit, command]
      rw [keys]
      exact ⟨Gone.refl, rfl⟩

theorem gone_splitQuits (acc : PresenceState ν τ ρ × SplitTally) :
    let done := messages.foldl (fun acc msg => splitQuit unicode connId msg acc) acc
    Gone connId (splitKeys unicode messages) acc.1 done.1 ∧
      done.1.queryDepartures = acc.1.queryDepartures := by
  induction messages generalizing acc with
  | nil => exact ⟨Gone.refl, rfl⟩
  | cons msg rest ih =>
      obtain ⟨step, noted⟩ := gone_splitQuit unicode connId msg acc
      obtain ⟨later, none⟩ := ih (splitQuit unicode connId msg acc)
      have keys : splitKeys unicode (msg :: rest) =
          splitKeys unicode [msg] ++ splitKeys unicode rest := by
        simp only [splitKeys, ← List.filterMap_append, ← List.filter_append, List.singleton_append]
      rw [keys]
      exact ⟨step.trans later, none.trans noted⟩

theorem gone_processNetsplitBatch (post : Post ρ) (batch : BatchInfo) (s : PresenceState ν τ ρ) :
    Gone connId (splitKeys unicode batch.messages) s
        (processNetsplitBatch unicode post connId batch s) ∧
      (processNetsplitBatch unicode post connId batch s).queryDepartures = s.queryDepartures := by
  obtain ⟨gone, noted⟩ := gone_splitQuits unicode connId batch.messages (s, ⟨[], []⟩)
  unfold processNetsplitBatch
  simp only
  split
  · exact ⟨gone, noted⟩
  · exact ⟨⟨gone.users, gone.typing, gone.connections, gone.outgoing, gone.now⟩, noted⟩

end Runs

section Departures

variable (unicode : Unicode) (connId : Str)

def quitQuery (msg : Message) : Str := makeBufferId unicode connId (quitNick msg)

/-- The queries whose departure the quits record. -/
def notedQueries (messages : List Message) (s : PresenceState ν τ ρ) : List Str :=
  ((messages.filter isQuit).map (quitQuery unicode connId)).filter s.hasOutgoingInFlight

theorem departures_handleQuit (display : QuitDisplay ρ) (msg : Message) (s : PresenceState ν τ ρ)
    (id : Str) : (handleQuit unicode display connId msg s).queryDepartures.get? id =
      if s.hasOutgoingInFlight (quitQuery unicode connId msg) then
        if quitQuery unicode connId msg = id then some s.now
        else (s.queryDepartures.get? id).filter s.fresh
      else s.queryDepartures.get? id := by
  let nick := quitNick msg
  let affected := s.buffersWith connId (unicode.toLowercase nick)
  let removed := (affected.foldl (fun s bufId => s.removeNick unicode bufId nick)
    s).clearNickOnConnection unicode connId nick
  have gone := gone_of_removal unicode connId s nick nick rfl
  have kept : removed.queryDepartures = s.queryDepartures :=
    (frame_removeNicks unicode s affected nick).2.1
  have flying : removed.hasOutgoingInFlight (quitQuery unicode connId msg) =
      s.hasOutgoingInFlight (quitQuery unicode connId msg) := gone.hasOutgoingInFlight _
  have aged : removed.fresh = s.fresh := by
    funext at_
    simp [PresenceState.fresh, show removed.now = s.now from gone.now]
  have step : (handleQuit unicode display connId msg s).queryDepartures =
      (if removed.hasOutgoingInFlight (quitQuery unicode connId msg) then
        removed.noteQueryDeparture (quitQuery unicode connId msg) else removed).queryDepartures := rfl
  rw [step, flying]
  split
  · simp only [PresenceState.noteQueryDeparture, Map.get?_insert, Map.get?_retain, kept, aged,
      show removed.now = s.now from gone.now]
  · rw [kept]

theorem fresh_now (s : PresenceState ν τ ρ) : s.fresh s.now = true := by
  simp [PresenceState.fresh, redirectTtl]

theorem departures_handleQuits (display : QuitDisplay ρ) (messages : List Message)
    (s : PresenceState ν τ ρ) (id : Str) :
    (handleQuits unicode display connId messages s).queryDepartures.get? id =
      if id ∈ notedQueries unicode connId messages s then some s.now
      else if notedQueries unicode connId messages s = [] then s.queryDepartures.get? id
      else (s.queryDepartures.get? id).filter s.fresh := by
  induction messages generalizing s with
  | nil => simp [notedQueries, handleQuits]
  | cons msg rest ih =>
      rw [handleQuits_cons]
      cases quits : isQuit msg with
      | false =>
          have same : notedQueries unicode connId (msg :: rest) s =
              notedQueries unicode connId rest s := by
            simp [notedQueries, quits]
          simpa [same] using ih s
      | true =>
          let next := handleQuit unicode display connId msg s
          have gone := gone_handleQuit unicode connId display msg s
          have here := departures_handleQuit unicode connId display msg s id
          have later : notedQueries unicode connId rest next =
              notedQueries unicode connId rest s := by
            unfold notedQueries
            congr 1
            funext b
            exact gone.hasOutgoingInFlight b
          have aged : next.fresh = s.fresh := by
            funext at_
            simp [PresenceState.fresh, show next.now = s.now from gone.now]
          have twice (at_ : Option Nat) : (at_.filter s.fresh).filter s.fresh = at_.filter s.fresh := by
            simp [Option.filter_filter]
          rw [if_pos rfl, ih next, later, aged, show next.now = s.now from gone.now, here]
          cases flying : s.hasOutgoingInFlight (quitQuery unicode connId msg) with
          | false =>
              have same : notedQueries unicode connId (msg :: rest) s =
                  notedQueries unicode connId rest s := by
                simp [notedQueries, quits, flying]
              simp [same]
          | true =>
              have grown : notedQueries unicode connId (msg :: rest) s =
                  quitQuery unicode connId msg :: notedQueries unicode connId rest s := by
                simp [notedQueries, quits, flying]
              rw [grown]
              by_cases mine : quitQuery unicode connId msg = id
              · subst mine
                simp [Option.filter, fresh_now]
              · simp [mine, Ne.symm mine, twice]

end Departures

section Comparison

variable (unicode : Unicode) (connId : Str)

/-- Two states show the same users, typing indicators and departures. -/
structure SamePresence (a b : PresenceState ν τ ρ) : Prop where
  users : ∀ id k, a.userAt id k = b.userAt id k
  typing : ∀ id k, a.typingAt id k = b.typingAt id k
  departures : ∀ id, a.queryDepartures.get? id = b.queryDepartures.get? id

/-- No quit finds a translated message on its way to the one who quits, unless its departure is
already on record as of now and nothing on record is stale. -/
def NothingInFlight (messages : List Message) (s : PresenceState ν τ ρ) : Prop :=
  ∀ msg ∈ messages, isQuit msg = true →
    s.hasOutgoingInFlight (quitQuery unicode connId msg) = true →
    s.queryDepartures.get? (quitQuery unicode connId msg) = some s.now ∧
      ∀ e ∈ s.queryDepartures, s.fresh e.2 = true

/-- A quit without a source finds nothing under the empty nick, or another quit removes it. -/
def SourcedOrAbsent (messages : List Message) (s : PresenceState ν τ ρ) : Prop :=
  (∃ msg ∈ messages, isQuit msg = true ∧ msg.source = none) →
    unicode.toLowercase [] ∈ splitKeys unicode messages ∨
      (∀ b, s.connectionOf b = some connId → s.userAt b (unicode.toLowercase []) = none) ∧
      ∀ b, (connId ++ ['/']).isPrefixOf b = true → s.typingAt b (unicode.toLowercase []) = none

variable (messages : List Message) (s : PresenceState ν τ ρ)

theorem mem_quitKeys (k : Str) : k ∈ quitKeys unicode messages ↔
    k ∈ splitKeys unicode messages ∨
      (∃ msg ∈ messages, isQuit msg = true ∧ msg.source = none) ∧ k = unicode.toLowercase [] := by
  simp only [quitKeys, splitKeys, List.mem_map, List.mem_filterMap, List.mem_filter,
    Option.map_eq_some_iff, quitNick]
  constructor
  · rintro ⟨msg, ⟨member, quits⟩, rfl⟩
    cases source : msg.source with
    | none => exact Or.inr ⟨⟨msg, member, quits, source⟩, by simp [extractNickUserhost]⟩
    | some sender =>
        refine Or.inl ⟨msg, ⟨member, quits⟩, ?_⟩
        cases sender <;> simp [source, extractNick, extractNickUserhost]
  · rintro (⟨msg, ⟨member, quits⟩, nick, sender, rfl⟩ | ⟨⟨msg, member, quits, source⟩, rfl⟩)
    · refine ⟨msg, ⟨member, quits⟩, ?_⟩
      cases source : msg.source with
      | none => simp [source, extractNick] at sender
      | some p =>
          rw [source] at sender
          cases p <;> simp_all [extractNick, extractNickUserhost]
    · exact ⟨msg, ⟨member, quits⟩, by simp [source, extractNickUserhost]⟩

theorem samePresence_departures (display : QuitDisplay ρ) :
    (∀ id, s.queryDepartures.get? id =
        (handleQuits unicode display connId messages s).queryDepartures.get? id) ↔
      NothingInFlight unicode connId messages s := by
  simp only [departures_handleQuits]
  have noted (msg : Message) (member : msg ∈ messages) (quits : isQuit msg = true)
      (flying : s.hasOutgoingInFlight (quitQuery unicode connId msg) = true) :
      quitQuery unicode connId msg ∈ notedQueries unicode connId messages s := by
    simp only [notedQueries, List.mem_filter, List.mem_map]
    exact ⟨⟨msg, ⟨member, quits⟩, rfl⟩, flying⟩
  constructor
  · intro same msg member quits flying
    have mine := noted msg member quits flying
    refine ⟨by simpa [mine] using same (quitQuery unicode connId msg), ?_⟩
    intro e row
    have found := (Map.get?_eq_some s.queryDepartures e.1 e.2).mpr row
    have agree := same e.1
    rw [found] at agree
    by_cases recorded : e.1 ∈ notedQueries unicode connId messages s
    · rw [if_pos recorded] at agree
      rw [Option.some.inj agree]
      exact fresh_now s
    · rw [if_neg recorded, if_neg (List.ne_nil_of_mem mine)] at agree
      by_contra stale
      simp [Option.filter, stale] at agree
  · intro quiet id
    by_cases recorded : id ∈ notedQueries unicode connId messages s
    · have query := recorded
      simp only [notedQueries, List.mem_filter, List.mem_map] at query
      obtain ⟨⟨msg, ⟨member, quits⟩, rfl⟩, flying⟩ := query
      rw [if_pos recorded, (quiet msg member quits flying).1]
    · rw [if_neg recorded]
      split
      · rfl
      · rename_i some
        obtain ⟨other, among⟩ := List.exists_mem_of_ne_nil _ some
        simp only [notedQueries, List.mem_filter, List.mem_map] at among
        obtain ⟨⟨msg, ⟨member, quits⟩, rfl⟩, flying⟩ := among
        have current := (quiet msg member quits flying).2
        cases found : s.queryDepartures.get? id with
        | none => rfl
        | some at_ =>
            have row := (Map.get?_eq_some s.queryDepartures id at_).mp found
            simp [Option.filter, current (id, at_) row]

/-- The batch leaves users, typing indicators and departures as its quits one by one would, if and
only if no quit finds a translated message on its way to the one who quits, and none without a
source finds anything under the empty nick. -/
theorem netsplit_batch_matches_quits_iff (unicode : Unicode) (display : QuitDisplay ρ)
    (post : Post ρ) (connId : Str) (batch : BatchInfo) (s : PresenceState ν τ ρ) :
    SamePresence (processNetsplitBatch unicode post connId batch s)
        (handleQuits unicode display connId batch.messages s) ↔
      NothingInFlight unicode connId batch.messages s ∧
        SourcedOrAbsent unicode connId batch.messages s := by
  obtain ⟨split, noted⟩ := gone_processNetsplitBatch unicode connId post batch s
  have quits := gone_handleQuits unicode connId batch.messages display s
  have recorded := samePresence_departures unicode connId batch.messages s display
  constructor
  · intro same
    refine ⟨recorded.mp fun id => by rw [← noted, same.departures], ?_⟩
    intro sourceless
    by_cases removed : unicode.toLowercase [] ∈ splitKeys unicode batch.messages
    · exact Or.inl removed
    · have key := (mem_quitKeys unicode batch.messages _).mpr
        (Or.inr ⟨sourceless, rfl⟩)
      refine Or.inr ⟨?_, ?_⟩
      · intro b here
        have agree := same.users b (unicode.toLowercase [])
        rwa [split.users, quits.users, if_neg (fun both => removed both.2),
          if_pos ⟨here, key⟩] at agree
      · intro b here
        have agree := same.typing b (unicode.toLowercase [])
        rwa [split.typing, quits.typing, if_neg (fun both => removed both.2),
          if_pos ⟨here, key⟩] at agree
  · rintro ⟨quiet, sourced⟩
    refine ⟨?_, ?_, fun id => by rw [noted]; exact recorded.mpr quiet id⟩
    · intro b k
      rw [split.users, quits.users]
      by_cases removed : k ∈ splitKeys unicode batch.messages
      · simp [removed, (mem_quitKeys unicode batch.messages k).mpr (Or.inl removed)]
      · by_cases quit : k ∈ quitKeys unicode batch.messages
        · obtain ⟨sourceless, rfl⟩ := ((mem_quitKeys unicode batch.messages k).mp quit).resolve_left removed
          have absent := ((sourced sourceless).resolve_left removed).1 b
          by_cases here : s.connectionOf b = some connId
          · simp [here, absent here]
          · simp [here]
        · simp [removed, quit]
    · intro b k
      rw [split.typing, quits.typing]
      by_cases removed : k ∈ splitKeys unicode batch.messages
      · simp [removed, (mem_quitKeys unicode batch.messages k).mpr (Or.inl removed)]
      · by_cases quit : k ∈ quitKeys unicode batch.messages
        · obtain ⟨sourceless, rfl⟩ := ((mem_quitKeys unicode batch.messages k).mp quit).resolve_left removed
          have absent := ((sourced sourceless).resolve_left removed).2 b
          by_cases here : (connId ++ ['/']).isPrefixOf b = true
          · simp [here, absent here]
          · simp [here]
        · simp [removed, quit]

/-- A translated message is on its way to bob, who is lost in a split. -/
def splitWithMessageInFlight : PresenceState Unit Unit Unit :=
  { buffers := Table.empty
    typing := Table.empty
    queryDepartures := Table.empty
    outgoingInFlight := Map.insert Table.empty "net/bob".toList [1000]
    now := 2000
    rest := () }

theorem netsplit_batch_forgets_departure :
    let quit : Message := ⟨none, some (.nickname "bob".toList "b".toList "h".toList), .quit none⟩
    let batch : BatchInfo := ⟨"NETSPLIT".toList, [], [quit], [0], 0, 1000, none⟩
    let s := splitWithMessageInFlight
    let batched := processNetsplitBatch Unicode.ascii (fun _ _ rest => rest) "net".toList batch s
    let single := handleQuits Unicode.ascii (fun _ _ rest => rest) "net".toList batch.messages s
    batched.queryDepartures.get? "net/bob".toList = none ∧
      single.queryDepartures.get? "net/bob".toList = some 2000 ∧ ¬SamePresence batched single := by
  intro quit batch s batched single
  have forgotten : batched.queryDepartures.get? "net/bob".toList = none := by decide
  have recorded : single.queryDepartures.get? "net/bob".toList = some 2000 := by decide
  refine ⟨forgotten, recorded, ?_⟩
  intro same
  have agree := same.departures "net/bob".toList
  rw [forgotten, recorded] at agree
  cases agree

end Comparison

end Repartee.Irc
