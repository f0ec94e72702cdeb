import Repartee.State.Buffers

/-!
Unread rows and read markers of buffers whose history the server keeps: what a delivery adds, what
a marker clears, and the counters shown for a buffer.
-/

namespace Repartee.State

open Text Lib Translate Irc

/-- Drops at most this many leading characters of a kind. -/
def dropUpTo (kind : Char → Bool) : Nat → Str → Str
  | 0, s => s
  | _ + 1, [] => []
  | n + 1, c :: s => if kind c then dropUpTo kind n s else c :: s

/-- The rest of a colour code: a first colour and, after a comma, a second one. -/
def dropColours (kind : Char → Bool) (width : Nat) (s : Str) : Str :=
  match dropUpTo kind width s with
  | ',' :: c :: rest => if kind c then dropUpTo kind width (c :: rest) else ',' :: c :: rest
  | rest => rest

def isAsciiDigit (c : Char) : Bool := '0' ≤ c && c ≤ '9'

def isAsciiHexdigit (c : Char) : Bool := (hexValue? c).isSome

def toggles : List Char :=
  [Char.ofNat 0x02, Char.ofNat 0x1D, Char.ofNat 0x1F, Char.ofNat 0x1E, Char.ofNat 0x16,
    Char.ofNat 0x0F]

/-- Every round of the loop passes a character, so the length is fuel enough. -/
def stripLoop : Nat → Str → Str
  | 0, _ => []
  | _ + 1, [] => []
  | n + 1, c :: s =>
      if toggles.contains c then stripLoop n s
      else if c = Char.ofNat 0x03 then stripLoop n (dropColours isAsciiDigit 2 s)
      else if c = Char.ofNat 0x04 then stripLoop n (dropColours isAsciiHexdigit 6 s)
      else c :: stripLoop n s

def stripIrcFormatting (s : Str) : Str := stripLoop s.length s

def containsText (text needle : Str) : Bool := text.tails.any (needle.isPrefixOf ·)

/-- The time parser of the clock crate (an RFC 3339 time, in milliseconds) and the case mapping of
the standard library. -/
structure Platform where
  parseRfc3339 : Str → Option Int
  unicode : Unicode

variable (P : Platform)

def serverTime (message : Message) : Option Int :=
  (message.tag "time".toList).bind P.parseRfc3339

def u32Max : Nat := 2 ^ 32 - 1

def topLevel (rows : List UnreadRow) : ActivityLevel := (rows.map UnreadRow.level).foldl max .none

def ReadActivity.prune (ids : List Nat) (state : ReadActivity) : ReadActivity :=
  { state with
    unread := state.unread.retain fun id _ => ids.contains id
    origins := state.origins.retain fun id _ => ids.contains id }

/-- Whether a marker leaves a row unread. -/
def outlives (origin : Str) (millis : Int) (bufferId : Str) (state : ReadActivity) (id : Nat)
    (row : UnreadRow) : Bool :=
  (state.origins.get? id).getD bufferId != origin || row.time.all fun time => decide (millis < time)

def clearRead (origin : Str) (millis : Int) (bufferId : Str) (state : ReadActivity) :
    ReadActivity :=
  { state with unread := state.unread.retain (outlives origin millis bufferId state) }

namespace AppState

variable (s : AppState)

def activityOf (bufferId : Str) : ReadActivity := (s.readActivity.get? bufferId).getD .default

/-- Changes the read state of a buffer, made first if there is none. -/
def adjustActivity (bufferId : Str) (f : ReadActivity → ReadActivity) : AppState :=
  { s with readActivity := s.readActivity.insert bufferId (f (s.activityOf bufferId)) }

/-- The buffer under which the server keeps a row. -/
def originOf (bufferId : Str) (id : Nat) : Str :=
  ((s.readActivity.get? bufferId).bind fun state => state.origins.get? id).getD bufferId

def through (origin : Str) : Option Int := (s.readActivity.get? origin).bind ReadActivity.through

def usesReadMarkers (bufferId : Str) : Bool :=
  s.bufferUsesServerHistory bufferId &&
    (s.connectionNamed bufferId).any fun conn =>
      !conn.bouncerControl &&
        (conn.enabledCaps.contains "draft/read-marker".toList ||
          conn.enabledCaps.contains "soju.im/read".toList)

def messageAlreadyRead (bufferId : Str) (message : Message) : Bool :=
  match serverTime P message with
  | none => false
  | some time =>
      (s.through (s.originOf bufferId message.id)).any fun through => decide (time ≤ through)

def recordReadOrigin (bufferId : Str) (message : Message) (origin : Str) : AppState :=
  if s.bufferUsesServerHistory bufferId then
    s.adjustActivity bufferId fun state =>
      { state with origins := state.origins.insert message.id origin }
  else s

/-- A row counted again keeps its place in the order. -/
def recordReadActivity (bufferId : Str) (message : Message) (level : ActivityLevel) : AppState :=
  if level = .none ∨ s.messageAlreadyRead P bufferId message = true then s
  else
    let counted := { s with activityCounter := s.activityCounter + 1 }
    counted.adjustActivity bufferId fun state =>
      { state with unread :=
          match state.unread.get? message.id with
          | some row => state.unread.insert message.id ⟨serverTime P message, level, row.order⟩
          | none => state.unread.insert message.id
              ⟨serverTime P message, level, counted.activityCounter⟩ }

def registerActivity (bufferId : Str) : AppState :=
  { s with
    activityCounter := s.activityCounter + 1
    activityOrder := s.activityOrder.insert bufferId (s.activityCounter + 1) }

def recordActivity (bufferId : Str) (level : ActivityLevel) : AppState :=
  if (s.buffers.get? bufferId).any fun buffer => decide (buffer.activity < level) then
    s.registerActivity bufferId
  else s

/-- Rows the buffer no longer holds are forgotten. -/
def pruneReadActivity (bufferId : Str) : AppState :=
  match s.buffers.get? bufferId with
  | none => s
  | some buffer =>
      { s with readActivity :=
          s.readActivity.adjust bufferId (ReadActivity.prune (buffer.messages.map Message.id)) }

def unreadRows (bufferId : Str) : List UnreadRow :=
  (s.activityOf bufferId).unread.rows.map Prod.snd

def refreshReadActivity (bufferId : Str) : AppState :=
  let s := s.pruneReadActivity bufferId
  match s.buffers.get? bufferId with
  | none => s
  | some _ =>
      let s := s.adjustActivity bufferId id
      let rows := s.unreadRows bufferId
      let top := topLevel rows
      let orders := (rows.filter fun row => row.level == top).map UnreadRow.order
      { s.adjustBuffer bufferId fun buffer =>
          { buffer with unreadCount := min rows.length u32Max, activity := top } with
        activityOrder :=
          match orders.min? with
          | some order => s.activityOrder.insert bufferId order
          | none => s.activityOrder.erase bufferId }

def finishHistoryReadActivity (bufferId : Str) : AppState :=
  if s.bufferUsesServerHistory bufferId then s.refreshReadActivity bufferId else s

def isOwnHistoryMessage (bufferId : Str) (message : Message) (ownNick : Option Str) : Bool :=
  match splitOnce '/' bufferId, message.rest.nick with
  | some (connId, _), some nick =>
      let account := (message.tag "account".toList).filter fun a => !a.isEmpty && a != "*".toList
      let identity := s.readIdentities.get? connId
      let ownAccount := ownNick.bind fun own =>
        (((s.buffers.rows.filter fun e => e.2.connectionId == connId).flatMap
          fun e => e.2.users.rows.map Prod.snd).filter
            fun entry => eqNocase entry.nick own).findSome? NickEntry.account
      let byNick :=
        let timestamp := message.timestampMillis
        match identity with
        | none => ownNick.any fun own => eqNocase nick own
        | some identity =>
            if identity.previous.any fun period =>
                eqNocase period.1 nick && period.2.1.all (fun since => decide (since ≤ timestamp)) &&
                  decide (timestamp ≤ period.2.2) then true
            else if eqNocase identity.currentNick nick then
              identity.currentSince.all fun since => decide (since ≤ timestamp)
            else ownNick.any fun own => eqNocase nick own
      match account with
      | none => byNick
      | some account =>
          if identity.any ReadIdentity.accountKnown then
            identity.any fun identity => identity.ownedAccounts.contains (asciiLower account)
          else
            match ownAccount with
            | some ownAccount => eqNocase account ownAccount
            | none => byNick
  | _, _ => false

/-- The level a history row raises when it is not the user's own. -/
def historyLevel (bufferId : Str) (message : Message) (ownNick : Option Str) : ActivityLevel :=
  let mentioned := message.rest.highlight ||
    (ownNick.filter fun nick => !nick.isEmpty).any fun nick =>
      containsText (P.unicode.toLowercase (stripIrcFormatting message.text))
        (P.unicode.toLowercase nick)
  let query := (s.buffers.get? bufferId).any fun buffer => buffer.bufferType == .query
  match message.rest.messageType with
  | .message | .action => if mentioned || query then .mention else .activity
  | .notice => if mentioned then .mention else .activity
  | .event => .events
  | .mentionLog => .none

def recordHistoryReadActivity (bufferId : Str) (message : Message) (ownNick : Option Str) :
    AppState :=
  if !s.bufferUsesServerHistory bufferId || s.isOwnHistoryMessage bufferId message ownNick then s
  else
    let level := s.historyLevel P bufferId message ownNick
    let s := if s.messageAlreadyRead P bufferId message then s else s.recordActivity bufferId level
    s.recordReadActivity P bufferId message level

/-- A marker only moves forward. Every buffer that shows rows of its target is counted again. -/
def applyServerReadMarker (bufferId : Str) (millis : Int) : AppState :=
  if (s.through bufferId).any fun previous => decide (millis ≤ previous) then
    s.adjustActivity bufferId id
  else
    let marked := s.adjustActivity bufferId fun state => { state with through := some millis }
    let cleared :=
      { marked with readActivity := marked.readActivity.mapValues (clearRead bufferId millis) }
    let changed := (marked.readActivity.rows.filter fun e =>
      (clearRead bufferId millis e.1 e.2).unread.rows.length != e.2.unread.rows.length &&
        e.1 != bufferId).map Prod.fst
    (changed.foldl refreshReadActivity cleared).refreshReadActivity bufferId

/-- The first marker of a connection replaces the one known so far, also downwards. -/
def reconcileServerReadMarker (bufferId : Str) (marker : Option Int) : AppState :=
  if (s.through bufferId).isNone then
    match marker with
    | some millis => s.applyServerReadMarker bufferId millis
    | none => s
  else
    let reset := s.adjustActivity bufferId fun state => { state with through := none }
    let marked := match marker with
      | some millis => reset.applyServerReadMarker bufferId millis
      | none => reset
    let rows := marked.buffers.rows.flatMap fun e =>
      (e.2.messages.filter fun message =>
        (serverTime P message).isSome && marked.originOf e.1 message.id == bufferId).map
          fun message => (e.1, e.2.connectionId, message)
    let recorded := rows.foldl (fun s row =>
      s.recordHistoryReadActivity P row.1 row.2.2
        ((s.connections.get? row.2.1).map Connection.nick)) marked
    (rows.map Prod.fst).dedup.foldl refreshReadActivity recorded

/-- The markers that reading up to a row sends: the newest server time shown of each origin. -/
def visibleReadMarkers (bufferId : Str) (messageId : Nat) : Option (Map Str Int) :=
  (s.buffers.get? bufferId).bind fun buffer =>
    (buffer.messages.findIdx? fun message => message.id == messageId).map fun position =>
      (buffer.messages.take (position + 1)).foldl (fun markers message =>
        match serverTime P message with
        | none => markers
        | some time =>
            let origin := s.originOf bufferId message.id
            markers.insert origin (max ((markers.get? origin).getD time) time)) Table.empty

def clearVisibleReadRows (bufferId : Str) (messageId : Nat) : AppState :=
  match s.buffers.get? bufferId with
  | none => s
  | some buffer =>
      match buffer.messages.findIdx? fun message => message.id == messageId with
      | none => s
      | some position =>
          let ids := (buffer.messages.take (position + 1)).map Message.id
          match s.readActivity.get? bufferId with
          | none => s
          | some state =>
              let left := state.unread.retain fun id _ => !ids.contains id
              if left.rows.length = state.unread.rows.length then s
              else (s.adjustActivity bufferId fun state =>
                { state with unread := left }).refreshReadActivity bufferId

/-- Forgets the markers of a connection, with the unread rows of its buffers. -/
def resetConnectionReadMarkers (connId : Str) : AppState :=
  let forgotten := { s with readIdentities := s.readIdentities.erase connId }
  let buffers := (forgotten.readActivity.rows.map Prod.fst).filter fun bufferId =>
    (splitOnce '/' bufferId).any fun parts => parts.1 == connId
  buffers.foldl (fun s bufferId =>
    { s with readActivity := s.readActivity.erase bufferId }.refreshReadActivity bufferId) forgotten

def resetReadIdentity (connId : Str) : AppState :=
  { s with readIdentities := s.readIdentities.erase connId }

def activateConnectionReadMarkers (connId : Str) : AppState :=
  ((s.buffers.rows.filter fun e =>
    e.2.connectionId == connId && s.usesReadMarkers e.1).map Prod.fst).foldl refreshReadActivity s

variable {P} {s}

theorem through_eq (origin : Str) : s.through origin = (s.activityOf origin).through := by
  simp only [through, activityOf]
  cases s.readActivity.get? origin <;> rfl

theorem originOf_eq (bufferId : Str) (id : Nat) :
    s.originOf bufferId id = ((s.activityOf bufferId).origins.get? id).getD bufferId := by
  simp only [originOf, activityOf]
  cases s.readActivity.get? bufferId <;> rfl

@[simp] theorem adjustActivity_buffers (bufferId : Str) (f : ReadActivity → ReadActivity) :
    (s.adjustActivity bufferId f).buffers = s.buffers := rfl

@[simp] theorem adjustActivity_connections (bufferId : Str) (f : ReadActivity → ReadActivity) :
    (s.adjustActivity bufferId f).connections = s.connections := rfl

theorem activityOf_adjustActivity (bufferId x : Str) (f : ReadActivity → ReadActivity) :
    (s.adjustActivity bufferId f).activityOf x =
      if bufferId = x then f (s.activityOf bufferId) else s.activityOf x := by
  simp only [adjustActivity, activityOf, Map.get?_insert]
  split <;> rfl

@[simp] theorem activityOf_adjustBuffer (bufferId x : Str) (f : Buffer → Buffer) :
    (s.adjustBuffer bufferId f).activityOf x = s.activityOf x := rfl

theorem get?_adjustBuffer (bufferId x : Str) (f : Buffer → Buffer) :
    (s.adjustBuffer bufferId f).buffers.get? x =
      if x = bufferId then (s.buffers.get? x).map f else s.buffers.get? x :=
  Map.get?_adjust ..

theorem get?_retain_held {ν : Type} (m : Map Nat ν) (ids : List Nat) (id : Nat)
    (inside : id ∈ ids) : (m.retain fun id _ => ids.contains id).get? id = m.get? id := by
  have kept : ids.contains id = true := List.contains_iff_mem.mpr inside
  rw [Map.get?_retain]
  cases m.get? id with
  | none => rfl
  | some v => simp only [Option.filter, kept, if_true]

theorem prune_default (ids : List Nat) : ReadActivity.default.prune ids = .default := rfl

theorem activityOf_pruneReadActivity (bufferId x : Str) :
    (s.pruneReadActivity bufferId).activityOf x =
      if x = bufferId then
        ((s.buffers.get? bufferId).map fun buffer =>
          (s.activityOf bufferId).prune (buffer.messages.map Message.id)).getD (s.activityOf bufferId)
      else s.activityOf x := by
  cases found : s.buffers.get? bufferId with
  | none =>
      simp only [pruneReadActivity, found, Option.map_none, Option.getD_none]
      split
      · next same => rw [same]
      · rfl
  | some buffer =>
      simp only [pruneReadActivity, found, activityOf, Map.get?_adjust, Option.map_some,
        Option.getD_some]
      split
      · next same =>
          subst same
          cases s.readActivity.get? x with
          | none => exact (prune_default _).symm
          | some state => rfl
      · rfl

@[simp] theorem pruneReadActivity_buffers (bufferId : Str) :
    (s.pruneReadActivity bufferId).buffers = s.buffers := by
  unfold pruneReadActivity
  split <;> rfl

@[simp] theorem pruneReadActivity_setting (bufferId : Str) :
    (s.pruneReadActivity bufferId).setting = s.setting := by
  unfold pruneReadActivity
  split <;> rfl

theorem recordReadOrigin_eq (bufferId : Str) (message : Message) (origin : Str)
    (uses : s.bufferUsesServerHistory bufferId = true) :
    s.recordReadOrigin bufferId message origin = s.adjustActivity bufferId fun state =>
      { state with origins := state.origins.insert message.id origin } := by
  simp [recordReadOrigin, uses]

@[simp] theorem recordReadOrigin_buffers (bufferId : Str) (message : Message) (origin : Str) :
    (s.recordReadOrigin bufferId message origin).buffers = s.buffers := by
  unfold recordReadOrigin
  split <;> rfl

@[simp] theorem recordReadOrigin_setting (bufferId : Str) (message : Message) (origin : Str) :
    (s.recordReadOrigin bufferId message origin).setting = s.setting := by
  unfold recordReadOrigin
  split <;> rfl

@[simp] theorem recordReadOrigin_messageCounter (bufferId : Str) (message : Message)
    (origin : Str) :
    (s.recordReadOrigin bufferId message origin).messageCounter = s.messageCounter := by
  unfold recordReadOrigin
  split <;> rfl

@[simp] theorem recordActivity_activityOf (bufferId x : Str) (level : ActivityLevel) :
    (s.recordActivity bufferId level).activityOf x = s.activityOf x := by
  unfold recordActivity
  split <;> rfl

@[simp] theorem recordActivity_buffers (bufferId : Str) (level : ActivityLevel) :
    (s.recordActivity bufferId level).buffers = s.buffers := by
  unfold recordActivity
  split <;> rfl

@[simp] theorem recordActivity_setting (bufferId : Str) (level : ActivityLevel) :
    (s.recordActivity bufferId level).setting = s.setting := by
  unfold recordActivity
  split <;> rfl

@[simp] theorem recordActivity_messageCounter (bufferId : Str) (level : ActivityLevel) :
    (s.recordActivity bufferId level).messageCounter = s.messageCounter := by
  unfold recordActivity
  split <;> rfl

theorem messageAlreadyRead_recordActivity (bufferId x : Str) (message : Message)
    (level : ActivityLevel) :
    (s.recordActivity bufferId level).messageAlreadyRead P x message =
      s.messageAlreadyRead P x message := by
  simp only [messageAlreadyRead, through_eq, originOf_eq, recordActivity_activityOf]

/-- Counting a row adds its own entry, if it is to be counted, and touches no other. -/
theorem recordReadActivity_spec (s : AppState) (bufferId : Str) (message : Message)
    (level : ActivityLevel) :
    (s.recordReadActivity P bufferId message level).buffers = s.buffers ∧
    (s.recordReadActivity P bufferId message level).setting = s.setting ∧
    (s.recordReadActivity P bufferId message level).messageCounter = s.messageCounter ∧
    ∃ order, ∀ x,
      (s.recordReadActivity P bufferId message level).activityOf x =
        if bufferId = x ∧ level ≠ .none ∧ s.messageAlreadyRead P bufferId message = false then
          { s.activityOf bufferId with
            unread := (s.activityOf bufferId).unread.insert message.id
              ⟨serverTime P message, level, order⟩ }
        else s.activityOf x := by
  by_cases skipped : level = .none ∨ s.messageAlreadyRead P bufferId message = true
  · have same : s.recordReadActivity P bufferId message level = s := by
      simp only [recordReadActivity, skipped, if_true]
    have absent : ¬(level ≠ .none ∧ s.messageAlreadyRead P bufferId message = false) := by
      rintro ⟨counted, unread⟩
      simp [counted, unread] at skipped
    refine ⟨by rw [same], by rw [same], by rw [same], 0, ?_⟩
    intro x
    rw [same, if_neg fun both => absent both.2]
  · have counted : level ≠ .none ∧ s.messageAlreadyRead P bufferId message = false := by
      simpa using skipped
    simp only [recordReadActivity, skipped, if_false]
    refine ⟨rfl, rfl, rfl, (((s.activityOf bufferId).unread.get? message.id).map
      UnreadRow.order).getD (s.activityCounter + 1), ?_⟩
    intro x
    rw [activityOf_adjustActivity]
    by_cases here : bufferId = x
    · subst here
      rw [if_pos rfl, if_pos ⟨rfl, counted⟩]
      have same : activityOf { s with activityCounter := s.activityCounter + 1 } bufferId =
          s.activityOf bufferId := rfl
      rw [same]
      cases (s.activityOf bufferId).unread.get? message.id <;> rfl
    · rw [if_neg here, if_neg fun both => here both.1]
      rfl

theorem refreshReadActivity_closed (bufferId : Str) (closed : s.buffers.get? bufferId = none) :
    s.refreshReadActivity bufferId = s := by
  simp [refreshReadActivity, pruneReadActivity, closed]

theorem refreshReadActivity_activityOf (bufferId x : Str) :
    (s.refreshReadActivity bufferId).activityOf x = (s.pruneReadActivity bufferId).activityOf x := by
  simp only [refreshReadActivity, pruneReadActivity_buffers]
  cases s.buffers.get? bufferId with
  | none => rfl
  | some buffer =>
      change ((s.pruneReadActivity bufferId).adjustActivity bufferId id).activityOf x = _
      rw [activityOf_adjustActivity]
      split
      · next same => rw [same]; rfl
      · rfl

theorem refreshReadActivity_buffers (bufferId x : Str) :
    (s.refreshReadActivity bufferId).buffers.get? x =
      if x = bufferId then (s.buffers.get? bufferId).map fun buffer =>
        { buffer with
          unreadCount := min ((s.refreshReadActivity bufferId).unreadRows bufferId).length u32Max
          activity := topLevel ((s.refreshReadActivity bufferId).unreadRows bufferId) }
      else s.buffers.get? x := by
  cases found : s.buffers.get? bufferId with
  | none =>
      rw [refreshReadActivity_closed bufferId found]
      split
      · next same => rw [same, found]; rfl
      · rfl
  | some buffer =>
      have rows : (s.refreshReadActivity bufferId).unreadRows bufferId =
          ((s.pruneReadActivity bufferId).adjustActivity bufferId id).unreadRows bufferId := by
        simp only [unreadRows, refreshReadActivity_activityOf, activityOf_adjustActivity, if_true,
          id]
      rw [rows]
      simp only [refreshReadActivity, pruneReadActivity_buffers, found]
      change (((s.pruneReadActivity bufferId).adjustActivity bufferId id).adjustBuffer bufferId
        _).buffers.get? x = _
      rw [get?_adjustBuffer, adjustActivity_buffers, pruneReadActivity_buffers]
      split
      · next same => rw [same, found]
      · rfl

@[simp] theorem refreshReadActivity_setting (bufferId : Str) :
    (s.refreshReadActivity bufferId).setting = s.setting := by
  simp only [refreshReadActivity, pruneReadActivity_buffers]
  cases s.buffers.get? bufferId with
  | none => exact pruneReadActivity_setting bufferId
  | some buffer =>
      calc _ = (((s.pruneReadActivity bufferId).adjustActivity bufferId id).adjustBuffer bufferId
              fun buffer => { buffer with
                unreadCount := min (((s.pruneReadActivity bufferId).adjustActivity bufferId
                  id).unreadRows bufferId).length u32Max
                activity := topLevel (((s.pruneReadActivity bufferId).adjustActivity bufferId
                  id).unreadRows bufferId) }).setting := rfl
        _ = ((s.pruneReadActivity bufferId).adjustActivity bufferId id).setting :=
            adjustBuffer_setting _ _ _ fun _ => rfl
        _ = s.setting := pruneReadActivity_setting bufferId

@[simp] theorem refreshReadActivity_messageCounter (bufferId : Str) :
    (s.refreshReadActivity bufferId).messageCounter = s.messageCounter := by
  have pruned : (s.pruneReadActivity bufferId).messageCounter = s.messageCounter := by
    unfold pruneReadActivity
    split <;> rfl
  simp only [refreshReadActivity, pruneReadActivity_buffers]
  cases s.buffers.get? bufferId <;> exact pruned

theorem users_of_setting {a b : AppState} (same : a.setting = b.setting) (connId : Str) :
    ((a.buffers.rows.filter fun e => e.2.connectionId == connId).flatMap
        fun e => e.2.users.rows.map Prod.snd) =
      (b.buffers.rows.filter fun e => e.2.connectionId == connId).flatMap
        fun e => e.2.users.rows.map Prod.snd := by
  have listed (s : AppState) :
      ((s.buffers.rows.filter fun e => e.2.connectionId == connId).flatMap
        fun e => e.2.users.rows.map Prod.snd) =
      (s.setting.outlines.filter fun e => e.2.connectionId == connId).flatMap
        fun e => e.2.users.rows.map Prod.snd := by
    simp only [setting, List.filter_map, List.flatMap_map]
    rfl
  rw [listed, listed, same]

/-- Whose a history row is, and how loud, does not depend on rows or counters. -/
theorem isOwnHistoryMessage_of_setting {a b : AppState} (same : a.setting = b.setting)
    (bufferId : Str) (message : Message) (ownNick : Option Str) :
    a.isOwnHistoryMessage bufferId message ownNick =
      b.isOwnHistoryMessage bufferId message ownNick := by
  have identities : a.readIdentities = b.readIdentities := congrArg Setting.readIdentities same
  simp only [isOwnHistoryMessage, identities, users_of_setting same]

theorem historyLevel_of_setting {a b : AppState} (same : a.setting = b.setting) (bufferId : Str)
    (message : Message) (ownNick : Option Str) :
    a.historyLevel P bufferId message ownNick = b.historyLevel P bufferId message ownNick := by
  have outline := outline_of_setting same bufferId
  have query : ((a.buffers.get? bufferId).any fun buffer => buffer.bufferType == .query) =
      (b.buffers.get? bufferId).any fun buffer => buffer.bufferType == .query := by
    have through (o : Option Buffer) : (o.any fun buffer => buffer.bufferType == .query) =
        (o.map Buffer.outline).any fun outline => outline.bufferType == .query := by
      cases o <;> rfl
    rw [through, through, outline]
  simp only [historyLevel, query]

end AppState

end Repartee.State
