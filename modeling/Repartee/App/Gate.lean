import Repartee.App.State

/-!
The gate every message passes on its way out: it leaves encrypted, in the clear, or not at all.
-/

namespace Repartee.App

open Text Lib E2e

section Split

def messageMaxBytes : Nat := 350

/-- A word with the whitespace behind it, and the rest. -/
def nextWord (text : Str) : Str × Str :=
  let word := text.takeWhile fun c => !isWhitespace c
  let after := text.dropWhile fun c => !isWhitespace c
  (word ++ after.takeWhile isWhitespace, after.dropWhile isWhitespace)

/-- The splitting words, with a bound on their number. -/
def splitWords : Nat → Str → List Str
  | _, [] => []
  | 0, _ => []
  | fuel + 1, text => (nextWord text).1 :: splitWords fuel (nextWord text).2

structure SplitState where
  lines : List Str
  current : Str

def pushChar (maxBytes : Nat) (st : SplitState) (c : Char) : SplitState :=
  if utf8Length st.current + c.utf8Size > maxBytes ∧ st.current ≠ [] then
    ⟨st.lines ++ [st.current], [c]⟩
  else ⟨st.lines, st.current ++ [c]⟩

def pushWord (maxBytes : Nat) (st : SplitState) (word : Str) : SplitState :=
  if utf8Length st.current + utf8Length word ≤ maxBytes then ⟨st.lines, st.current ++ word⟩
  else if utf8Length (trim word) ≤ maxBytes then
    if st.current ≠ [] then ⟨st.lines ++ [st.current], trimStart word⟩
    else ⟨st.lines, trimStart word⟩
  else word.foldl (pushChar maxBytes) st

def splitIrcMessage (text : Str) (maxBytes : Nat) : List Str :=
  if utf8Length text ≤ maxBytes then [text]
  else
    let st := (splitWords text.length text).foldl (pushWord maxBytes) ⟨[], []⟩
    if st.current ≠ [] then st.lines ++ [st.current] else st.lines

end Split

inductive E2eRefusal where
  | noPeerHandle
  | keyringRead
  | encryptFailed
  | bouncerScopeChanged
  deriving DecidableEq

def colorError : Str := "%Zf7768e".toList
def colorReset : Str := "%N".toList

def E2eRefusal.body : E2eRefusal → Str
  | .bouncerScopeChanged =>
      "bouncer identity changed — message NOT sent; verify this network and use /e2e on or /e2e off".toList
  | .noPeerHandle =>
      "cannot encrypt PM without peer handle — wait for a message from them first".toList
  | .keyringRead =>
      "cannot encrypt — keyring read failed; message NOT sent (E2E stays on)".toList
  | .encryptFailed =>
      "encryption failed — message NOT sent as plaintext (use /e2e off to send cleartext)".toList

def E2eRefusal.userMessage (refusal : E2eRefusal) : Str :=
  colorError ++ "[E2E] ".toList ++ refusal.body ++ colorReset

structure E2eSendPlan where
  wireLines : List Str
  encrypted : Bool
  deriving DecidableEq

/-- A program of the gate: it ends in a plan or in a refusal. -/
abbrev Gate (α : Type) : Type := Prog AppState E2eRefusal α

/-- A read of the keyring whose failure refuses the message. -/
def gateRead {α : Type} (m : AppAction α) : Gate α := Prog.mapError (fun _ => .keyringRead) m

def isEnabled (cfg : Option ChannelConfig) : Bool := cfg.any ChannelConfig.enabled

section Bouncer

/-- Every handle the peer may have been keyed under, as wire contexts, each once; behind them the
target itself. -/
def confirmationWires (target : Str) (handles : List Str) : List Str :=
  (handles.foldl (fun wires handle =>
    let wire := contextKey target handle
    if wire ∈ wires then wires else wires ++ [wire]) []) ++ [target]

def confirmationHandles (conn : Connection) (target : Str) (live : Option Str) :
    AppAction (List Str) :=
  if isChannelTarget target then return []
  else do
    let keyed ← keyring (·.cachedDmHandle target conn.networkKey)
    let origin ← keyring (·.cachedDmHandle target conn.originLabel)
    let labelled ← keyring (·.cachedDmHandle target conn.label)
    let legacy ← keyring (·.legacyHandleForNick target)
    let previous ← keyring (·.previousHandlesForNick target)
    return [live, keyed, origin, labelled, legacy].reduceOption ++ previous

/-- The stored spelling of a context, or the context itself. -/
def canonicalContext (context : Str) : AppAction Str := do
  let canonical ← keyring (·.canonicalChannelContext context)
  return canonical.getD context

def enabledElsewhere (candidate : Str) : AppAction Bool := do
  let context ← canonicalContext candidate
  let cfg ← keyring (·.getChannelConfig context)
  return isEnabled cfg

/-- Whether the wire context was enabled under a scope the connection no longer has. -/
def enabledBefore (conn : Connection) (wire : Str) : AppAction Bool := do
  if ← keyring (·.hasEnabledPreviousContext wire) then return true
  else
    List.anyM enabledElsewhere
      [scopedContext conn.originLabel wire, scopedContext conn.label wire, wire]

variable (unicode : Irc.Unicode)

def bouncerNeedsConfirmation (conn : Connection) (connId target : Str) : AppAction Bool := do
  let live ← Prog.read fun s => s.peerHandleOf (Irc.makeBufferId unicode connId target)
  let handles ← confirmationHandles conn target live
  let wires := confirmationWires target handles
  let context ← canonicalContext (scopedContext conn.networkKey (wires.headD target))
  let cfg ← keyring (·.getChannelConfig context)
  if cfg.isSome then return false else wires.anyM (enabledBefore conn)

def bouncerE2eNeedsConfirmation (connId target : Str) : AppAction Bool := do
  let s ← Prog.read id
  match (s.connections.get? connId).filter fun conn =>
      conn.bouncerNetworkId.isSome || conn.bouncerControl with
  | none => return false
  | some conn =>
      if s.e2eLoaded then bouncerNeedsConfirmation unicode conn connId target else return false

end Bouncer

section Handles

def resolveQueryPeerHandle (bufferId bufferName : Str) : AppAction (Option Str) := do
  let s ← Prog.read id
  match s.peerHandleOf bufferId with
  | some handle => return some handle
  | none =>
      if s.e2eLoaded then match s.networkOf bufferId with
        | none => return none
        | some net => keyring (·.lastHandleForNick bufferName net)
      else return none

/-- The nick a queued key is addressed to: a query has one peer, a channel is searched for the
handle. -/
def rekeyNoticeTarget (buf : Option Buffer) (bufferType : BufferType) (bufferName context
    targetHandle : Str) : Option Str :=
  if bufferType = .query then
    if contextKey bufferName targetHandle = wireContext context then some bufferName else none
  else buf.bind fun b => (b.users.rows.find? fun e =>
    decide (e.2.ident.getD [] ++ '@' :: e.2.host.getD [] = targetHandle)).map fun e => e.2.nick

end Handles

section Advisory

variable (unicode : Irc.Unicode)

/-- The answer of a read, or its default when the read fails. -/
def orElse {α : Type} (fallback : α) (m : AppAction α) : Gate α := do
  match ← Prog.mapError (fun _ => E2eRefusal.keyringRead) (Prog.attempt m) with
  | .ok a => return a
  | .error _ => return fallback

def e2eEnabledForTarget (connId target : Str) : Gate Bool := do
  let s ← Prog.read id
  if !s.e2eLoaded then return false
  else
    let network := ((s.connections.get? connId).map Connection.networkKey).getD []
    let context ←
      if isChannelTarget target then do
        let base := scopedContext network target
        let canonical ← orElse none (keyring (·.canonicalChannelContext base))
        pure (some (canonical.getD base))
      else do
        let handle ← orElse none
          (resolveQueryPeerHandle (Irc.makeBufferId unicode connId target) target)
        pure (handle.map fun h => scopedContext network (contextKey target h))
    match context with
    | none => return false
    | some ctx => do
        let cfg ← orElse none (keyring (·.getChannelConfig ctx))
        return isEnabled cfg

def warnE2eBotBypass (bufferId bufferName : Str) : Gate Unit := do
  let s ← Prog.read id
  match s.connectionOf bufferId with
  | none => return ()
  | some connId => do
      if ← e2eEnabledForTarget unicode connId bufferName then
        Prog.change fun s => { s with
          localMessages := s.localMessages ++ [(bufferId, "[E2E] bot-style message to ".toList ++
            bufferName ++ (" sent in CLEARTEXT — channel lines starting with '.' or '!' " ++
              "bypass encryption for bots").toList)] }
      else return ()

end Advisory

section Sending

variable (P : Platform) (unicode : Irc.Unicode)

/-- Hands every queued key to the notices of the connection; one without a recipient is dropped. -/
def queueRekeyNotices (connId : Str) (buf : Option Buffer) (bufferType : BufferType)
    (bufferName context : Str) (sends : List PendingRekeySend) : List PendingE2eSend :=
  sends.filterMap fun rk =>
    (rekeyNoticeTarget buf bufferType bufferName context rk.targetHandle).map fun nick =>
      ⟨connId, nick, rk.noticeText⟩

def drainRekeySends (bufferId bufferName : Str) (bufferType : BufferType) (context : Str) :
    AppAction Unit := do
  let sends ← onWorld takePendingRekeySends
  Prog.change fun s => match s.connectionOf bufferId with
    | none => s
    | some connId => { s with
        pendingE2eSends := s.pendingE2eSends ++ queueRekeyNotices connId
          (s.buffers.get? bufferId) bufferType bufferName context sends }

def encryptOutgoingText (context text : Str) : Action (List Str) :=
  if text.head? = some ctcpDelimiter then encryptOutgoingCtcp P context text
  else encryptOutgoing P context text

/-- Encrypts under an enabled context; whatever becomes of it, the queued keys are sent on. -/
def encryptAndDrain (bufferId bufferName : Str) (bufferType : BufferType) (context text : Str) :
    Gate (List Str × Str) := do
  let result ← Prog.mapError (fun _ => .encryptFailed)
    (Prog.attempt (onWorld (encryptOutgoingText P context text)))
  Prog.mapError (fun _ => .encryptFailed) (drainRekeySends bufferId bufferName bufferType context)
  match result with
  | .ok wires => return (wires, text)
  | .error _ => Prog.fail .encryptFailed

def plainPassthrough (text : Str) : List Str × Str := (splitIrcMessage text messageMaxBytes, text)

def scopeUnder (network : Option Str) (wire : Str) : Str :=
  match network with
  | none => wire
  | some net => scopedContext net wire

/-- The peer's handle, looked up now; the one captured when the message was typed stands in where
nothing is found or the look-up fails. -/
def gatePeerHandle (bufferId bufferName : Str) (captured : Option Str) : Gate (Option Str) := do
  match ← Prog.mapError (fun _ => E2eRefusal.keyringRead)
      (Prog.attempt (resolveQueryPeerHandle bufferId bufferName)) with
  | .ok live => return live.or captured
  | .error _ => match captured with
      | some handle => return some handle
      | none => Prog.fail .keyringRead

/-- Under a context that is not enabled, a direct message still looks at the row its handle had
before contexts were scoped. -/
def sendUnder (bufferId bufferName : Str) (bufferType : BufferType) (text context : Str)
    (dmPeerWire : Option Str) : Gate (List Str × Str) := do
  let cfg ← gateRead (keyring (·.getChannelConfig context))
  if isEnabled cfg then encryptAndDrain P bufferId bufferName bufferType context text
  else match dmPeerWire.filter fun _ => !isBouncerScope context with
    | none => return plainPassthrough text
    | some wire => do
        let legacy ← gateRead (keyring (·.getChannelConfig wire))
        if isEnabled legacy then Prog.fail .noPeerHandle else return plainPassthrough text

def sendToChannel (bufferId bufferName text : Str) : Gate (List Str × Str) := do
  let network ← Prog.read fun s => s.networkOf bufferId
  let context := scopeUnder network bufferName
  let canonical ← gateRead (keyring (·.canonicalChannelContext context))
  sendUnder P bufferId bufferName .channel text (canonical.getD context) none

def sendToQuery (bufferId bufferName text : Str) (captured : Option Str) :
    Gate (List Str × Str) := do
  let network ← Prog.read fun s => s.networkOf bufferId
  match ← gatePeerHandle bufferId bufferName captured with
  | none => do
      let cfg ← gateRead (keyring (·.getChannelConfig bufferName))
      if isEnabled cfg then Prog.fail .noPeerHandle else return plainPassthrough text
  | some handle =>
      let wire := contextKey bufferName handle
      sendUnder P bufferId bufferName .query text (scopeUnder network wire) (some wire)

/-- A single line for the bots of a channel. -/
def isBotCommand (bufferType : BufferType) (text : Str) : Bool :=
  decide (bufferType = .channel) &&
    (text.head? = some '.' || text.head? = some '!') && !text.contains '\n'

/-- The confirmation concerns channels and queries whose id names a connection. -/
def bouncerCheck (bufferId bufferName : Str) (bufferType : BufferType) : AppAction Bool :=
  if bufferType = .channel ∨ bufferType = .query then match splitOnce '/' bufferId with
    | none => return false
    | some (connId, _) => bouncerE2eNeedsConfirmation unicode connId bufferName
  else return false

def confirmBouncer (bufferId bufferName : Str) (bufferType : BufferType) : Gate Unit := do
  let needed ← gateRead (bouncerCheck unicode bufferId bufferName bufferType)
  Prog.ensure (!needed) .bouncerScopeChanged

def e2eEncryptOrPassthrough (bufferId bufferName : Str) (bufferType : BufferType) (text : Str)
    (capturedPeerHandle : Option Str) : Gate (List Str × Str) := do
  confirmBouncer unicode bufferId bufferName bufferType
  if isBotCommand bufferType text then
    warnE2eBotBypass unicode bufferId bufferName
    return plainPassthrough text
  else
    let loaded ← Prog.read AppState.e2eLoaded
    if !loaded then return plainPassthrough text
    else match bufferType with
      | .channel => sendToChannel P bufferId bufferName text
      | .query => sendToQuery P bufferId bufferName text capturedPeerHandle
      | _ => return plainPassthrough text

def e2eSendPlanForTarget (connId target text : Str) : Gate E2eSendPlan := do
  let bufferType := if isChannelTarget target then BufferType.channel else .query
  let result ← e2eEncryptOrPassthrough P unicode (Irc.makeBufferId unicode connId target) target
    bufferType text none
  return ⟨result.1, result.1.head?.any (wirePrefix.isPrefixOf ·)⟩

end Sending

section Possible

variable (unicode : Irc.Unicode)

def possibleChannel (network target : Str) : AppAction Bool := do
  let context ← canonicalContext (scopedContext network target)
  let cfg ← keyring (·.getChannelConfig context)
  return isEnabled cfg

/-- A peer's handle is looked up under the scope and, outside a bouncer's, under none. -/
def possibleQuery (network bufferId target : Str) : AppAction Bool := do
  match ← resolveQueryPeerHandle bufferId target with
  | none => do
      let cfg ← keyring (·.getChannelConfig target)
      return isEnabled cfg
  | some handle =>
      let wire := contextKey target handle
      (scopedContext network wire :: if isBouncerScope network then [] else [wire]).anyM
        fun ctx => do
          let cfg ← keyring (·.getChannelConfig ctx)
          return isEnabled cfg

def possibleForTarget (connId target : Str) : AppAction Bool := do
  if ← bouncerE2eNeedsConfirmation unicode connId target then return true
  else
    let s ← Prog.read id
    if !s.e2eLoaded then return false
    else
      let network := ((s.connections.get? connId).map Connection.networkKey).getD []
      if isChannelTarget target then possibleChannel network target
      else possibleQuery network (Irc.makeBufferId unicode connId target) target

/-- Whether encryption may be in play for the target: a read that fails at any point is a yes. -/
def e2ePossibleForTarget (connId target : Str) : AppAction Bool := do
  match ← Prog.attempt (possibleForTarget unicode connId target) with
  | .ok possible => return possible
  | .error _ => return true

end Possible

end Repartee.App
