import Repartee.Config.AppConfig
import Repartee.Irc.BouncerNetworks
import Repartee.Irc.Netsplit
import Repartee.State.RedactionRegistry

/-!
The connections a bouncer account spawns: one child for each network of its registry. What the
user does to a child is a flag of its entry in the table of children.
-/

namespace Repartee.Children

open Text Lib
open Config (AppConfig ServerConfig)
open Irc (Network NetworkRegistry RegistryEvent Identity makeBufferId)
open State (beBytes)

inductive ConnectionStatus where
  | connecting
  | connected
  | disconnected
  | error
  deriving DecidableEq

inductive BufferType where
  | server
  | channel
  | query
  deriving DecidableEq

structure Buffer where
  connectionId : Str
  bufferType : BufferType
  name : Str
  users : List Str
  messages : List Str
  deriving DecidableEq

structure ChildNetwork where
  parent : Str
  network : Network
  scope : Str
  suspended : Bool
  manuallyDisconnected : Bool

structure Connection where
  label : Str
  bouncerIdentity : Option Identity
  networkScope : Option Str
  status : ConnectionStatus
  reconnectAttempts : Nat
  reconnectDelaySecs : Nat
  nextReconnect : Option Nat
  shouldReconnect : Bool
  originConfig : ServerConfig
  deriving DecidableEq

def Connection.bouncerControl (conn : Connection) : Bool :=
  conn.originConfig.bouncerControl || decide (conn.bouncerIdentity = some .control)

inductive Provider where
  | soju
  | lurker
  deriving DecidableEq

/-- A task that connects: the entry of the connection and the number it runs under. -/
structure Attempt where
  id : Str
  generation : Nat
  config : ServerConfig
  deriving DecidableEq

/-- The state, with every attempt that was started. -/
structure App where
  config : AppConfig
  cliBindOverride : Option Str
  children : Map Str ChildNetwork
  connections : Map Str Connection
  buffers : Map Str Buffer
  ircHandles : Finset Str
  forwarderHandles : Finset Str
  connectionAttempts : Map Str Nat
  bouncerNetworks : Map Str NetworkRegistry
  started : List Attempt

section Scope

variable (sha256 : Bytes → Bytes)

def scopePrefix : Str := "bouncer:v1:".toList

def component (text : Str) : Bytes := beBytes (utf8Length text) ++ utf8 text

/-- The login part of a server password that names an account. -/
def passAccount (server : ServerConfig) : Option Str :=
  if server.saslUser.isNone && server.saslPass.isNone && server.saslKeyPath.isNone &&
      server.clientCertPath.isNone && server.saslMechanism.isNone then
    ((server.password.bind (splitOnce ':')).map fun login =>
      login.1.takeWhile fun c => decide (c ∉ "/@".toList)).filter fun account =>
        decide (account ≠ [])
  else none

def accountBytes (accountId : Str) (server : ServerConfig) (defaultUsername : Str) : Bytes :=
  [accountId, asciiLower server.address, natText server.port.toNat,
    if server.tls then "tls".toList else "plain".toList, server.saslUser.getD [],
    asciiUpper (server.saslMechanism.getD "auto".toList), server.username.getD defaultUsername,
    server.clientCertPath.getD [], server.saslKeyPath.getD []].flatMap component ++
  match passAccount server with
  | none => []
  | some account => utf8 "\x00pass-account\x00".toList ++ component account

/-- The network's part of a scope: its number without leading zeros. -/
def scopeNetwork : Option Str → Str
  | none => "control".toList
  | some id => match parseU64 id with
      | .ok n => natText n
      | .error _ => id

def networkScope (accountId : Str) (server : ServerConfig) (defaultUsername : Str) : Str :=
  if server.bouncerNetworkId.isNone && !server.bouncerControl then server.label
  else scopePrefix ++ hexEncode (sha256 (accountBytes accountId server defaultUsername)) ++
    ':' :: scopeNetwork server.bouncerNetworkId

end Scope

def Provider.scopeConfig (provider : Provider) (config : ServerConfig) : ServerConfig :=
  match provider with
  | .soju => { config with password := none }
  | .lurker => config

def resolveBindIp (server : ServerConfig) (cliOverride : Option Str)
    (general : Config.GeneralConfig) : Option Str :=
  server.bindIp.or (cliOverride.or general.defaultBindIp)

def calculateReconnectDelay (baseDelay attempts : Nat) : Nat :=
  if 10 ≤ attempts then 600 else min (baseDelay * 2 ^ attempts) 300

def networkName (network : Network) : Str :=
  (network.attributes.get? "name".toList).getD network.id

def networkSummary (network : Network) : Str :=
  network.id ++ ": ".toList ++ networkName network ++ " (".toList ++
    (network.attributes.get? "state".toList).getD "unknown".toList ++ ")".toList ++
    match network.attributes.get? "error".toList with
    | none => []
    | some error => " — ".toList ++ error

def defaultConnId : Str := "_default".toList

section Operations

variable (sha256 : Bytes → Bytes) (unicode : Irc.Unicode)

namespace App

variable (app : App)

def addMessage (bufferId text : Str) : App :=
  { app with buffers := app.buffers.adjust bufferId fun buffer =>
      { buffer with messages := buffer.messages ++ [text] } }

def updateConnection (id : Str) (f : Connection → Connection) : App :=
  { app with connections := app.connections.adjust id f }

def removeBuffers (p : Buffer → Bool) : App :=
  { app with buffers := app.buffers.retain fun _ buffer => !p buffer }

def labelOf (id : Str) : Str := ((app.connections.get? id).map Connection.label).getD id

def cancelConnectionAttempt (id : Str) : App :=
  { app with
    connectionAttempts := app.connectionAttempts.insert id
      ((app.connectionAttempts.get? id).getD 0 + 1)
    forwarderHandles := app.forwarderHandles.erase id }

def startConnectionAttempt (id : Str) (config : ServerConfig) : App :=
  let app := app.cancelConnectionAttempt id
  { app with
    started := app.started ++ [⟨id, (app.connectionAttempts.get? id).getD 0, config⟩]
    forwarderHandles := insert id app.forwarderHandles }

/-- Connects with the address to bind to filled in. -/
def startBound (id : Str) (config : ServerConfig) : App :=
  app.startConnectionAttempt id
    { config with bindIp := resolveBindIp config app.cliBindOverride app.config.general }

def setupConnection (id : Str) (config : ServerConfig) (accountId : Str) : App :=
  let status := makeBufferId unicode defaultConnId "Status".toList
  let app := if (app.buffers.get? status).isSome then
      { app with
        buffers := app.buffers.erase status
        connections := app.connections.erase defaultConnId }
    else app
  let bound := config.bouncerNetworkId.isSome || config.bouncerControl
  let conn : Connection :=
    { label := config.label
      bouncerIdentity := none
      networkScope := if bound then
          some (networkScope sha256 accountId config app.config.general.username) else none
      status := .connecting
      reconnectAttempts := 0
      reconnectDelaySecs := (config.reconnectDelay.map UInt64.toNat).getD 30
      nextReconnect := none
      shouldReconnect := config.autoReconnect.getD true
      originConfig := if bound && config.username.isNone then
          { config with username := some app.config.general.username } else config }
  let buffer := makeBufferId unicode id config.label
  { app with
    connections := app.connections.insert id conn
    buffers := app.buffers.insert buffer
      ⟨id, .server, config.label, [], ["Connecting to ".toList ++ config.label ++ "...".toList]⟩ }

/-- What the loss of a connection does to its own entry and buffers. -/
def handleDisconnected (now : Nat) (id : Str) (error : Option Str) : App :=
  let app := { app with buffers := app.buffers.mapValues fun _ (buffer : Buffer) =>
    if buffer.connectionId = id ∧ buffer.bufferType = BufferType.channel then { buffer with users := [] }
    else buffer }
  let app := app.updateConnection id fun conn =>
    { conn with
      status := if error.isSome then .error else .disconnected
      nextReconnect := if conn.shouldReconnect then
          some (now + 1000000000 *
            calculateReconnectDelay conn.reconnectDelaySecs conn.reconnectAttempts)
        else conn.nextReconnect }
  let text := "Disconnected from ".toList ++ app.labelOf id ++
    (match error with
      | none => []
      | some error => ": ".toList ++ error) ++
    match app.connections.get? id with
    | some conn => if conn.shouldReconnect then " — reconnecting in ".toList ++
        natText (calculateReconnectDelay conn.reconnectDelaySecs conn.reconnectAttempts) ++
          "s".toList else []
    | none => []
  app.addMessage (makeBufferId unicode id (app.labelOf id)) text

/-- The whole of a connection's loss, given what it does to the children of the connection. -/
def disconnectedWith (suspend : App → Str → App) (now : Nat) (id : Str) (error : Option Str) :
    App :=
  let app := suspend app id
  let app := { app with bouncerNetworks := app.bouncerNetworks.erase id }
  let app := app.handleDisconnected unicode now id error
  { app with
    ircHandles := app.ircHandles.erase id
    forwarderHandles := app.forwarderHandles.erase id }

def stopWith (suspend : App → Str → App) (now : Nat) (id : Str) : App :=
  let wasActive := decide (id ∈ app.ircHandles) || decide (id ∈ app.forwarderHandles) ||
    (app.connections.get? id).any fun conn =>
      decide (conn.status = .connected) || decide (conn.status = .connecting)
  let app := app.cancelConnectionAttempt id
  let app := app.updateConnection id fun conn =>
    { conn with shouldReconnect := false, nextReconnect := none }
  if wasActive then app.disconnectedWith unicode suspend now id none else app

/-- The children of the connection that are not suspended yet. -/
def awakeChildren (parent : Str) : List Str :=
  (app.children.rows.filter fun e => decide (e.2.parent = parent) && !e.2.suspended).map Prod.fst

/-- A child that stops suspends the children it has itself: each level wakes fewer of them. -/
def suspendWithin (now : Nat) : Nat → App → Str → App
  | 0, app, _ => app
  | fuel + 1, app, parent =>
      let marked := { app with children := app.children.mapValues fun _ (child : ChildNetwork) =>
        if child.parent = parent then { child with suspended := true } else child }
      (app.awakeChildren parent).foldl
        (fun app id => app.stopWith unicode (suspendWithin now fuel) now id) marked

def suspendBouncerChildren (now : Nat) (parent : Str) : App :=
  suspendWithin unicode now (app.children.rows.length + 1) app parent

def handleDisconnect (now : Nat) (id : Str) (error : Option Str) : App :=
  app.disconnectedWith unicode (fun app id => app.suspendBouncerChildren unicode now id) now id
    error

def stopBouncerChild (now : Nat) (id : Str) : App :=
  app.stopWith unicode (fun app id => app.suspendBouncerChildren unicode now id) now id

def removeBouncerChild (now : Nat) (id : Str) : App :=
  let app := { app with children := app.children.erase id }
  let app := app.stopBouncerChild unicode now id
  let app := app.removeBuffers fun buffer => decide (buffer.connectionId = id)
  { app with connections := app.connections.erase id }

def prepareBouncerClose (now : Nat) (id : Str) : App :=
  if (app.children.get? id).isSome ||
      (app.connections.get? id).any Connection.bouncerControl then
    let children := (app.children.rows.filter fun e => decide (e.2.parent = id)).map Prod.fst
    let app := children.foldl (fun app child => app.removeBouncerChild unicode now child) app
    let app := { app with children := app.children.adjust id fun child =>
      { child with manuallyDisconnected := true } }
    let app := app.cancelConnectionAttempt id
    { app with
      ircHandles := app.ircHandles.erase id
      bouncerNetworks := app.bouncerNetworks.erase id }
  else app

def renameBouncerChild (id name : Str) : App :=
  match app.connections.get? id with
  | none => app
  | some conn =>
      if conn.label = name then app
      else
        let old := makeBufferId unicode id conn.label
        let app := app.updateConnection id fun conn =>
          { conn with label := name, originConfig := { conn.originConfig with label := name } }
        match app.buffers.get? old with
        | none => app
        | some buffer =>
            let renamed := { buffer with name := name }
            { app with
              buffers := Map.insert (app.buffers.erase old) (makeBufferId unicode id name) renamed }

/-- The configuration of the parent's child for a network. -/
def childConfig (parent : Str) (parentConfig : ServerConfig) (network : Network) : ServerConfig :=
  { parentConfig with
    bouncerControl := false
    bouncerNetworkId := some network.id
    label := networkName network ++ " [".toList ++ parent ++ ":".toList ++ network.id ++ "]".toList
    channels := [] }

def childBase (scope : Str) : Str := "_bouncer:".toList ++ scope

/-- The base, or the base with the first number behind it that nothing has. -/
def freeId (base : Str) : Str :=
  let candidates := base :: (List.range' 1
    (app.connections.rows.length + app.config.servers.rows.length)).map fun n =>
      base ++ ':' :: natText n
  (candidates.find? fun id =>
    (app.connections.get? id).isNone && (app.config.servers.get? id).isNone).getD base

/-- The parent's child for a network. -/
def childOf (parent network : Str) : Option (Str × ChildNetwork) :=
  app.children.rows.find? fun e =>
    decide (e.2.parent = parent) && decide (e.2.network.id = network)

def createBouncerChild (parent : Str) (config : ServerConfig) (scope : Str) (network : Network) :
    App :=
  let id := app.freeId (childBase scope)
  let app := { app with children := app.children.insert id ⟨parent, network, scope, false, false⟩ }
  let app := app.setupConnection sha256 unicode id config parent
  let app := app.addMessage (makeBufferId unicode id config.label) (networkSummary network)
  app.startBound id config

/-- Renames the child, wakes it, and connects again unless the user disconnected it. -/
def updateBouncerChild (id : Str) (child : ChildNetwork) (config : ServerConfig)
    (network : Network) : App :=
  let restart := child.suspended && !child.manuallyDisconnected
  let changed := decide (¬child.network.attributes.rows.Perm network.attributes.rows)
  let app := app.renameBouncerChild unicode id config.label
  let app := { app with children := app.children.adjust id fun child =>
    { child with network := network, suspended := false } }
  let app := if changed then
      app.addMessage (makeBufferId unicode id config.label) (networkSummary network) else app
  if restart then
    (app.updateConnection id fun conn =>
      { conn with
        originConfig := config
        shouldReconnect := config.autoReconnect.getD true
        status := .connecting
        nextReconnect := none }).startBound id config
  else app

def childScope (parent : Str) (parentConfig : ServerConfig) (network : Network) : Str :=
  networkScope sha256 parent (childConfig parent parentConfig network) app.config.general.username

def reconcileBouncerChild (now : Nat) (parent : Str) (parentConfig : ServerConfig)
    (network : Network) : App :=
  let config := childConfig parent parentConfig network
  let scope := app.childScope sha256 parent parentConfig network
  match app.childOf parent network.id with
  | none => app.createBouncerChild sha256 unicode parent config scope network
  | some (id, child) =>
      let live := (app.connections.get? id).isSome
      if !live && child.manuallyDisconnected then
        { app with children := app.children.adjust id fun child => { child with network := network } }
      else if decide (child.scope = scope) && live then
        app.updateBouncerChild unicode id child config network
      else (app.removeBouncerChild unicode now id).createBouncerChild sha256 unicode parent config
        scope network

/-- Whether a network's absence from the registry removes its child. -/
def covers (event : RegistryEvent) (network : Str) : Bool :=
  match event with
  | .snapshot => true
  | .changed id => decide (id = network)
  | _ => false

/-- Whether the connection is the control connection of an account, and up. -/
def controls (parent : Str) : Bool :=
  (app.connections.get? parent).any fun conn =>
    decide (conn.status = .connected) && conn.bouncerControl

def reconcileBouncerChildren (now : Nat) (parent : Str) (event : RegistryEvent) : App :=
  match app.connections.get? parent, app.bouncerNetworks.get? parent with
  | some conn, some registry =>
      if app.controls parent then
        let gone := (app.children.rows.filter fun e => decide (e.2.parent = parent) &&
          covers event e.2.network.id && (registry.networks.get? e.2.network.id).isNone).map Prod.fst
        let app := gone.foldl (fun app id => app.removeBouncerChild unicode now id) app
        (registry.networks.rows.map Prod.snd).foldl
          (fun app network => app.reconcileBouncerChild sha256 unicode now parent
            conn.originConfig network) app
      else app
  | _, _ => app

/-- The child without the user's flag, ready to be reconciled. -/
def wokenChild (parent network : Str) : Option App :=
  if (app.connections.get? parent).any fun conn => decide (conn.status = .connected) then
    match app.childOf parent network with
    | none => none
    | some (id, _) =>
        if id ∈ app.ircHandles ∨ id ∈ app.forwarderHandles then none
        else some { app with children := app.children.adjust id fun child =>
          { child with manuallyDisconnected := false, suspended := true } }
  else none

def reconnectBouncerChild (now : Nat) (parent network : Str) : App :=
  match app.wokenChild parent network with
  | none => app
  | some app => app.reconcileBouncerChildren sha256 unicode now parent (.changed network)

end App

end Operations

section Events

variable (sha256 : Bytes → Bytes) (unicode : Irc.Unicode) (readTags : Irc.TagReader)

/-- What a server does until a connection is registered. -/
structure Handshake where
  detected : Bool
  provider : Option Provider
  early : List Irc.Message
  stream : List (Except Str Irc.Message)

def selection (config : ServerConfig) : Irc.Selection :=
  match config.bouncerNetworkId with
  | some network => .network network
  | none => if config.bouncerControl then .control else .automatic

/-- The identity a connection with the configuration ends registration with. -/
def Handshake.identity (handshake : Handshake) (now : Nat) (config : ServerConfig) :
    Except Irc.BindingError (Option Identity) :=
  if handshake.detected then
    (Irc.confirmRegistration unicode now (selection config) handshake.early
      handshake.stream).map fun registered => some registered.1
  else .ok none

def accountLogin (login : Str) : Str := login.takeWhile fun c => decide (c ∉ "/@".toList)

namespace App

variable (app : App)

def identityScope (accountId : Str) (conn : Connection) (identity : Identity)
    (provider : Option Provider) : Str :=
  let named := match provider with
    | some provider => provider.scopeConfig conn.originConfig
    | none => conn.originConfig
  let named := if conn.originConfig.bouncerControl ∨ conn.originConfig.bouncerNetworkId.isSome then
      named
    else { named with
      username := some (accountLogin (named.username.getD app.config.general.username))
      saslUser := named.saslUser.map accountLogin }
  let named := match identity with
    | .control => { named with bouncerControl := true }
    | .network network => { named with bouncerNetworkId := some network }
  networkScope sha256 accountId named app.config.general.username

/-- A connection whose scope changes loses what it shows of the old one. -/
def applyBouncerIdentity (id : Str) (identity : Option Identity) (provider : Option Provider) :
    App :=
  match app.connections.get? id with
  | none => app
  | some conn =>
      if (conn.originConfig.bouncerControl ∨ conn.originConfig.bouncerNetworkId.isSome) ∧
          provider ≠ some .soju then app
      else
        let accountId := ((app.children.get? id).map ChildNetwork.parent).getD id
        let scope := identity.map fun identity =>
          app.identityScope sha256 accountId conn identity provider
        let app := app.updateConnection id fun conn =>
          { conn with networkScope := scope, bouncerIdentity := identity }
        if conn.networkScope = scope then app
        else app.removeBuffers fun buffer =>
          decide (buffer.connectionId = id) && decide (buffer.bufferType ≠ .server)

def handleReady (id : Str) (identity : Option Identity) (provider : Option Provider) : App :=
  let app := app.applyBouncerIdentity sha256 id identity provider
  { app with ircHandles := insert id app.ircHandles }

def handleConnected (id : Str) : App :=
  let fresh := app.bouncerNetworks.erase id
  let fresh := if (app.connections.get? id).any Connection.bouncerControl then
      Map.insert fresh id NetworkRegistry.new
    else fresh
  let app := { app with bouncerNetworks := fresh }
  let app := app.updateConnection id fun conn =>
    { conn with status := .connected, reconnectAttempts := 0, nextReconnect := none }
  app.addMessage (makeBufferId unicode id (app.labelOf id))
    ("Connected to ".toList ++ app.labelOf id)

def changes : RegistryEvent → Bool
  | .snapshot => true
  | .changed _ => true
  | _ => false

def networkEventText (registry : NetworkRegistry) : RegistryEvent → Option Str
  | .unrelated => none
  | .pending => none
  | .snapshot => some ("Bouncer network list received: ".toList ++
      natText registry.networks.rows.length ++ " networks. Use /bouncer list.".toList)
  | .changed id => some (match registry.networks.get? id with
      | some network => networkSummary network
      | none => "Bouncer network ".toList ++ id ++ " removed".toList)
  | .invalid =>
      some "Invalid bouncer network update ignored; the previous list was retained".toList

/-- Takes the message into the registry and tells of it. -/
def announceNetworks (now : Nat) (id : Str) (message : Irc.Message) : App × RegistryEvent :=
  match app.bouncerNetworks.get? id with
  | none => (app, .unrelated)
  | some registry =>
      let handled := registry.handle readTags now message
      let app := { app with bouncerNetworks := app.bouncerNetworks.insert id handled.1 }
      match networkEventText handled.1 handled.2, app.connections.get? id with
      | some text, some conn =>
          (app.addMessage (makeBufferId unicode id conn.label) text, handled.2)
      | _, _ => (app, handled.2)

def handleBouncerNetworkMessage (now : Nat) (id : Str) (message : Irc.Message) : App :=
  let announced := app.announceNetworks unicode readTags now id message
  if changes announced.2 then
    announced.1.reconcileBouncerChildren sha256 unicode now id announced.2
  else announced.1

/-- Opens a connection the user asks for, unless it is open. -/
def spawnConnection (id : Str) (config : ServerConfig) : App :=
  if id ∈ app.ircHandles then app
  else (app.setupConnection sha256 unicode id config id).startBound id config

def cmdDisconnect (now : Nat) (id : Str) : App :=
  let app := { app with children := app.children.adjust id fun child =>
    { child with manuallyDisconnected := true } }
  let app := app.suspendBouncerChildren unicode now id
  let app := { app with bouncerNetworks := app.bouncerNetworks.erase id }
  let app := app.updateConnection id fun conn =>
    { conn with shouldReconnect := false, nextReconnect := none }
  if id ∈ app.ircHandles then app
  else (app.cancelConnectionAttempt id).handleDisconnect unicode now id none

/-- Whether the connection is down, or gone. -/
def isDisconnected (id : Str) : Bool :=
  (app.connections.get? id).all fun conn =>
    decide (conn.status = .disconnected) || decide (conn.status = .error)

/-- Closes the server buffer of a connection. -/
def cmdClose (now : Nat) (id : Str) : App :=
  if app.isDisconnected id then
    let app := app.prepareBouncerClose unicode now id
    let app := app.removeBuffers fun buffer => decide (buffer.connectionId = id)
    { app with connections := app.connections.erase id }
  else app

/-- The account a command in a buffer of the connection is about. -/
def accountOf (id : Str) : Str := ((app.children.get? id).map ChildNetwork.parent).getD id

def isDue (now : Nat) (id : Str) (conn : Connection) : Bool :=
  (decide (conn.status = .disconnected) || decide (conn.status = .error)) &&
    conn.shouldReconnect && conn.nextReconnect.any (fun due => decide (due ≤ now)) &&
    decide (id ≠ defaultConnId) && decide (id ∉ app.ircHandles)

def reconnect (id : Str) : App :=
  match app.connections.get? id with
  | none => app
  | some conn =>
      let app := app.addMessage (makeBufferId unicode id conn.label)
        ("Reconnecting to ".toList ++ conn.label ++ " (attempt ".toList ++
          natText (conn.reconnectAttempts + 1) ++ ")...".toList)
      let app := app.updateConnection id fun conn =>
        { conn with
          reconnectAttempts := conn.reconnectAttempts + 1
          nextReconnect := none
          status := .connecting }
      app.startBound id conn.originConfig

def checkReconnects (now : Nat) : App :=
  ((app.connections.rows.filter fun e => app.isDue now e.1 e.2).map Prod.fst).foldl
    (fun app id => app.reconnect unicode id) app

end App

end Events

end Repartee.Children
