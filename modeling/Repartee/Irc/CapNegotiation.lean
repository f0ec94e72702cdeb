import Repartee.Irc.Capabilities

/-!
The opening of a connection: registration, the negotiation of capabilities and SASL, over a stream
of server messages that may say anything in any order. Every wait reads the stream with a filter of
its own; what it does not use is handed on to the reader.
-/

namespace Repartee.Irc

open Text Lib

inductive ServerCommand where
  | cap (subcommand : CapSubCommand) (field3 field4 : Option Str)
  | authenticate (param : Str)
  | response (code : Nat) (args : List Str)
  | ping (server : Str) (token : Option Str)
  | raw (command : Str) (args : List Str)
  | other (line : Str)
  deriving DecidableEq

structure ServerMessage where
  serverName : Option Str
  command : ServerCommand
  deriving DecidableEq

/-- What the SASL waits see of a message. -/
def ServerMessage.sasl (m : ServerMessage) : SaslCommand :=
  match m.command with
  | .authenticate param => .authenticate param
  | .response code _ => .response code
  | .ping server token => .raw "PING".toList (server :: token.toList)
  | .raw command args => .raw command args
  | .cap _ _ _ | .other _ => .other

/-- What the stream yields next. Only the SASL waits have a limit that can elapse. -/
inductive ServerItem where
  | message (m : ServerMessage)
  | failure (e : Str)
  | elapsed
  deriving DecidableEq

namespace ServerItem

def sasl : ServerItem → StreamItem
  | message m => .message m.sasl
  | failure e => .failure e
  | elapsed => .elapsed

def message? : ServerItem → Option ServerMessage
  | message m => some m
  | failure _ => none
  | elapsed => none

end ServerItem

def messages (items : List ServerItem) : List ServerMessage := items.filterMap ServerItem.message?

/-- The waits of the negotiation, in the order they come. -/
inductive Wait where
  | ls
  | req
  | sasl
  | isupport
  deriving DecidableEq

inductive LinkEvent where
  | heard (wait : Wait) (m : ServerMessage)
  | saslFailed
  deriving DecidableEq

inductive Frame where
  | capLs
  | pass (password : Str)
  | nick (nick : Str)
  | user (username realname : Str)
  | capReq (caps : Str)
  | authenticate (param : Str)
  | pong (param : Str)
  | bouncerBind (networkId : Str)
  | away (message : Str)
  | capEnd
  deriving DecidableEq

structure Link where
  incoming : List ServerItem
  log : List LinkEvent
  sent : List Frame
  sends : Nat
  sendFails : Nat → Bool
  autojoinEnabled : Bool

def Link.start (incoming : List ServerItem) (sendFails : Nat → Bool) : Link :=
  ⟨incoming, [], [], 0, sendFails, true⟩

def sendFrame (frame : Frame) : Prog Link SaslError Unit := fun link =>
  if link.sendFails link.sends then (.error .send, { link with sends := link.sends + 1 })
  else (.ok (), { link with sends := link.sends + 1, sent := link.sent ++ [frame] })

structure RegistrationParams where
  nick : Str
  username : Str
  realname : Str
  password : Option Str
  saslUser : Option Str
  saslPass : Option Str
  saslMechanismOverride : Option Str
  hasClientCert : Bool
  saslKeyPath : Option Str
  bouncerNetworkId : Option Str
  bouncerControl : Bool

def registrationFrames (params : RegistrationParams) : List Frame :=
  [.capLs] ++ params.password.toList.map .pass ++
    [.nick params.nick, .user params.username params.realname]

/-- The loop of the waits without a limit. The step says what to keep and whether to stop; the end
of the stream also stops it. Gives what was heard and what is left. -/
def hear {β : Type} (step : β → ServerMessage → β × Bool) :
    β → List ServerItem → Except SaslError β × List ServerMessage × List ServerItem
  | acc, [] => (.ok acc, [], [])
  | acc, item :: rest =>
      match item with
      | .failure e => (.error (.stream e), [], rest)
      | .elapsed => hear step acc rest
      | .message m =>
          if accountRequired m.sasl then (.error .accountRequired, [m], rest)
          else if (step acc m).2 then (.ok (step acc m).1, [m], rest)
          else
            let later := hear step (step acc m).1 rest
            (later.1, m :: later.2.1, later.2.2)

def listenFor {β : Type} (wait : Wait) (step : β → ServerMessage → β × Bool) (acc : β) :
    Prog Link SaslError β := fun link =>
  ((hear step acc link.incoming).1, { link with
    incoming := (hear step acc link.incoming).2.2
    log := link.log ++ (hear step acc link.incoming).2.1.map (.heard wait) })

def errUnknownCommand : Nat := 421
def rplWelcome : Nat := 1

/-- The server does not know CAP. -/
def refusesCap : ServerCommand → Bool
  | .response code args => code == errUnknownCommand && args.any (eqNocase · "CAP".toList)
  | _ => false

def isWelcome : ServerCommand → Bool
  | .response code _ => code == rplWelcome
  | _ => false

structure Advertisement where
  serverCaps : ServerCaps
  capSupported : Bool
  capServer : Option Str
  earlyMessages : List ServerMessage

def Advertisement.keep (ad : Advertisement) (m : ServerMessage) : Advertisement :=
  { ad with earlyMessages := ad.earlyMessages ++ [m] }

def Advertisement.read (ad : Advertisement) (m : ServerMessage) (caps : Str) : Advertisement :=
  { ad with serverCaps := ad.serverCaps.merge caps, capServer := m.serverName.or ad.capServer }

def lsStep (ad : Advertisement) (m : ServerMessage) : Advertisement × Bool :=
  if refusesCap m.command then (ad, true)
  else if isWelcome m.command then (ad.keep m, true)
  else match m.command with
    | .cap .ls field3 field4 =>
        if field3 = some "*".toList then ((ad.read m (field4.getD [])).keep m, false)
        else ({ ad.read m (field3.getD []) with capSupported := true }, true)
    | _ => (ad.keep m, false)

/-- Only the third field of the first answer counts; everything else is dropped. -/
def reqStep (enabled : Finset Str) (m : ServerMessage) : Finset Str × Bool :=
  match m.command with
  | .cap .ack field3 _ =>
      ((splitWhitespace (field3.getD [])).foldl (fun enabled cap => insert (asciiLower cap) enabled)
        enabled, true)
  | .cap .nak _ _ => (enabled, true)
  | _ => (enabled, false)

def isupportStep (acc : Finset Str × List ServerMessage) (m : ServerMessage) :
    (Finset Str × List ServerMessage) × Bool :=
  match m.command with
  | .cap .ack field3 field4 => ((updateRegistrationCaps acc.1 .ack field3 field4, acc.2), true)
  | .cap .nak field3 field4 => ((updateRegistrationCaps acc.1 .nak field3 field4, acc.2), true)
  | _ => ((acc.1, acc.2 ++ [m]), false)

structure SaslSelection where
  have_ : SaslCapabilities
  mechanism : Option SaslMechanism

def selectMechanism (toUppercase : Str → Str) (params : RegistrationParams)
    (serverCaps : ServerCaps) : SaslSelection :=
  let have_ : SaslCapabilities :=
    { clientCert := params.hasClientCert
      saslKey := params.saslKeyPath.isSome && params.saslUser.isSome
      password := params.saslUser.isSome && params.saslPass.isSome }
  ⟨have_, selectSaslMechanism (serverCaps.saslMechanismsAdvertised toUppercase)
    params.saslMechanismOverride have_⟩

/-- What is asked for, sasl last, and whether sasl is among it. -/
def capsToRequest (params : RegistrationParams) (serverCaps : ServerCaps) (bouncerDetected : Bool)
    (wantSasl : Bool) : List Str × Bool :=
  let desired := (serverCaps.negotiate desiredCaps).filter (· ≠ extendedIsupportCap)
  let bound := if bouncerDetected && !params.bouncerControl then
      bouncerNetworkCaps serverCaps ++
        serverCaps.negotiate ["draft/pre-away".toList, webpushCap]
    else []
  let bouncer := if bouncerDetected then
      serverCaps.negotiate ["soju.im/client-cert".toList] ++ [networksCap] ++
        (if params.bouncerNetworkId.isNone && serverCaps.has networksNotifyCap then
          [networksNotifyCap] else [])
    else []
  let all := desired ++ bound ++ bouncer
  let wanted := if wantSasl then all else all.filter (· ≠ saslCap)
  if wanted.contains saslCap then (wanted.erase saslCap ++ [saslCap], true) else (wanted, false)

def requestCaps (caps : List Str) : Prog Link SaslError (Finset Str) :=
  if caps = [] then pure ∅
  else do
    sendFrame (.capReq ([' '].intercalate caps))
    listenFor .req reqStep ∅

/-- A mechanism runs on the stream where the negotiation is. -/
def exchange (flow : Prog Wire SaslError Unit) : Prog Link SaslError (Except SaslError Unit) :=
  fun link =>
    let ran := flow ⟨link.incoming.map ServerItem.sasl, [], link.sends, link.sendFails⟩
    let count := link.incoming.length - ran.2.incoming.length
    (.ok ran.1, { link with
      incoming := link.incoming.drop count
      log := link.log ++ (messages (link.incoming.take count)).map (.heard .sasl)
      sends := ran.2.sends
      sent := link.sent ++ ran.2.log.filterMap fun event => match event with
        | .received _ => none
        | .sent .pong param => some (.pong param)
        | .sent _ param => some (.authenticate param) })

def missingCredentials (name : Str) : SaslError :=
  .eyre ("SASL ".toList ++ name ++ " selected but credentials missing".toList)

def runMechanism (P : SaslPlatform) (params : RegistrationParams) :
    SaslMechanism → Prog Wire SaslError Unit
  | .external => runSaslExternal
  | .ecdsaNist256pChallenge =>
      match params.saslKeyPath, params.saslUser with
      | some keyPath, some user => runSaslEcdsa P keyPath user
      | none, _ => Prog.fail
          (.eyre "SASL ECDSA-NIST256P-CHALLENGE selected but sasl_key_path is unset".toList)
      | _, none => Prog.fail (.eyre ("SASL ECDSA-NIST256P-CHALLENGE selected but sasl_user is " ++
          "unset — the server needs an account name to look the public key up").toList)
  | .scram hash =>
      match params.saslUser, params.saslPass with
      | some user, some pass => runSaslScram P.crypto hash user pass P.nonceBytes
      | _, _ => Prog.fail (missingCredentials hash.mechanism)
  | .oauthBearer =>
      match params.saslUser, params.saslPass with
      | some user, some token => runOAuthBearer P user token
      | _, _ => Prog.fail (missingCredentials "OAUTHBEARER".toList)
  | .plain =>
      match params.saslUser, params.saslPass with
      | some user, some pass => runSaslPlain P user pass
      | _, _ => Prog.fail (missingCredentials "PLAIN".toList)

/-- SASL that failed is no longer enabled, and the server is told that it is over. -/
def giveUpSasl (enabled : Finset Str) : Prog Link SaslError (Bool × Finset Str) := do
  Prog.change fun link => { link with log := link.log ++ [.saslFailed] }
  sendFrame (.authenticate "*".toList)
  return (false, enabled.erase saslCap)

def authenticate (P : SaslPlatform) (params : RegistrationParams)
    (mechanism : Option SaslMechanism) (saslRequested : Bool) (enabled : Finset Str) :
    Prog Link SaslError (Bool × Finset Str) :=
  if saslRequested && decide (saslCap ∈ enabled) then
    match mechanism with
    | none => pure (false, enabled)
    | some mechanism => do
        let result ← exchange (runMechanism P params mechanism)
        match result with
        | .ok () => pure (true, enabled)
        | .error .accountRequired => Prog.fail .accountRequired
        | .error _ => giveUpSasl enabled
  else pure (false, enabled)

def requestIsupport (serverCaps : ServerCaps) (enabled : Finset Str)
    (earlyMessages : List ServerMessage) : Prog Link SaslError (Finset Str × List ServerMessage) :=
  if serverCaps.has extendedIsupportCap then do
    sendFrame (.capReq extendedIsupportCap)
    listenFor .isupport isupportStep (enabled, earlyMessages)
  else pure (enabled, earlyMessages)

def emptyText (text : Option Str) : Bool := text.all (· = [])

def bouncerSaslFailed : SaslError := .eyre
  ("Bouncer SASL authentication did not succeed; remove SASL settings to use PASS-only " ++
    "authentication").toList
def bouncerCapsMissing : SaslError := .eyre
  "Bouncer control mode requires acknowledged network and batch capabilities".toList
def bouncerCapMissing : SaslError := .eyre
  "Bouncer network capability was not acknowledged".toList
def bindingNeedsLogin : SaslError := .eyre
  ("Bouncer network binding requires successful SASL authentication or a supported PASS " ++
    "login").toList
def bindingUnsupported : SaslError := .eyre
  "Server does not support bouncer network binding".toList

def bindNetwork (params : RegistrationParams) (authenticated : Bool) (enabled : Finset Str) :
    Prog Link SaslError Unit :=
  match params.bouncerNetworkId with
  | none => pure ()
  | some networkId => do
      Prog.ensure (decide (networksCap ∈ enabled)) bouncerCapMissing
      Prog.ensure (authenticated || !emptyText params.password) bindingNeedsLogin
      sendFrame (.bouncerBind networkId)

/-- The checks before the end, the binding to a network, and CAP END. -/
def concludeCaps (params : RegistrationParams) (bouncerDetected authenticated : Bool)
    (enabled : Finset Str) : Prog Link SaslError Unit := do
  Prog.ensure (!(bouncerDetected && !authenticated && !emptyText params.password &&
    (params.saslUser.isSome || params.saslPass.isSome || params.saslKeyPath.isSome ||
      params.hasClientCert || params.saslMechanismOverride.isSome))) bouncerSaslFailed
  Prog.ensure (!(bouncerDetected &&
    !(decide (networksCap ∈ enabled) && decide ("batch".toList ∈ enabled)))) bouncerCapsMissing
  bindNetwork params authenticated enabled
  Prog.onlyIf (params.bouncerNetworkId.isSome && !params.bouncerControl &&
    decide ("draft/pre-away".toList ∈ enabled)) (sendFrame (.away "*".toList))
  sendFrame .capEnd

structure Negotiated where
  enabledCaps : Finset Str
  authenticated : Bool
  earlyMessages : List ServerMessage

def negotiateSupported (P : SaslPlatform) (toUppercase : Str → Str) (params : RegistrationParams)
    (ad : Advertisement) (bouncerDetected : Bool) : Prog Link SaslError Negotiated := do
  let selected := selectMechanism toUppercase params ad.serverCaps
  let request := capsToRequest params ad.serverCaps bouncerDetected selected.mechanism.isSome
  let acked ← requestCaps request.1
  let sasl ← authenticate P params selected.mechanism request.2 acked
  Prog.ensure (!(ad.serverCaps.has accountRequiredCap && !sasl.1 && emptyText params.password &&
    !params.hasClientCert)) .accountRequired
  let outcome ← requestIsupport ad.serverCaps sasl.2 ad.earlyMessages
  concludeCaps params bouncerDetected sasl.1 outcome.1
  return ⟨outcome.1, sasl.1, outcome.2⟩

/-- A server without CAP took NICK and USER already. -/
def negotiateWith (P : SaslPlatform) (toUppercase : Str → Str) (params : RegistrationParams)
    (ad : Advertisement) (bouncerDetected : Bool) : Prog Link SaslError Negotiated :=
  if ad.capSupported then negotiateSupported P toUppercase params ad bouncerDetected
  else pure ⟨∅, false, ad.earlyMessages⟩

structure NegotiateResult where
  bouncerDetected : Bool
  capServer : Option Str
  saslAuthenticated : Bool
  accountRegistrationRules : Option Str
  enabledCaps : Finset Str
  earlyMessages : List ServerMessage
  multilineLimits : Option MultilineLimits
  deriving DecidableEq

def negotiateCaps (P : SaslPlatform) (toUppercase : Str → Str) (params : RegistrationParams) :
    Prog Link SaslError NegotiateResult := do
  Prog.each sendFrame (registrationFrames params)
  let ad ← listenFor .ls lsStep ⟨⟨[]⟩, false, none, []⟩
  Prog.ensure (!((params.bouncerNetworkId.isSome || params.bouncerControl) &&
    (!ad.capSupported || !ad.serverCaps.has networksCap))) bindingUnsupported
  let bouncerDetected := ad.capSupported && ad.serverCaps.has networksCap
  Prog.onlyIf bouncerDetected (Prog.change fun link => { link with autojoinEnabled := false })
  let outcome ← negotiateWith P toUppercase params ad bouncerDetected
  return {
    bouncerDetected := bouncerDetected
    capServer := ad.capServer
    saslAuthenticated := outcome.authenticated
    accountRegistrationRules :=
      if "draft/account-registration".toList ∈ outcome.enabledCaps then
        some ((ad.serverCaps.value "draft/account-registration".toList).getD [])
      else none
    enabledCaps := outcome.enabledCaps
    earlyMessages := outcome.earlyMessages
    multilineLimits :=
      if "draft/multiline".toList ∈ outcome.enabledCaps then
        parseLimits (ad.serverCaps.value "draft/multiline".toList)
      else none }

end Repartee.Irc
