import Repartee.Irc.SaslExchange

/-!
The other mechanisms of SASL, and the choice among them. Whatever a mechanism does, it takes a
front of the stream.
-/

namespace Repartee.Irc

open Text Lib

inductive SaslMechanism where
  | external
  | ecdsaNist256pChallenge
  | scram (hash : ScramHash)
  | plain
  | oauthBearer
  deriving DecidableEq

def saslMechanisms : List SaslMechanism :=
  [.external, .ecdsaNist256pChallenge, .scram .sha512, .scram .sha256, .scram .sha1, .plain,
    .oauthBearer]

def SaslMechanism.name : SaslMechanism → Str
  | .external => "EXTERNAL".toList
  | .ecdsaNist256pChallenge => "ECDSA-NIST256P-CHALLENGE".toList
  | .scram hash => hash.mechanism
  | .plain => "PLAIN".toList
  | .oauthBearer => "OAUTHBEARER".toList

def SaslMechanism.fromName (name : Str) : Option SaslMechanism :=
  saslMechanisms.find? fun m => eqNocase m.name name

structure SaslCapabilities where
  clientCert : Bool
  saslKey : Bool
  password : Bool
  deriving DecidableEq

def SaslMechanism.prerequisiteMet (have_ : SaslCapabilities) : SaslMechanism → Bool
  | .external => have_.clientCert
  | .ecdsaNist256pChallenge => have_.saslKey
  | .scram _ | .plain | .oauthBearer => have_.password

def namesMechanism (advertised : List Str) (mech : SaslMechanism) : Bool :=
  advertised.any fun m => eqNocase m mech.name

/-- A configured mechanism is used or none is. Without one the first that the connection can use
and the server names is taken; a server that names nothing gets PLAIN. -/
def selectSaslMechanism (advertised : Option (List Str)) (override : Option Str)
    (have_ : SaslCapabilities) : Option SaslMechanism :=
  match override with
  | some name =>
      match SaslMechanism.fromName name with
      | none => none
      | some mech =>
          if mech.prerequisiteMet have_ && advertised.all (namesMechanism · mech) then some mech
          else none
  | none =>
      match advertised with
      | none => if have_.password then some .plain else none
      | some list => saslMechanisms.find? fun m =>
          m != .oauthBearer && m.prerequisiteMet have_ && namesMechanism list m

/-- What the mechanisms take from outside: the primitives, the nonce of this exchange, the file
with the key, and the signing. -/
structure SaslPlatform where
  crypto : ScramCrypto
  nonceBytes : Bytes
  loadKeyFile : Str → Except Str Bytes
  signPrehash : Bytes → Bytes → Except Str Bytes

variable (P : SaslPlatform)

def runSaslPlain (saslUser saslPass : Str) : Prog Wire SaslError Unit := do
  send .mechanism SaslMechanism.plain.name
  let ack ← listen awaitAuthenticatePlus
  if ack = .alreadyAuthenticated then pure ()
  else
    let user := saslprep P.crypto saslUser
    let pass := saslprep P.crypto saslPass
    let authString := user ++ ['\x00'] ++ user ++ ['\x00'] ++ pass
    Prog.each (send .response) (chunkAuthenticate (P.crypto.encode (utf8 authString)))
    listen awaitSaslResult

def runSaslExternal : Prog Wire SaslError Unit := do
  send .mechanism SaslMechanism.external.name
  let ack ← listen awaitAuthenticatePlus
  if ack = .alreadyAuthenticated then pure ()
  else
    send .response "+".toList
    listen awaitSaslResult

def minChallengeBytes : Nat := 16

def signChallenge (key challenge : Bytes) : Except SaslError Bytes :=
  if challenge.length < minChallengeBytes then
    .error (.eyre ("ECDSA-NIST256P-CHALLENGE: server challenge is ".toList ++
      natText challenge.length ++ " bytes, expected at least ".toList ++
      natText minChallengeBytes))
  else (P.signPrehash key challenge).mapError fun e =>
    .eyre ("ECDSA-NIST256P-CHALLENGE: cannot sign the challenge: ".toList ++ e)

def authcidPayload (user : Str) : Bytes :=
  let user := saslprep P.crypto user
  utf8 user ++ [0] ++ utf8 user

/-- The key is read before anything goes out. -/
def runSaslEcdsa (keyPath saslUser : Str) : Prog Wire SaslError Unit := do
  let key ← Prog.lift ((P.loadKeyFile keyPath).mapError SaslError.eyre)
  send .mechanism SaslMechanism.ecdsaNist256pChallenge.name
  let ack ← listen awaitAuthenticatePlus
  if ack = .alreadyAuthenticated then pure ()
  else
    Prog.each (send .response) (chunkAuthenticate (P.crypto.encode (authcidPayload P saslUser)))
    let challenge ← listen (awaitAuthenticatePayload P.crypto)
    let signature ← Prog.lift (signChallenge P key challenge)
    Prog.each (send .response) (chunkAuthenticate (P.crypto.encode signature))
    listen awaitSaslResult

def isBearerChar (c : Char) : Bool :=
  c.isAlphanum || "-._~+/=".toList.contains c

def initialResponse (user token : Str) : Except SaslError Str :=
  if user = [] || user.any isControl || token = [] || !token.all isBearerChar then
    .error (.eyre "Invalid OAUTHBEARER account or token".toList)
  else
    let identity := replaceChar ',' "=2C".toList (replaceChar '=' "=3D".toList user)
    .ok ("n,a=".toList ++ identity ++ [',', '\x01'] ++ "auth=Bearer ".toList ++ token ++
      ['\x01', '\x01'])

def took (item : StreamItem) (rest : List StreamItem) (w : Wire) : Wire :=
  { w with incoming := rest, log := w.log ++ [.received item] }

/-- The wait for the outcome, which also answers an error of the server and its pings. -/
def awaitBearerResult : List StreamItem → Nat → Bool → Prog Wire SaslError Unit
  | [], _, _ => Prog.fail (.eyre "Connection closed during OAUTHBEARER authentication".toList)
  | item :: rest, challengeBytes, errorAcknowledged => do
      Prog.change (took item rest)
      match item with
      | .failure e => Prog.fail (.stream e)
      | .elapsed => Prog.fail (.eyre "OAUTHBEARER authentication timed out".toList)
      | .message m =>
          if accountRequired m then Prog.fail .accountRequired
          else match m with
            | .response code =>
                match saslFailure code with
                | some err => Prog.fail (.eyre err)
                | none =>
                    if saslSuccess code then
                      if errorAcknowledged || challengeBytes != 0 then
                        Prog.fail (.eyre "OAUTHBEARER rejected by server".toList)
                      else pure ()
                    else awaitBearerResult rest challengeBytes errorAcknowledged
            | .authenticate chunk =>
                if errorAcknowledged || utf8Length chunk > chunkBytes then
                  Prog.fail (.eyre "Invalid OAUTHBEARER error exchange".toList)
                else if challengeBytes + utf8Length chunk > maxAuthenticateBytes then
                  Prog.fail (.eyre "OAUTHBEARER error response is too large".toList)
                else if utf8Length chunk < chunkBytes then do
                  send .response "AQ==".toList
                  awaitBearerResult rest (challengeBytes + utf8Length chunk) true
                else awaitBearerResult rest (challengeBytes + utf8Length chunk) errorAcknowledged
            | .raw command args =>
                if command = "PING".toList then do
                  send .pong ([' '].intercalate args)
                  awaitBearerResult rest challengeBytes errorAcknowledged
                else awaitBearerResult rest challengeBytes errorAcknowledged
            | .other => awaitBearerResult rest challengeBytes errorAcknowledged

def runOAuthBearer (user token : Str) : Prog Wire SaslError Unit := do
  let payload ← Prog.lift (initialResponse user token)
  send .mechanism SaslMechanism.oauthBearer.name
  let ack ← listen awaitAuthenticatePlus
  if ack = .alreadyAuthenticated then pure ()
  else
    Prog.each (send .response) (chunkAuthenticate (P.crypto.encode (utf8 payload)))
    let incoming ← Prog.read Wire.incoming
    awaitBearerResult incoming 0 false

/-- What was received, in order. -/
def receivedItems (log : List WireEvent) : List StreamItem :=
  log.filterMap fun event => match event with
    | .received item => some item
    | .sent _ _ => none

/-- What was taken from the stream is a front of it and is in the log. -/
def Consumes (w w' : Wire) : Prop :=
  ∃ used, w.incoming = used ++ w'.incoming ∧
    receivedItems w'.log = receivedItems w.log ++ used

instance : IsPreorder Wire Consumes where
  refl w := ⟨[], by simp⟩
  trans _ _ _ first second := by
    obtain ⟨used, front, logged⟩ := first
    obtain ⟨more, front', logged'⟩ := second
    refine ⟨used ++ more, ?_, ?_⟩
    · rw [front, front', List.append_assoc]
    · rw [logged', logged, List.append_assoc]

section Consumption

variable {w : Wire} {α β : Type}

theorem await_consumes (step : WaitStep α β) (closed timedOut : Str) (acc : β)
    (items : List StreamItem) :
    items = (await step closed timedOut acc items).2.1 ++
      (await step closed timedOut acc items).2.2 := by
  induction items generalizing acc with
  | nil => rfl
  | cons item rest ih =>
      unfold await
      cases item with
      | failure e => rfl
      | elapsed => rfl
      | message m =>
          simp only
          split
          · rfl
          · cases step acc m with
            | error e => rfl
            | ok outcome =>
                cases outcome with
                | inl result => rfl
                | inr acc' => exact congrArg (StreamItem.message m :: ·) (ih acc')

theorem consumes_listen (step : WaitStep α β) (closed timedOut : Str) (acc : β) :
    Prog.Ensures Consumes w (listen (await step closed timedOut acc)) fun _ _ => True := by
  have moved : Consumes w (listen (await step closed timedOut acc) w).2 := by
    refine ⟨(await step closed timedOut acc w.incoming).2.1,
      await_consumes step closed timedOut acc w.incoming, ?_⟩
    simp [listen, receivedItems, List.filterMap_append, List.filterMap_map]
  unfold Prog.Ensures Prog.After
  rcases ran : listen (await step closed timedOut acc) w with ⟨result, w'⟩
  rw [ran] at moved
  cases result with
  | error e => exact moved
  | ok a => exact ⟨moved, trivial⟩

theorem consumes_send (what : Outgoing) (param : Str) :
    Prog.Ensures Consumes w (send what param) fun _ _ => True := by
  unfold Prog.Ensures Prog.After send
  by_cases fails : w.sendFails w.sends = true
  · rw [if_pos fails]
    exact ⟨[], by simp⟩
  · rw [if_neg fails]
    exact ⟨⟨[], by simp [receivedItems]⟩, trivial⟩

theorem consumes_sendAll (what : Outgoing) (chunks : List Str) :
    Prog.Ensures Consumes w (Prog.each (send what) chunks) fun _ _ => True :=
  Prog.ensures_each (fun _ => True) chunks (fun chunk _ _ _ _ => consumes_send what chunk) trivial

theorem consumes_runSaslPlain (saslUser saslPass : Str) :
    Prog.Ensures Consumes w (runSaslPlain P saslUser saslPass) fun _ _ => True := by
  apply (consumes_send _ _).bind
  intro _ w₁ _ _
  apply (consumes_listen _ _ _ _).bind
  intro ack w₂ _ _
  apply Prog.ensures_ite
  · intro _
    exact Prog.ensures_pure () trivial
  · intro _
    apply (consumes_sendAll _ _).bind
    intro _ w₃ _ _
    exact consumes_listen _ _ _ _

theorem consumes_runSaslExternal :
    Prog.Ensures Consumes w runSaslExternal fun _ _ => True := by
  apply (consumes_send _ _).bind
  intro _ w₁ _ _
  apply (consumes_listen _ _ _ _).bind
  intro ack w₂ _ _
  apply Prog.ensures_ite
  · intro _
    exact Prog.ensures_pure () trivial
  · intro _
    apply (consumes_send _ _).bind
    intro _ w₃ _ _
    exact consumes_listen _ _ _ _

theorem consumes_runSaslEcdsa (keyPath saslUser : Str) :
    Prog.Ensures Consumes w (runSaslEcdsa P keyPath saslUser) fun _ _ => True := by
  apply Prog.ensures_lift_bind
  intro key _
  apply (consumes_send _ _).bind
  intro _ w₁ _ _
  apply (consumes_listen _ _ _ _).bind
  intro ack w₂ _ _
  apply Prog.ensures_ite
  · intro _
    exact Prog.ensures_pure () trivial
  · intro _
    apply (consumes_sendAll _ _).bind
    intro _ w₃ _ _
    apply (consumes_listen _ _ _ _).bind
    intro challenge w₄ _ _
    apply Prog.ensures_lift_bind
    intro signature _
    apply (consumes_sendAll _ _).bind
    intro _ w₅ _ _
    exact consumes_listen _ _ _ _

theorem consumes_runSaslScram (hash : ScramHash) (saslUser saslPass : Str) :
    Prog.Ensures Consumes w (runSaslScram P.crypto hash saslUser saslPass P.nonceBytes)
      fun _ _ => True := by
  apply (consumes_send _ _).bind
  intro _ w₁ _ _
  apply (consumes_listen _ _ _ _).bind
  intro ack w₂ _ _
  apply Prog.ensures_ite
  · intro _
    exact Prog.ensures_pure () trivial
  · intro _
    apply (consumes_sendAll _ _).bind
    intro _ w₃ _ _
    apply (consumes_listen _ _ _ _).bind
    intro serverFirstBytes w₄ _ _
    apply Prog.ensures_lift_bind
    intro serverFirst _
    apply Prog.ensures_lift_bind
    intro final _
    apply (consumes_sendAll _ _).bind
    intro _ w₅ _ _
    apply (consumes_listen _ _ _ _).bind
    intro serverFinalBytes w₆ _ _
    apply Prog.ensures_lift_bind
    intro serverFinal _
    apply Prog.ensures_guard_bind
    intro _
    apply (consumes_send _ _).bind
    intro _ w₇ _ _
    exact consumes_listen _ _ _ _

theorem consumes_awaitBearerResult (items : List StreamItem) (challengeBytes : Nat)
    (errorAcknowledged : Bool) (w : Wire) (all : w.incoming = items) :
    Prog.Ensures Consumes w (awaitBearerResult items challengeBytes errorAcknowledged)
      fun _ _ => True := by
  induction items generalizing challengeBytes errorAcknowledged w with
  | nil => exact Prog.ensures_fail _
  | cons item rest ih =>
      have first : Prog.Ensures Consumes w
          (Prog.change (took item rest) : Prog Wire SaslError Unit)
          fun _ w' => w'.incoming = rest := by
        apply Prog.ensures_change
        · refine ⟨[item], ?_, ?_⟩
          · rw [all]
            rfl
          · simp [took, receivedItems]
        · rfl
      unfold awaitBearerResult
      apply first.bind
      intro _ w₁ _ left
      have answered : ∀ what param bytes acknowledged, Prog.Ensures Consumes w₁
          (send what param >>= fun _ => awaitBearerResult rest bytes acknowledged)
          fun _ _ => True := by
        intro what param bytes acknowledged
        have kept : Prog.Ensures Consumes w₁ (send what param)
            fun _ w' => w'.incoming = rest := by
          unfold Prog.Ensures Prog.After send
          by_cases fails : w₁.sendFails w₁.sends = true
          · rw [if_pos fails]
            exact ⟨[], by simp⟩
          · rw [if_neg fails]
            exact ⟨⟨[], by simp [receivedItems]⟩, left⟩
        apply kept.bind
        intro _ w₂ _ left'
        exact ih _ _ w₂ left'
      cases item with
      | failure e => exact Prog.ensures_fail _
      | elapsed => exact Prog.ensures_fail _
      | message m =>
          apply Prog.ensures_ite (fun _ => Prog.ensures_fail _)
          intro _
          cases m with
          | response code =>
              simp only
              split
              · exact Prog.ensures_fail _
              · apply Prog.ensures_ite
                · intro _
                  exact Prog.ensures_ite (fun _ => Prog.ensures_fail _)
                    fun _ => Prog.ensures_pure () trivial
                · intro _
                  exact ih _ _ w₁ left
          | authenticate chunk =>
              apply Prog.ensures_ite (fun _ => Prog.ensures_fail _)
              intro _
              apply Prog.ensures_ite (fun _ => Prog.ensures_fail _)
              intro _
              exact Prog.ensures_ite (fun _ => answered _ _ _ _) fun _ => ih _ _ w₁ left
          | raw command args =>
              exact Prog.ensures_ite (fun _ => answered _ _ _ _) fun _ => ih _ _ w₁ left
          | other => exact ih _ _ w₁ left

theorem consumes_runOAuthBearer (user token : Str) :
    Prog.Ensures Consumes w (runOAuthBearer P user token) fun _ _ => True := by
  apply Prog.ensures_lift_bind
  intro payload _
  apply (consumes_send _ _).bind
  intro _ w₁ _ _
  apply (consumes_listen _ _ _ _).bind
  intro ack w₂ _ _
  apply Prog.ensures_ite
  · intro _
    exact Prog.ensures_pure () trivial
  · intro _
    apply (consumes_sendAll _ _).bind
    intro _ w₃ _ _
    apply Prog.ensures_read_bind
    exact consumes_awaitBearerResult _ _ _ w₃ rfl

end Consumption

end Repartee.Irc
