import Repartee.Irc.Scram

/-!
The SCRAM exchange over a stream of server messages that may say anything in any order. Success
means that the server was verified, or that it said first that there was nothing to do.
-/

namespace Repartee.Irc

open Text Lib

/-- The commands of server messages, as far as the exchange looks at them. -/
inductive SaslCommand where
  | authenticate (param : Str)
  | response (code : Nat)
  | raw (command : Str) (args : List Str)
  | other
  deriving DecidableEq

/-- What the stream yields next: a message, an error, or nothing until the wait is over. The end
of the list is the end of the stream. -/
inductive StreamItem where
  | message (command : SaslCommand)
  | failure (e : Str)
  | elapsed
  deriving DecidableEq

inductive Outgoing where
  | mechanism
  | clientFirst
  | clientFinal
  | acknowledgement
  | response
  | pong
  deriving DecidableEq

inductive WireEvent where
  | received (item : StreamItem)
  | sent (what : Outgoing) (param : Str)
  deriving DecidableEq

structure Wire where
  incoming : List StreamItem
  log : List WireEvent
  /-- How often sending was tried, and which tries fail. -/
  sends : Nat
  sendFails : Nat → Bool

def chunkBytes : Nat := 400

def maxAuthenticateBytes : Nat := 8192

def rplSaslSuccess : Nat := 903
def errSaslAlready : Nat := 907

def saslFailure (code : Nat) : Option Str :=
  if code = 904 then some "SASL authentication failed".toList
  else if code = 905 then some "SASL message too long".toList
  else if code = 906 then some "SASL authentication aborted".toList
  else if code = 902 then
    some "you must use a nick assigned to you (the account is nick-locked)".toList
  else none

def saslSuccess (code : Nat) : Bool := code == rplSaslSuccess || code == errSaslAlready

inductive AuthenticateAck where
  | proceed
  | alreadyAuthenticated
  deriving DecidableEq

inductive PreChallenge where
  | unrelated
  | failed (err : Str)
  | alreadyAuthenticated
  | unverifiableSuccess

def classifyPreChallenge (code : Nat) : PreChallenge :=
  if code = errSaslAlready then .alreadyAuthenticated
  else if code = rplSaslSuccess then .unverifiableSuccess
  else match saslFailure code with
    | some err => .failed err
    | none => .unrelated

/-- The FAIL of a server that lets no one in without an account. -/
def accountRequired : SaslCommand → Bool
  | .raw command args =>
      eqNocase command "FAIL".toList && args.head? == some "*".toList &&
        (args[1]?).any fun arg => eqNocase arg "ACCOUNT_REQUIRED".toList
  | _ => false

/-- What a wait does with a message: it is over, with a result or an error, or it goes on. -/
abbrev WaitStep (α β : Type) : Type := β → SaslCommand → Except SaslError (α ⊕ β)

/-- The loop every wait runs; with the result it gives what it took from the stream and what is
left. -/
def await {α β : Type} (step : WaitStep α β) (closed timedOut : Str) :
    β → List StreamItem → Except SaslError α × List StreamItem × List StreamItem
  | _, [] => (.error (.eyre closed), [], [])
  | acc, item :: rest =>
      match item with
      | .failure e => (.error (.stream e), [item], rest)
      | .elapsed => (.error (.eyre timedOut), [item], rest)
      | .message m =>
          if accountRequired m then (.error .accountRequired, [item], rest)
          else match step acc m with
            | .error e => (.error e, [item], rest)
            | .ok (.inl a) => (.ok a, [item], rest)
            | .ok (.inr acc') =>
                let later := await step closed timedOut acc' rest
                (later.1, item :: later.2.1, later.2.2)

def plusStep : WaitStep AuthenticateAck Unit := fun _ m =>
  match m with
  | .authenticate param => if param = "+".toList then .ok (.inl .proceed) else .ok (.inr ())
  | .response code =>
      match classifyPreChallenge code with
      | .unrelated => .ok (.inr ())
      | .failed err => .error (.eyre err)
      | .alreadyAuthenticated => .ok (.inl .alreadyAuthenticated)
      | .unverifiableSuccess =>
          .error (.eyre "SASL: server reported success before offering a challenge".toList)
  | _ => .ok (.inr ())

def awaitAuthenticatePlus :
    List StreamItem → Except SaslError AuthenticateAck × List StreamItem × List StreamItem :=
  await plusStep "connection closed waiting for AUTHENTICATE +".toList
    "SASL authentication timed out waiting for AUTHENTICATE +".toList ()

variable (C : ScramCrypto)

def payloadTooLong : SaslError :=
  .eyre ("SASL: AUTHENTICATE payload exceeds ".toList ++ natText maxAuthenticateBytes ++
    " bytes".toList)

/-- The chunks joined and decoded; a lone plus carries nothing. -/
def reassembleAuthenticate (chunks : List Str) : Except SaslError Bytes := do
  let payload ← chunks.foldlM (fun payload chunk =>
    if chunk = "+".toList then .ok payload
    else if utf8Length payload + utf8Length chunk > maxAuthenticateBytes then .error payloadTooLong
    else .ok (payload ++ chunk)) ([] : Str)
  if payload = [] then return []
  (C.decode payload).mapError fun e =>
    .eyre ("SASL: invalid base64 in AUTHENTICATE: ".toList ++ e)

/-- The chunks so far and their length. -/
def payloadStep : WaitStep Bytes (List Str × Nat) := fun acc m =>
  match m with
  | .authenticate param =>
      let total := acc.2 + utf8Length param
      if total > maxAuthenticateBytes then .error payloadTooLong
      else
        let chunks := acc.1 ++ [param]
        if utf8Length param < chunkBytes then (reassembleAuthenticate C chunks).map Sum.inl
        else .ok (.inr (chunks, total))
  | .response code =>
      match saslFailure code with
      | some err => .error (.eyre err)
      | none =>
          if saslSuccess code then
            .error (.eyre ("SASL: server reported success without sending the challenge ".toList ++
              "response we need to verify it".toList))
          else .ok (.inr acc)
  | _ => .ok (.inr acc)

def awaitAuthenticatePayload :
    List StreamItem → Except SaslError Bytes × List StreamItem × List StreamItem :=
  await (payloadStep C) "connection closed waiting for AUTHENTICATE payload".toList
    "SASL authentication timed out waiting for a challenge".toList ([], 0)

def resultStep : WaitStep Unit Unit := fun _ m =>
  match m with
  | .response code =>
      if saslSuccess code then .ok (.inl ())
      else match saslFailure code with
        | some err => .error (.eyre err)
        | none => .ok (.inr ())
  | _ => .ok (.inr ())

def awaitSaslResult : List StreamItem → Except SaslError Unit × List StreamItem × List StreamItem :=
  await resultStep "SASL authentication: connection closed unexpectedly".toList
    "SASL authentication timed out waiting for a result".toList ()

/-- A command goes out, unless the sender is gone. -/
def send (what : Outgoing) (param : Str) : Prog Wire SaslError Unit := fun w =>
  if w.sendFails w.sends then (.error .send, { w with sends := w.sends + 1 })
  else (.ok (), { w with sends := w.sends + 1, log := w.log ++ [.sent what param] })

/-- A wait that reads from the stream. -/
def listen {α : Type}
    (wait : List StreamItem → Except SaslError α × List StreamItem × List StreamItem) :
    Prog Wire SaslError α := fun w =>
  ((wait w.incoming).1, { w with
    incoming := (wait w.incoming).2.2
    log := w.log ++ (wait w.incoming).2.1.map .received })

def decodeUtf8 (label : Str) (bytes : Bytes) : Except SaslError Str :=
  match fromUtf8 bytes with
  | some text => .ok text
  | none => .error (.eyre ("SCRAM: non-UTF-8 ".toList ++ label ++ ": ".toList ++ C.utf8Error bytes))

def mitm : SaslError :=
  .eyre "SCRAM: server signature verification failed — possible MITM".toList

/-- The exchange after the challenge was offered. -/
def scramExchange (hash : ScramHash) (saslUser saslPass : Str) (nonceBytes : Bytes) :
    Prog Wire SaslError Unit := do
  let first := clientFirst C saslUser nonceBytes
  Prog.each (send .clientFirst) (chunkAuthenticate (C.encode (utf8 first.2.1)))
  let serverFirstBytes ← listen (awaitAuthenticatePayload C)
  let serverFirst ← Prog.lift (decodeUtf8 C "server-first".toList serverFirstBytes)
  let final ← Prog.lift (clientFinal C hash serverFirst first.1 first.2.2 saslPass)
  Prog.each (send .clientFinal) (chunkAuthenticate (C.encode (utf8 final.1)))
  let serverFinalBytes ← listen (awaitAuthenticatePayload C)
  let serverFinal ← Prog.lift (decodeUtf8 C "server-final".toList serverFinalBytes)
  Prog.ensure (verifyServer C serverFinal final.2) mitm
  send .acknowledgement "+".toList
  listen awaitSaslResult

def runSaslScram (hash : ScramHash) (saslUser saslPass : Str) (nonceBytes : Bytes) :
    Prog Wire SaslError Unit := do
  send .mechanism hash.mechanism
  let ack ← listen awaitAuthenticatePlus
  if ack = .alreadyAuthenticated then pure ()
  else scramExchange C hash saslUser saslPass nonceBytes

def Wire.start (incoming : List StreamItem) (sendFails : Nat → Bool) : Wire :=
  ⟨incoming, [], 0, sendFails⟩

section Waits

variable {α β : Type} {step : WaitStep α β} {closed timedOut : Str}

/-- A wait that ends well took messages its step went on with, and then the one it ended with. -/
theorem await_ok (inv : List StreamItem → β → Prop)
    (next : ∀ front b m b', inv front b → step b m = .ok (.inr b') →
      inv (front ++ [.message m]) b')
    (items front : List StreamItem) (acc : β) (start : inv front acc) (a : α)
    (used rest : List StreamItem) (ran : await step closed timedOut acc items = (.ok a, used, rest)) :
    ∃ before b m, used = before ++ [.message m] ∧ inv (front ++ before) b ∧
      step b m = .ok (.inl a) := by
  induction items generalizing acc front used with
  | nil => cases ran
  | cons item later ih =>
      unfold await at ran
      cases item with
      | failure e => cases ran
      | elapsed => cases ran
      | message m =>
          simp only at ran
          split at ran
          · cases ran
          · cases stepped : step acc m with
            | error e =>
                rw [stepped] at ran
                cases ran
            | ok outcome =>
                cases outcome with
                | inl result =>
                    rw [stepped] at ran
                    cases ran
                    exact ⟨[], acc, m, rfl, by simpa using start, stepped⟩
                | inr acc' =>
                    rw [stepped] at ran
                    simp only [Prod.mk.injEq] at ran
                    obtain ⟨answer, taken, left⟩ := ran
                    obtain ⟨before, b, last, same, held, ends⟩ :=
                      ih (front ++ [.message m]) acc' (next front acc m acc' start stepped)
                        (await step closed timedOut acc' later).2.1
                        (Prod.ext answer (Prod.ext rfl left))
                    refine ⟨.message m :: before, b, last, ?_, ?_, ends⟩
                    · rw [← taken, same]
                      rfl
                    · simpa using held

end Waits

/-- The parameters of the AUTHENTICATE messages, in order. -/
def payloads (items : List StreamItem) : List Str :=
  items.filterMap fun item => match item with
    | .message (.authenticate param) => some param
    | _ => none

/-- The messages carry a payload that decodes to a text. -/
def Carries (items : List StreamItem) (text : Str) : Prop :=
  ∃ bytes, reassembleAuthenticate C (payloads items) = .ok bytes ∧ fromUtf8 bytes = some text

/-- The server said 907 and had offered no challenge. -/
def AlreadyAuthenticated (hash : ScramHash) (log : List WireEvent) : Prop :=
  ∃ items, .message (.authenticate "+".toList) ∉ items ∧
    log = .sent .mechanism hash.mechanism ::
      (items ++ [.message (.response errSaslAlready)]).map .received

/-- The whole exchange took place: after the challenge and the client-first message the server
sent a server-first message, the client answered with its proof, the server sent a server-final
message with the signature derived from the password, the salt and the iteration count of the
server-first message and both nonces, and 903 or 907 came last. -/
def Verified (hash : ScramHash) (saslUser saslPass : Str) (nonceBytes : Bytes)
    (log : List WireEvent) : Prop :=
  let first := clientFirst C saslUser nonceBytes
  ∃ opening firstItems finalItems lastItems serverFirst serverFinal proof signature sigB64 code,
    log = .sent .mechanism hash.mechanism ::
      (opening ++ [StreamItem.message (.authenticate "+".toList)]).map .received ++
      (chunkAuthenticate (C.encode (utf8 first.2.1))).map (.sent .clientFirst) ++
      firstItems.map .received ++
      (chunkAuthenticate (C.encode (utf8 proof))).map (.sent .clientFinal) ++
      finalItems.map .received ++
      [.sent .acknowledgement "+".toList] ++
      (lastItems ++ [.message (.response code)]).map .received ∧
    Carries C firstItems serverFirst ∧
    clientFinal C hash serverFirst first.1 first.2.2 saslPass = .ok (proof, signature) ∧
    Carries C finalItems serverFinal ∧
    stripPrefix "v=".toList serverFinal = some sigB64 ∧ C.decode sigB64 = .ok signature ∧
    (code = rplSaslSuccess ∨ code = errSaslAlready)

/-- A chunk of a proof answers a server-first message received before it, whose nonce extends the
client's. -/
def Answers (hash : ScramHash) (saslUser saslPass : Str) (nonceBytes : Bytes)
    (before : List WireEvent) (chunk : Str) : Prop :=
  let first := clientFirst C saslUser nonceBytes
  ∃ earlier items since serverFirst nonce proof signature,
    before = earlier ++ items.map .received ++ since ∧ Carries C items serverFirst ∧
    (readServerFirst serverFirst).combinedNonce = some nonce ∧ first.2.2 <+: nonce ∧
    clientFinal C hash serverFirst first.1 first.2.2 saslPass = .ok (proof, signature) ∧
    chunk ∈ chunkAuthenticate (C.encode (utf8 proof))

/-- Every chunk of a proof in the log answers what came before it. -/
def ProofsAnswer (hash : ScramHash) (saslUser saslPass : Str) (nonceBytes : Bytes)
    (log : List WireEvent) : Prop :=
  ∀ before chunk after, log = before ++ .sent .clientFinal chunk :: after →
    Answers C hash saslUser saslPass nonceBytes before chunk

section Proofs

variable {C} {hash : ScramHash} {saslUser saslPass : Str} {nonceBytes : Bytes}

theorem Answers.later {before : List WireEvent} {chunk : Str}
    (answers : Answers C hash saslUser saslPass nonceBytes before chunk)
    (more : List WireEvent) : Answers C hash saslUser saslPass nonceBytes (before ++ more) chunk := by
  obtain ⟨earlier, items, since, serverFirst, nonce, proof, signature, same, rest⟩ := answers
  refine ⟨earlier, items, since ++ more, serverFirst, nonce, proof, signature, ?_, rest⟩
  rw [same, List.append_assoc]

/-- Nothing that is not a proof adds to what has to be answered. -/
theorem ProofsAnswer.append {log added : List WireEvent}
    (answered : ProofsAnswer C hash saslUser saslPass nonceBytes log)
    (plain : ∀ chunk, .sent .clientFinal chunk ∉ added) :
    ProofsAnswer C hash saslUser saslPass nonceBytes (log ++ added) := by
  intro before chunk after same
  rcases List.append_eq_append_iff.mp same with ⟨middle, front, back⟩ | ⟨middle, front, back⟩
  · have inside : .sent .clientFinal chunk ∈ added := by
      rw [back]
      exact List.mem_append_right middle List.mem_cons_self
    exact absurd inside (plain chunk)
  · cases middle with
    | nil =>
        have inside : .sent .clientFinal chunk ∈ added := by
          rw [← List.nil_append added, ← back]
          exact List.mem_cons_self
        exact absurd inside (plain chunk)
    | cons event rest =>
        rw [List.cons_append, List.cons.injEq] at back
        obtain ⟨rfl, -⟩ := back
        exact answered before chunk rest front

theorem ProofsAnswer.proof {log : List WireEvent} {chunk : Str}
    (answered : ProofsAnswer C hash saslUser saslPass nonceBytes log)
    (answers : Answers C hash saslUser saslPass nonceBytes log chunk) :
    ProofsAnswer C hash saslUser saslPass nonceBytes (log ++ [.sent .clientFinal chunk]) := by
  intro before other after same
  rcases List.append_eq_append_iff.mp same with ⟨middle, front, back⟩ | ⟨middle, front, back⟩
  · cases middle with
    | nil =>
        rw [List.nil_append, List.cons.injEq] at back
        obtain ⟨event, -⟩ := back
        cases event
        rw [front, List.append_nil]
        exact answers
    | cons event rest =>
        have long := congrArg List.length back
        simp at long
  · cases middle with
    | nil =>
        rw [List.nil_append, List.cons.injEq] at back
        obtain ⟨event, -⟩ := back
        cases event
        rw [List.append_nil] at front
        rw [← front]
        exact answers
    | cons event rest =>
        rw [List.cons_append, List.cons.injEq] at back
        obtain ⟨rfl, -⟩ := back
        exact answered before other rest front

variable (C hash saslUser saslPass nonceBytes) in
/-- Proofs that answered keep answering. -/
def KeepsAnswering (w w' : Wire) : Prop :=
  ProofsAnswer C hash saslUser saslPass nonceBytes w.log →
    ProofsAnswer C hash saslUser saslPass nonceBytes w'.log

instance : IsPreorder Wire (KeepsAnswering C hash saslUser saslPass nonceBytes) where
  refl _ := fun answered => answered
  trans _ _ _ first second := fun answered => second (first answered)

variable {w : Wire}

theorem ensures_send (what : Outgoing) (param : Str) (plain : what ≠ .clientFinal) :
    Prog.Ensures (KeepsAnswering C hash saslUser saslPass nonceBytes) w (send what param)
      fun _ w' => w'.log = w.log ++ [.sent what param] := by
  unfold Prog.Ensures Prog.After send
  split
  · rename_i ran
    split at ran
    · cases ran
    · cases ran
      refine ⟨?_, rfl⟩
      intro answered
      apply answered.append
      intro chunk same
      exact plain (WireEvent.sent.inj (List.mem_singleton.mp same)).1.symm
  · rename_i ran
    split at ran
    · cases ran
      exact fun answered => answered
    · cases ran

theorem ensures_sendProof (param : Str)
    (answers : Answers C hash saslUser saslPass nonceBytes w.log param) :
    Prog.Ensures (KeepsAnswering C hash saslUser saslPass nonceBytes) w (send .clientFinal param)
      fun _ w' => w'.log = w.log ++ [.sent .clientFinal param] := by
  unfold Prog.Ensures Prog.After send
  split
  · rename_i ran
    split at ran
    · cases ran
    · cases ran
      exact ⟨fun answered => answered.proof answers, rfl⟩
  · rename_i ran
    split at ran
    · cases ran
      exact fun answered => answered
    · cases ran

/-- Chunks sent one after the other, each as allowed after those before it. -/
theorem ensures_sendAll (what : Outgoing) (chunks : List Str)
    (one : ∀ chunk ∈ chunks, ∀ w' : Wire, (∃ more, w'.log = w.log ++ more) →
      Prog.Ensures (KeepsAnswering C hash saslUser saslPass nonceBytes) w' (send what chunk)
        fun _ w'' => w''.log = w'.log ++ [.sent what chunk]) :
    Prog.Ensures (KeepsAnswering C hash saslUser saslPass nonceBytes) w
      (Prog.each (send what) chunks) fun _ w' => w'.log = w.log ++ chunks.map (.sent what) := by
  induction chunks generalizing w with
  | nil =>
      apply Prog.ensures_pure
      simp
  | cons chunk rest ih =>
      apply (one chunk List.mem_cons_self w ⟨[], by simp⟩).bind
      intro _ w' _ sent
      have later := ih (w := w') fun other member w'' further => by
        apply one other (List.mem_cons_of_mem chunk member) w''
        obtain ⟨more, grown⟩ := further
        exact ⟨.sent what chunk :: more, by rw [grown, sent]; simp⟩
      apply later.post
      intro _ w'' _ all
      rw [all, sent]
      simp

theorem ensures_listen {α : Type}
    (wait : List StreamItem → Except SaslError α × List StreamItem × List StreamItem) :
    Prog.Ensures (KeepsAnswering C hash saslUser saslPass nonceBytes) w (listen wait)
      fun a w' => ∃ used rest, wait w.incoming = (.ok a, used, rest) ∧
        w'.log = w.log ++ used.map .received := by
  have moved : KeepsAnswering C hash saslUser saslPass nonceBytes w (listen wait w).2 := by
    intro answered
    apply answered.append
    intro chunk member
    obtain ⟨item, -, same⟩ := List.mem_map.mp member
    cases same
  unfold Prog.Ensures Prog.After
  rcases ran : listen wait w with ⟨result, w'⟩
  rw [ran] at moved
  cases result with
  | error e => exact moved
  | ok a =>
      refine ⟨moved, (wait w.incoming).2.1, (wait w.incoming).2.2, ?_, ?_⟩
      · have answer : (wait w.incoming).1 = .ok a := congrArg Prod.fst ran
        rw [← answer]
      · exact (congrArg (fun r => r.2.log) ran).symm

end Proofs

section Outcomes

/-- The wait for the first challenge ends with the challenge or with 907, and never took a
challenge before. -/
theorem awaitAuthenticatePlus_ok (items used rest : List StreamItem) (ack : AuthenticateAck)
    (ran : awaitAuthenticatePlus items = (.ok ack, used, rest)) :
    ∃ before, .message (.authenticate "+".toList) ∉ before ∧
      ((ack = .proceed ∧ used = before ++ [.message (.authenticate "+".toList)]) ∨
        (ack = .alreadyAuthenticated ∧ used = before ++ [.message (.response errSaslAlready)])) := by
  have ended := await_ok (fun taken (_ : Unit) =>
      StreamItem.message (.authenticate "+".toList) ∉ taken)
    (by
      intro front _ m _ clean stepped member
      rcases List.mem_append.mp member with earlier | same
      · exact clean earlier
      · rw [← StreamItem.message.inj (List.mem_singleton.mp same)] at stepped
        cases stepped)
    items [] () (List.not_mem_nil) ack used rest ran
  obtain ⟨before, _, m, same, clean, ends⟩ := ended
  refine ⟨before, clean, ?_⟩
  cases m with
  | authenticate param =>
      unfold plusStep at ends
      simp only at ends
      split at ends
      · rename_i plus
        cases ends
        exact Or.inl ⟨rfl, by rw [same, plus]⟩
      · cases ends
  | response code =>
      unfold plusStep at ends
      simp only at ends
      unfold classifyPreChallenge at ends
      by_cases already : code = errSaslAlready
      · rw [if_pos already] at ends
        cases ends
        exact Or.inr ⟨rfl, by rw [same, already]⟩
      · rw [if_neg already] at ends
        by_cases success : code = rplSaslSuccess
        · rw [if_pos success] at ends
          cases ends
        · rw [if_neg success] at ends
          cases failed : saslFailure code with
          | none => rw [failed] at ends; cases ends
          | some err => rw [failed] at ends; cases ends
  | raw command args => cases ends
  | other => cases ends

variable {C : ScramCrypto}

/-- A payload is what the AUTHENTICATE messages taken carry. -/
theorem awaitAuthenticatePayload_ok (items used rest : List StreamItem) (bytes : Bytes)
    (ran : awaitAuthenticatePayload C items = (.ok bytes, used, rest)) :
    reassembleAuthenticate C (payloads used) = .ok bytes := by
  have ended := await_ok (fun taken (acc : List Str × Nat) => acc.1 = payloads taken)
    (by
      intro front acc m acc' held stepped
      cases m with
      | authenticate param =>
          unfold payloadStep at stepped
          simp only at stepped
          split at stepped
          · cases stepped
          · split at stepped
            · cases decoded : reassembleAuthenticate C (acc.1 ++ [param]) with
              | ok bytes => rw [decoded] at stepped; cases stepped
              | error e => rw [decoded] at stepped; cases stepped
            · cases stepped
              simp [payloads, held]
      | response code =>
          have same : acc' = acc := by
            unfold payloadStep at stepped
            simp only at stepped
            split at stepped
            · cases stepped
            · split at stepped
              · cases stepped
              · cases stepped
                rfl
          simp [payloads, same, held]
      | raw command args =>
          cases stepped
          simp [payloads, held]
      | other =>
          cases stepped
          simp [payloads, held])
    items [] ([], 0) rfl bytes used rest ran
  obtain ⟨before, acc, m, same, held, ends⟩ := ended
  cases m with
  | authenticate param =>
      unfold payloadStep at ends
      simp only at ends
      split at ends
      · cases ends
      · split at ends
        · have together : acc.1 ++ [param] = payloads used := by
            rw [held, same]
            simp [payloads]
          rw [together] at ends
          cases decoded : reassembleAuthenticate C (payloads used) with
          | ok result =>
              rw [decoded] at ends
              cases ends
              rfl
          | error e =>
              rw [decoded] at ends
              cases ends
        · cases ends
  | response code =>
      unfold payloadStep at ends
      simp only at ends
      split at ends
      · cases ends
      · split at ends
        · cases ends
        · cases ends
  | raw command args => cases ends
  | other => cases ends

/-- The last wait ends well with 903 or 907 only. -/
theorem awaitSaslResult_ok (items used rest : List StreamItem)
    (ran : awaitSaslResult items = (.ok (), used, rest)) :
    ∃ before code, used = before ++ [.message (.response code)] ∧
      (code = rplSaslSuccess ∨ code = errSaslAlready) := by
  obtain ⟨before, _, m, same, -, ends⟩ :=
    await_ok (fun _ (_ : Unit) => True) (fun _ _ _ _ _ _ => trivial) items [] () trivial () used
      rest ran
  cases m with
  | response code =>
      refine ⟨before, code, same, ?_⟩
      unfold resultStep at ends
      simp only at ends
      split at ends
      · rename_i success
        simpa [saslSuccess] using success
      · cases failed : saslFailure code with
        | none => rw [failed] at ends; cases ends
        | some err => rw [failed] at ends; cases ends
  | authenticate param => cases ends
  | raw command args => cases ends
  | other => cases ends

end Outcomes

variable {C : ScramCrypto}

theorem ensures_decodeUtf8 {α : Type} {R : Wire → Wire → Prop} [IsPreorder Wire R] {w : Wire}
    {Post : α → Wire → Prop} (label : Str) (bytes : Bytes) {g : Str → Prog Wire SaslError α}
    (rest : ∀ text, fromUtf8 bytes = some text → Prog.Ensures R w (g text) Post) :
    Prog.Ensures R w (Prog.lift (decodeUtf8 C label bytes) >>= g) Post := by
  apply Prog.ensures_lift_bind
  intro text decoded
  apply rest
  unfold decodeUtf8 at decoded
  split at decoded
  · rename_i found
    cases decoded
    exact found
  · cases decoded

/-- The exchange ends well only after the server's signature was checked. -/
theorem ensures_scramExchange (hash : ScramHash) (saslUser saslPass : Str) (nonceBytes : Bytes)
    (opening : List StreamItem) (w : Wire)
    (opened : w.log = .sent .mechanism hash.mechanism ::
      (opening ++ [StreamItem.message (.authenticate "+".toList)]).map .received) :
    Prog.Ensures (KeepsAnswering C hash saslUser saslPass nonceBytes) w
      (scramExchange C hash saslUser saslPass nonceBytes)
      fun _ w' => Verified C hash saslUser saslPass nonceBytes w'.log := by
  unfold scramExchange
  apply Prog.Ensures.bind (ensures_sendAll .clientFirst _ fun chunk _ w' _ =>
    ensures_send .clientFirst chunk (by decide))
  intro _ w₁ _ sentFirst
  apply (ensures_listen (awaitAuthenticatePayload C)).bind
  rintro serverFirstBytes w₂ - ⟨firstItems, left, heardFirst, firstLog⟩
  have carriesFirst := awaitAuthenticatePayload_ok _ _ _ _ heardFirst
  apply ensures_decodeUtf8
  intro serverFirst firstText
  apply Prog.ensures_lift_bind
  rintro ⟨proof, signature⟩ made
  have carried : Carries C firstItems serverFirst := ⟨serverFirstBytes, carriesFirst, firstText⟩
  obtain ⟨nonce, found, extends_⟩ := clientFinal_nonce C hash _ _ _ _ _ made
  apply Prog.Ensures.bind (ensures_sendAll .clientFinal _ (by
    intro chunk member w' further
    apply ensures_sendProof
    obtain ⟨more, grown⟩ := further
    exact ⟨w₁.log, firstItems, more, serverFirst, nonce, proof, signature,
      by rw [grown, firstLog], carried, found, extends_, made, member⟩))
  intro _ w₃ _ sentFinal
  apply (ensures_listen (awaitAuthenticatePayload C)).bind
  rintro serverFinalBytes w₄ - ⟨finalItems, left', heardFinal, finalLog⟩
  have carriesFinal := awaitAuthenticatePayload_ok _ _ _ _ heardFinal
  apply ensures_decodeUtf8
  intro serverFinal finalText
  apply Prog.ensures_guard_bind
  intro verified
  obtain ⟨sigB64, stripped, decoded⟩ := (verifyServer_iff C serverFinal signature).mp verified
  apply (ensures_send .acknowledgement "+".toList (by decide)).bind
  intro _ w₅ _ acknowledged
  apply (ensures_listen awaitSaslResult).post
  rintro _ w₆ - ⟨used, left'', heardResult, resultLog⟩
  obtain ⟨lastItems, code, same, success⟩ := awaitSaslResult_ok _ _ _ heardResult
  refine ⟨opening, firstItems, finalItems, lastItems, serverFirst, serverFinal, proof, signature,
    sigB64, code, ?_, carried, made, ⟨serverFinalBytes, carriesFinal, finalText⟩, stripped, decoded,
    success⟩
  rw [resultLog, acknowledged, finalLog, sentFinal, firstLog, sentFirst, opened, same]

end Repartee.Irc
