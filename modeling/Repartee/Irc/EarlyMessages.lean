import Repartee.Irc.CapNegotiation
import Repartee.Irc.SaslFraming

/-!
What the negotiation hands on, and what it takes to be enabled, against everything it heard.
-/

namespace Repartee.Irc

open Text Lib

/-- The numerics of SASL. -/
def saslNumeric (code : Nat) : Bool := decide (900 ≤ code ∧ code ≤ 908)

/-- Not a part of the exchange about capabilities and SASL. -/
def unrelated (m : ServerMessage) : Bool :=
  match m.command with
  | .cap _ _ _ => false
  | .authenticate _ => false
  | .response code _ => !saslNumeric code && !refusesCap m.command
  | _ => true

def heardAt (waits : List Wait) (log : List LinkEvent) : List ServerMessage :=
  log.filterMap fun event => match event with
    | .heard wait m => if wait ∈ waits then some m else none
    | .saslFailed => none

def heard (log : List LinkEvent) : List ServerMessage := heardAt [.ls, .req, .sasl, .isupport] log

/-- What arrived while the answer to CAP LS or to the request for extended ISUPPORT was due. -/
def heardKeeping (log : List LinkEvent) : List ServerMessage := heardAt [.ls, .isupport] log

/-- What an acknowledgement changes. -/
def acknowledge (enabled : Finset Str) (m : ServerMessage) : Finset Str :=
  match m.command with
  | .cap .ack field3 field4 => updateRegistrationCaps enabled .ack field3 field4
  | _ => enabled

def LinkEvent.applyTo (enabled : Finset Str) : LinkEvent → Finset Str
  | .heard .req m | .heard .isupport m => acknowledge enabled m
  | .heard .ls _ | .heard .sasl _ => enabled
  | .saslFailed => enabled.erase saslCap

/-- The set the server acknowledged in answer to the requests, from which sasl goes when its
authentication failed. -/
def acknowledged (log : List LinkEvent) : Finset Str := log.foldl LinkEvent.applyTo ∅

/-- The token is a name alone: nothing taken back, no value. -/
def PlainToken (token : Str) : Prop := token.head? ≠ some '-' ∧ '=' ∉ token

instance (token : Str) : Decidable (PlainToken token) :=
  inferInstanceAs (Decidable (_ ∧ _))

/-- An acknowledgement in one line of plain names. -/
def PlainAnswer (m : ServerMessage) : Prop :=
  ∀ field3 field4, m.command = .cap .ack field3 field4 →
    field4 = none ∧ ∀ token ∈ splitWhitespace (field3.getD []), PlainToken token

/-- The first request was acknowledged, if it was, in one line of plain names. -/
def PlainAnswers (log : List LinkEvent) : Prop := ∀ m ∈ heardAt [.req] log, PlainAnswer m

section Log

variable (waits : List Wait) (log more : List LinkEvent)

theorem heardAt_append : heardAt waits (log ++ more) = heardAt waits log ++ heardAt waits more :=
  List.filterMap_append

theorem heardAt_map (wait : Wait) (used : List ServerMessage) :
    heardAt waits (used.map (.heard wait)) = if wait ∈ waits then used else [] := by
  induction used with
  | nil => simp [heardAt]
  | cons m rest ih =>
      have first : heardAt waits (.heard wait m :: rest.map (.heard wait)) =
          (if wait ∈ waits then [m] else []) ++ heardAt waits (rest.map (.heard wait)) := by
        by_cases member : wait ∈ waits <;> simp [heardAt, member]
      rw [List.map_cons, first, ih]
      by_cases member : wait ∈ waits <;> simp [member]

theorem acknowledged_append :
    acknowledged (log ++ more) = more.foldl LinkEvent.applyTo (acknowledged log) :=
  List.foldl_append

end Log

theorem foldl_acknowledge (wait : Wait) (counts : wait = .req ∨ wait = .isupport)
    (used : List ServerMessage) (enabled : Finset Str) :
    (used.map (.heard wait)).foldl LinkEvent.applyTo enabled =
      used.foldl acknowledge enabled := by
  rw [List.foldl_map]
  rcases counts with rfl | rfl <;> rfl

theorem foldl_unchanged (wait : Wait) (other : wait = .ls ∨ wait = .sasl)
    (used : List ServerMessage) (enabled : Finset Str) :
    (used.map (.heard wait)).foldl LinkEvent.applyTo enabled = enabled := by
  rw [List.foldl_map]
  rcases other with rfl | rfl
  · exact List.foldl_fixed used
  · exact List.foldl_fixed used

/-- The log grows by what was taken from the stream. -/
def Goes (link link' : Link) : Prop :=
  ∃ events, link'.log = link.log ++ events ∧
    messages link.incoming = heard events ++ messages link'.incoming

instance : IsPreorder Link Goes where
  refl link := ⟨[], by simp [heard, heardAt]⟩
  trans _ _ _ first second := by
    obtain ⟨events, logged, taken⟩ := first
    obtain ⟨events', logged', taken'⟩ := second
    refine ⟨events ++ events', ?_, ?_⟩
    · rw [logged', logged, List.append_assoc]
    · rw [taken, taken', ← List.append_assoc]
      exact congrArg (· ++ _) (heardAt_append _ events events').symm

variable {link : Link} {β : Type}

theorem messages_append (items items' : List ServerItem) :
    messages (items ++ items') = messages items ++ messages items' := List.filterMap_append

theorem heard_map (wait : Wait) (used : List ServerMessage) :
    heard (used.map (.heard wait)) = used := by
  unfold heard
  rw [heardAt_map]
  cases wait <;> rfl

theorem hear_takes (step : β → ServerMessage → β × Bool) (acc : β) (items : List ServerItem) :
    messages items = (hear step acc items).2.1 ++ messages (hear step acc items).2.2 := by
  induction items generalizing acc with
  | nil => rfl
  | cons item rest ih =>
      cases item with
      | failure e => rfl
      | elapsed => exact ih acc
      | message m =>
          have front : messages (.message m :: rest) = m :: messages rest := rfl
          rw [front]
          unfold hear
          simp only
          split
          · rfl
          · split
            · rfl
            · rw [ih (step acc m).1]
              rfl

/-- What a step keeps of the messages heard so far, a wait keeps of all it heard. -/
theorem hear_keeps (step : β → ServerMessage → β × Bool) (inv : List ServerMessage → β → Prop)
    (next : ∀ front acc m, inv front acc → inv (front ++ [m]) (step acc m).1)
    (items : List ServerItem) (front : List ServerMessage) (acc : β) (start : inv front acc) (b : β)
    (ran : (hear step acc items).1 = .ok b) :
    inv (front ++ (hear step acc items).2.1) b := by
  induction items generalizing front acc with
  | nil =>
      cases ran
      simpa [hear] using start
  | cons item rest ih =>
      cases item with
      | failure e => cases ran
      | elapsed => exact ih front acc start ran
      | message m =>
          unfold hear at ran ⊢
          simp only at ran ⊢
          split at ran
          · cases ran
          · rename_i allowed
            rw [if_neg allowed]
            split at ran
            · rename_i stops
              rw [if_pos stops]
              cases ran
              exact next front acc m start
            · rename_i goes
              rw [if_neg goes]
              have later := ih (front ++ [m]) (step acc m).1 (next front acc m start) ran
              rwa [List.append_assoc] at later

theorem ensures_listenFor (link : Link) (wait : Wait) (step : β → ServerMessage → β × Bool) (acc : β)
    (inv : List ServerMessage → β → Prop) (start : inv [] acc)
    (next : ∀ front acc m, inv front acc → inv (front ++ [m]) (step acc m).1) :
    Prog.Ensures Goes link (listenFor wait step acc) fun b link' =>
      ∃ used, link'.log = link.log ++ used.map (.heard wait) ∧ inv used b := by
  have moved : Goes link (listenFor wait step acc link).2 := by
    refine ⟨(hear step acc link.incoming).2.1.map (.heard wait), rfl, ?_⟩
    rw [heard_map]
    exact hear_takes step acc link.incoming
  unfold Prog.Ensures Prog.After
  rcases ran : listenFor wait step acc link with ⟨result, link'⟩
  rw [ran] at moved
  cases result with
  | error e => exact moved
  | ok b =>
      refine ⟨moved, (hear step acc link.incoming).2.1, (congrArg (fun r => r.2.log) ran).symm, ?_⟩
      exact hear_keeps step inv next link.incoming [] acc start b (congrArg Prod.fst ran)

theorem ensures_sendFrame (frame : Frame) :
    Prog.Ensures Goes link (sendFrame frame) fun _ link' => link'.log = link.log := by
  unfold Prog.Ensures Prog.After sendFrame
  by_cases fails : link.sendFails link.sends = true
  · rw [if_pos fails]
    exact ⟨[], by simp [heard, heardAt]⟩
  · rw [if_neg fails]
    exact ⟨⟨[], by simp [heard, heardAt]⟩, rfl⟩

/-- A mechanism leaves the negotiation where it stopped reading. -/
theorem ensures_exchange (flow : Prog Wire SaslError Unit) :
    Prog.Ensures Goes link (exchange flow) fun _ link' =>
      ∃ used : List ServerMessage, link'.log = link.log ++ used.map (.heard .sasl) := by
  have moved : Goes link (exchange flow link).2 := by
    refine ⟨_, rfl, ?_⟩
    rw [heard_map, ← messages_append]
    exact congrArg messages (List.take_append_drop _ _).symm
  exact ⟨moved, _, rfl⟩

theorem runMechanism_consumes (P : SaslPlatform) (params : RegistrationParams)
    (mechanism : SaslMechanism) (w : Wire) :
    Prog.Ensures Consumes w (runMechanism P params mechanism) fun _ _ => True := by
  cases mechanism with
  | external => exact consumes_runSaslExternal
  | ecdsaNist256pChallenge =>
      simp only [runMechanism]
      split
      · exact consumes_runSaslEcdsa P _ _
      · exact Prog.ensures_fail _
      · exact Prog.ensures_fail _
  | scram hash =>
      simp only [runMechanism]
      split
      · exact consumes_runSaslScram P hash _ _
      · exact Prog.ensures_fail _
  | plain =>
      simp only [runMechanism]
      split
      · exact consumes_runSaslPlain P _ _
      · exact Prog.ensures_fail _
  | oauthBearer =>
      simp only [runMechanism]
      split
      · exact consumes_runOAuthBearer P _ _
      · exact Prog.ensures_fail _

/-- What a mechanism leaves of its stream is what the negotiation goes on with. -/
theorem exchange_leaves (P : SaslPlatform) (params : RegistrationParams)
    (mechanism : SaslMechanism) (link : Link) :
    (exchange (runMechanism P params mechanism) link).2.incoming.map ServerItem.sasl =
      (runMechanism P params mechanism
        ⟨link.incoming.map ServerItem.sasl, [], link.sends, link.sendFails⟩).2.incoming := by
  have consumed := (runMechanism_consumes P params mechanism
    ⟨link.incoming.map ServerItem.sasl, [], link.sends, link.sendFails⟩).moved
  obtain ⟨used, front, -⟩ := consumed
  have lengths := congrArg List.length front
  rw [List.length_append, List.length_map] at lengths
  unfold exchange
  simp only
  rw [lengths, Nat.add_sub_cancel, List.map_drop]
  exact (congrArg (List.drop used.length) front).trans List.drop_left

/-- The messages handed on are those the keeping waits heard, apart from the exchange itself. -/
def HandsOn (early : List ServerMessage) (log : List LinkEvent) : Prop :=
  early.filter unrelated = (heardKeeping log).filter unrelated

def Enables (enabled : Finset Str) (log : List LinkEvent) : Prop :=
  PlainAnswers log → enabled = acknowledged log

theorem heardKeeping_append (log more : List LinkEvent) :
    heardKeeping (log ++ more) = heardKeeping log ++ heardKeeping more := heardAt_append _ log more

theorem heardKeeping_map (wait : Wait) (used : List ServerMessage) :
    heardKeeping (used.map (.heard wait)) = if wait ∈ [Wait.ls, Wait.isupport] then used else [] :=
  heardAt_map _ wait used

theorem HandsOn.listens {early early' : List ServerMessage} {log : List LinkEvent}
    (hands : HandsOn early log) (wait : Wait) (keeping : wait ∈ [Wait.ls, Wait.isupport])
    (used : List ServerMessage)
    (kept : early'.filter unrelated = (early ++ used).filter unrelated) :
    HandsOn early' (log ++ used.map (.heard wait)) := by
  unfold HandsOn at hands ⊢
  rw [kept, heardKeeping_append, List.filter_append, List.filter_append, hands, heardKeeping_map,
    if_pos keeping]

theorem HandsOn.ignores {early : List ServerMessage} {log : List LinkEvent}
    (hands : HandsOn early log) (more : List LinkEvent) (nothing : heardKeeping more = []) :
    HandsOn early (log ++ more) := by
  unfold HandsOn at hands ⊢
  rw [heardKeeping_append, nothing, List.append_nil, hands]

theorem PlainAnswers.before {log more : List LinkEvent} (plain : PlainAnswers (log ++ more)) :
    PlainAnswers log := by
  intro m member
  apply plain m
  rw [heardAt_append]
  exact List.mem_append_left _ member

/-- LS keeps every message that is not part of the exchange. -/
theorem lsStep_keeps (used : List ServerMessage) (ad : Advertisement) (m : ServerMessage)
    (held : ad.earlyMessages.filter unrelated = used.filter unrelated) :
    (lsStep ad m).1.earlyMessages.filter unrelated = (used ++ [m]).filter unrelated := by
  have kept : (ad.keep m).earlyMessages.filter unrelated = (used ++ [m]).filter unrelated := by
    unfold Advertisement.keep
    rw [List.filter_append, List.filter_append, held]
  have dropped (own : unrelated m = false) :
      ad.earlyMessages.filter unrelated = (used ++ [m]).filter unrelated := by
    rw [List.filter_append, List.filter_cons, own, held]
    simp
  unfold lsStep
  split
  · rename_i refused
    apply dropped
    unfold unrelated
    cases same : m.command with
    | response code args =>
        rw [same] at refused
        simp [refused]
    | cap subcommand field3 field4 => rfl
    | authenticate param => rfl
    | ping server token => rw [same] at refused; cases refused
    | raw command args => rw [same] at refused; cases refused
    | other line => rw [same] at refused; cases refused
  · split
    · exact kept
    · split
      · rename_i field3 field4 same
        split
        · exact kept
        · apply dropped
          unfold unrelated
          rw [same]
      · exact kept

theorem updateToken_plain (enabled : Finset Str) (token : Str) (plain : PlainToken token) :
    updateToken false enabled token = insert (asciiLower token) enabled := by
  obtain ⟨kept, name⟩ := plain
  have dropped : token.dropWhile (· = '-') = token := by
    cases token with
    | nil => rfl
    | cons c rest =>
        have other : c ≠ '-' := fun same => kept (by rw [same]; rfl)
        simp [other]
  have taken : token.takeWhile (· ≠ '=') = token := by
    rw [List.takeWhile_eq_self_iff]
    intro c member
    have other : c ≠ '=' := fun same => name (same ▸ member)
    simpa using other
  have unset : (false || token.head? == some '-') = false := by simpa using kept
  unfold updateToken tokenName
  rw [unset, dropped, taken]
  rfl

theorem reqStep_plain (enabled : Finset Str) (m : ServerMessage) (plain : PlainAnswer m) :
    (reqStep enabled m).1 = acknowledge enabled m := by
  unfold reqStep acknowledge
  cases same : m.command with
  | cap subcommand field3 field4 =>
      cases subcommand with
      | ack =>
          obtain ⟨oneLine, names⟩ := plain field3 field4 same
          rw [oneLine]
          have folded (tokens : List Str) (enabled : Finset Str)
              (each : ∀ token ∈ tokens, PlainToken token) :
              tokens.foldl (fun enabled cap => insert (asciiLower cap) enabled) enabled =
                tokens.foldl (updateToken false) enabled := by
            induction tokens generalizing enabled with
            | nil => rfl
            | cons token rest ih =>
                rw [List.foldl_cons, List.foldl_cons,
                  updateToken_plain enabled token (each token List.mem_cons_self)]
                exact ih _ fun other member => each other (List.mem_cons_of_mem token member)
          cases field3 with
          | none => rfl
          | some caps => exact folded (splitWhitespace caps) enabled names
      | _ => rfl
  | _ => rfl

theorem ensures_readAdvertisement (fresh : link.log = []) :
    Prog.Ensures Goes link (listenFor .ls lsStep ⟨⟨[]⟩, false, none, []⟩) fun ad link' =>
      HandsOn ad.earlyMessages link'.log ∧ Enables ∅ link'.log := by
  have listened := ensures_listenFor link .ls lsStep ⟨⟨[]⟩, false, none, []⟩
    (fun used ad => ad.earlyMessages.filter unrelated = used.filter unrelated) rfl lsStep_keeps
  apply listened.post
  rintro ad link' - ⟨used, logged, kept⟩
  rw [logged, fresh]
  constructor
  · have nothing : HandsOn [] [] := rfl
    exact nothing.listens .ls (by decide) used kept
  · intro _
    exact (foldl_unchanged .ls (Or.inl rfl) used ∅).symm

theorem ensures_requestCaps (caps : List Str) (enables : Enables ∅ link.log) :
    Prog.Ensures Goes link (requestCaps caps) fun enabled link' =>
      (∃ more, link'.log = link.log ++ more ∧ heardKeeping more = []) ∧
        Enables enabled link'.log := by
  unfold requestCaps
  apply Prog.ensures_ite
  · intro _
    exact Prog.ensures_pure ∅ ⟨⟨[], by simp [heardKeeping, heardAt]⟩, enables⟩
  · intro _
    apply (ensures_sendFrame _).bind
    intro _ link₁ _ sent
    have listened := ensures_listenFor link₁ .req reqStep ∅
      (fun used enabled => (∀ m ∈ used, PlainAnswer m) → enabled = used.foldl acknowledge ∅)
      (fun _ => rfl) (by
        intro front enabled m held plain
        rw [reqStep_plain enabled m (plain m (by simp)), List.foldl_append,
          held fun other member => plain other (List.mem_append_left _ member)]
        rfl)
    apply listened.post
    rintro enabled link' - ⟨used, logged, held⟩
    rw [logged, sent]
    refine ⟨⟨used.map (.heard .req), rfl, heardKeeping_map .req used⟩, ?_⟩
    intro plain
    have each : ∀ m ∈ used, PlainAnswer m := by
      intro m member
      apply plain m
      rw [heardAt_append, heardAt_map, if_pos (by decide)]
      exact List.mem_append_right _ member
    calc
      enabled = used.foldl acknowledge ∅ := held each
      _ = used.foldl acknowledge (acknowledged link.log) := by rw [← enables plain.before]
      _ = acknowledged (link.log ++ used.map (.heard .req)) := by
        rw [acknowledged_append, foldl_acknowledge .req (Or.inl rfl)]

theorem Enables.after_sasl {enabled : Finset Str} {log : List LinkEvent}
    (enables : Enables enabled log) (used : List ServerMessage) :
    Enables enabled (log ++ used.map (.heard .sasl)) := by
  intro plain
  rw [acknowledged_append, foldl_unchanged .sasl (Or.inr rfl)]
  exact enables plain.before

theorem Enables.after_failure {enabled : Finset Str} {log : List LinkEvent}
    (enables : Enables enabled log) :
    Enables (enabled.erase saslCap) (log ++ [.saslFailed]) := by
  intro plain
  rw [acknowledged_append, enables plain.before]
  rfl

theorem ensures_giveUpSasl (enabled : Finset Str) (enables : Enables enabled link.log) :
    Prog.Ensures Goes link (giveUpSasl enabled) fun sasl link' =>
      link'.log = link.log ++ [.saslFailed] ∧ Enables sasl.2 link'.log := by
  have noted : Prog.Ensures Goes link
      (Prog.change fun link => { link with log := link.log ++ [.saslFailed] } :
        Prog Link SaslError Unit) fun _ link' => link'.log = link.log ++ [.saslFailed] := by
    apply Prog.ensures_change
    · exact ⟨[.saslFailed], rfl, rfl⟩
    · rfl
  apply noted.bind
  intro _ link₁ _ logged
  apply (ensures_sendFrame _).bind
  intro _ link₂ _ sent
  apply Prog.ensures_pure
  rw [sent, logged]
  exact ⟨rfl, enables.after_failure⟩

theorem ensures_authenticate (P : SaslPlatform) (params : RegistrationParams)
    (mechanism : Option SaslMechanism) (saslRequested : Bool) (enabled : Finset Str)
    (enables : Enables enabled link.log) :
    Prog.Ensures Goes link (authenticate P params mechanism saslRequested enabled)
      fun sasl link' => (∃ more, link'.log = link.log ++ more ∧ heardKeeping more = []) ∧
        Enables sasl.2 link'.log := by
  have unchanged : Prog.Ensures Goes link
      (pure (false, enabled) : Prog Link SaslError (Bool × Finset Str)) fun sasl link' =>
        (∃ more, link'.log = link.log ++ more ∧ heardKeeping more = []) ∧
          Enables sasl.2 link'.log :=
    Prog.ensures_pure _ ⟨⟨[], by simp [heardKeeping, heardAt]⟩, enables⟩
  unfold authenticate
  apply Prog.ensures_ite
  · intro _
    cases mechanism with
    | none => exact unchanged
    | some mechanism =>
        apply (ensures_exchange _).bind
        rintro result link₁ - ⟨used, logged⟩
        have silent : heardKeeping (used.map (.heard .sasl)) = [] := heardKeeping_map .sasl used
        have held : Enables enabled link₁.log := by
          rw [logged]
          exact enables.after_sasl used
        have failed : Prog.Ensures Goes link₁ (giveUpSasl enabled) fun sasl link' =>
            (∃ more, link'.log = link.log ++ more ∧ heardKeeping more = []) ∧
              Enables sasl.2 link'.log := by
          apply (ensures_giveUpSasl enabled held).post
          rintro sasl link' - ⟨noted, kept⟩
          refine ⟨⟨used.map (.heard .sasl) ++ [.saslFailed], ?_, ?_⟩, kept⟩
          · rw [noted, logged, List.append_assoc]
          · rw [heardKeeping_append, silent]
            rfl
        cases result with
        | ok _ => exact Prog.ensures_pure _ ⟨⟨_, logged, silent⟩, held⟩
        | error e =>
            cases e with
            | accountRequired => exact Prog.ensures_fail _
            | stream e => exact failed
            | send => exact failed
            | eyre text => exact failed
  · intro _
    exact unchanged

theorem ensures_requestIsupport (serverCaps : ServerCaps) (enabled : Finset Str)
    (early : List ServerMessage) (hands : HandsOn early link.log)
    (enables : Enables enabled link.log) :
    Prog.Ensures Goes link (requestIsupport serverCaps enabled early) fun outcome link' =>
      HandsOn outcome.2 link'.log ∧ Enables outcome.1 link'.log := by
  unfold requestIsupport
  apply Prog.ensures_ite
  · intro _
    apply (ensures_sendFrame _).bind
    intro _ link₁ _ sent
    have listened := ensures_listenFor link₁ .isupport isupportStep (enabled, early)
      (fun used acc => acc.1 = used.foldl acknowledge enabled ∧
        acc.2.filter unrelated = (early ++ used).filter unrelated)
      ⟨rfl, by rw [List.append_nil]⟩ (by
        rintro front ⟨enabled', early'⟩ m ⟨set, kept⟩
        have own (mine : unrelated m = false) :
            early'.filter unrelated = (early ++ (front ++ [m])).filter unrelated := by
          rw [← List.append_assoc, List.filter_append, List.filter_cons, mine]
          simpa using kept
        have other : (early' ++ [m]).filter unrelated =
            (early ++ (front ++ [m])).filter unrelated := by
          rw [← List.append_assoc, List.filter_append, List.filter_append, kept]
        rw [List.foldl_append, ← set]
        unfold isupportStep acknowledge
        cases same : m.command with
        | cap subcommand field3 field4 =>
            have mine : unrelated m = false := by
              unfold unrelated
              rw [same]
            cases subcommand with
            | ack => exact ⟨by simp [same], own mine⟩
            | nak => exact ⟨by simp [same, updateRegistrationCaps], own mine⟩
            | _ => exact ⟨by simp [same], other⟩
        | _ => exact ⟨by simp [same], other⟩)
    apply listened.post
    rintro outcome link' - ⟨used, logged, set, kept⟩
    rw [logged, sent]
    refine ⟨hands.listens .isupport (by decide) used kept, ?_⟩
    intro plain
    rw [acknowledged_append, foldl_acknowledge .isupport (Or.inr rfl), set, enables plain.before]
  · intro _
    exact Prog.ensures_pure _ ⟨hands, enables⟩

theorem ensures_bindNetwork (params : RegistrationParams) (authenticated : Bool)
    (enabled : Finset Str) :
    Prog.Ensures Goes link (bindNetwork params authenticated enabled)
      fun _ link' => link'.log = link.log := by
  unfold bindNetwork
  cases params.bouncerNetworkId with
  | none => exact Prog.ensures_pure () rfl
  | some networkId =>
      apply Prog.ensures_guard_bind
      intro _
      apply Prog.ensures_guard_bind
      intro _
      exact ensures_sendFrame _

theorem ensures_concludeCaps (params : RegistrationParams) (bouncerDetected authenticated : Bool)
    (enabled : Finset Str) :
    Prog.Ensures Goes link (concludeCaps params bouncerDetected authenticated enabled)
      fun _ link' => link'.log = link.log := by
  unfold concludeCaps
  apply Prog.ensures_guard_bind
  intro _
  apply Prog.ensures_guard_bind
  intro _
  apply (ensures_bindNetwork params authenticated enabled).bind
  intro _ link₁ _ first
  have away : Prog.Ensures Goes link₁ (Prog.onlyIf (params.bouncerNetworkId.isSome &&
      !params.bouncerControl && decide ("draft/pre-away".toList ∈ enabled))
      (sendFrame (.away "*".toList))) fun _ link' => link'.log = link₁.log :=
    Prog.ensures_onlyIf _ (fun _ => ensures_sendFrame (.away "*".toList)) fun _ => rfl
  apply away.bind
  intro _ link₂ _ second
  apply (ensures_sendFrame .capEnd).post
  intro _ link₃ _ third
  rw [third, second, first]

theorem ensures_negotiateSupported (P : SaslPlatform) (toUppercase : Str → Str)
    (params : RegistrationParams) (ad : Advertisement) (bouncerDetected : Bool)
    (hands : HandsOn ad.earlyMessages link.log) (enables : Enables ∅ link.log) :
    Prog.Ensures Goes link (negotiateSupported P toUppercase params ad bouncerDetected)
      fun outcome link' =>
        HandsOn outcome.earlyMessages link'.log ∧ Enables outcome.enabledCaps link'.log := by
  unfold negotiateSupported
  apply (ensures_requestCaps _ enables).bind
  rintro acked link₁ - ⟨⟨asking, logged, silent⟩, enables₁⟩
  have hands₁ : HandsOn ad.earlyMessages link₁.log := by
    rw [logged]
    exact hands.ignores asking silent
  apply (ensures_authenticate P params _ _ acked enables₁).bind
  rintro sasl link₂ - ⟨⟨proving, logged₂, silent₂⟩, enables₂⟩
  have hands₂ : HandsOn ad.earlyMessages link₂.log := by
    rw [logged₂]
    exact hands₁.ignores proving silent₂
  apply Prog.ensures_guard_bind
  intro _
  apply (ensures_requestIsupport ad.serverCaps sasl.2 ad.earlyMessages hands₂ enables₂).bind
  rintro outcome link₃ - ⟨hands₃, enables₃⟩
  apply (ensures_concludeCaps params bouncerDetected sasl.1 outcome.1).bind
  intro _ link₄ _ same
  apply Prog.ensures_pure
  rw [same]
  exact ⟨hands₃, enables₃⟩

theorem ensures_register (frames : List Frame) :
    Prog.Ensures Goes link (Prog.each sendFrame frames) fun _ link' => link'.log = link.log :=
  Prog.ensures_each (fun link' => link'.log = link.log) frames
    (fun frame _ _ _ same => (ensures_sendFrame frame).post fun _ _ _ kept => kept.trans same) rfl

theorem ensures_negotiateCaps (P : SaslPlatform) (toUppercase : Str → Str)
    (params : RegistrationParams) (incoming : List ServerItem) (sendFails : Nat → Bool) :
    Prog.Ensures Goes (.start incoming sendFails) (negotiateCaps P toUppercase params)
      fun result link =>
        HandsOn result.earlyMessages link.log ∧ Enables result.enabledCaps link.log := by
  unfold negotiateCaps
  apply (ensures_register (registrationFrames params)).bind
  intro _ _ _ fresh
  apply (ensures_readAdvertisement fresh).bind
  rintro ad link₂ - ⟨hands, enables⟩
  apply Prog.ensures_guard_bind
  intro _
  have off : Prog.Ensures Goes link₂
      (Prog.onlyIf (ad.capSupported && ad.serverCaps.has networksCap)
        (Prog.change fun link => { link with autojoinEnabled := false }) :
        Prog Link SaslError Unit)
      fun _ link' => link'.log = link₂.log := by
    apply Prog.ensures_onlyIf
    · intro _
      exact Prog.ensures_change _ ⟨[], by simp [heard, heardAt]⟩ rfl
    · intro _
      rfl
  apply off.bind
  intro _ link₃ _ same
  rw [← same] at hands enables
  have outcomes : Prog.Ensures Goes link₃
      (negotiateWith P toUppercase params ad (ad.capSupported && ad.serverCaps.has networksCap))
      fun outcome link' =>
        HandsOn outcome.earlyMessages link'.log ∧ Enables outcome.enabledCaps link'.log := by
    apply Prog.ensures_ite
    · intro _
      exact ensures_negotiateSupported P toUppercase params ad _ hands enables
    · intro _
      exact Prog.ensures_pure _ ⟨hands, enables⟩
  apply outcomes.bind
  intro outcome link₄ _ ends
  exact Prog.ensures_pure _ ends

theorem heardKeeping_sublist (log : List LinkEvent) : (heardKeeping log).Sublist (heard log) := by
  induction log with
  | nil => exact List.Sublist.refl _
  | cons event rest ih =>
      cases event with
      | saslFailed => exact ih
      | heard wait m =>
          cases wait with
          | ls => exact ih.cons_cons m
          | req => exact ih.cons m
          | sasl => exact ih.cons m
          | isupport => exact ih.cons_cons m

/-- Whatever the server sends and in whatever order, a negotiation that ends has heard a front of
the stream. Of what is not a part of the exchange it hands on only what it heard, once and in
order, and all that arrived in the waits for the answers to CAP LS and to the second request. Its
capabilities are those the server acknowledged, without sasl when authentication failed. -/
theorem negotiation_hands_on_what_it_hears (P : SaslPlatform) (toUppercase : Str → Str)
    (params : RegistrationParams) (incoming : List ServerItem) (sendFails : Nat → Bool)
    (result : NegotiateResult) (link : Link)
    (negotiated : negotiateCaps P toUppercase params (.start incoming sendFails) =
      (.ok result, link)) :
    messages incoming = heard link.log ++ messages link.incoming ∧
    ((heardKeeping link.log).filter unrelated).Sublist (result.earlyMessages.filter unrelated) ∧
    (result.earlyMessages.filter unrelated).Sublist ((heard link.log).filter unrelated) ∧
    (PlainAnswers link.log → result.enabledCaps = acknowledged link.log) := by
  have outcome := (ensures_negotiateCaps P toUppercase params incoming sendFails).result negotiated
  obtain ⟨⟨events, logged, taken⟩, hands, enables⟩ := outcome
  have whole : link.log = events := logged
  refine ⟨?_, ?_, ?_, enables⟩
  · rw [whole]
    exact taken
  · rw [hands]
  · rw [hands]
    exact (heardKeeping_sublist link.log).filter unrelated

/-- A connection with a client certificate. -/
def certParams : RegistrationParams where
  nick := "bob".toList
  username := "bob".toList
  realname := "Bob".toList
  password := none
  saslUser := none
  saslPass := none
  saslMechanismOverride := none
  hasClientCert := true
  saslKeyPath := none
  bouncerNetworkId := none
  bouncerControl := false

def certPlatform : SaslPlatform :=
  ⟨framingCrypto, [], fun path => .error path, fun _ _ => .error []⟩

def fromServer (command : ServerCommand) : ServerItem :=
  .message ⟨some "irc.example".toList, command⟩

def capLine (subcommand : CapSubCommand) (caps : String) : ServerItem :=
  fromServer (.cap subcommand (some caps.toList) none)

def capContinued (subcommand : CapSubCommand) (caps : String) : ServerItem :=
  fromServer (.cap subcommand (some "*".toList) (some caps.toList))

def notice (text : String) : ServerItem := fromServer (.other text.toList)

def certRun (incoming : List ServerItem) : Except SaslError NegotiateResult × Link :=
  negotiateCaps certPlatform asciiUpper certParams (.start incoming fun _ => false)

/-- Notices around every wait but those for the first answer and for SASL. -/
def certStream : List ServerItem :=
  [notice "Looking up your hostname", capContinued .ls "batch",
    capLine .ls "sasl=EXTERNAL draft/extended-isupport", capLine .ack "batch sasl",
    fromServer (.authenticate "+".toList), fromServer (.response 900 []),
    fromServer (.response 903 []), notice "Logged in", capLine .ack "draft/extended-isupport",
    notice "Welcome"]

def certResult : NegotiateResult where
  bouncerDetected := false
  capServer := some "irc.example".toList
  saslAuthenticated := true
  accountRegistrationRules := none
  enabledCaps := {"draft/extended-isupport".toList, "sasl".toList, "batch".toList}
  earlyMessages := messages
    [notice "Looking up your hostname", capContinued .ls "batch", notice "Logged in"]
  multilineLimits := none

theorem negotiation_hands_on_what_it_hears_cert :
    messages certStream = heard (certRun certStream).2.log ++
      messages (certRun certStream).2.incoming ∧
    ((heardKeeping (certRun certStream).2.log).filter unrelated).Sublist
      (certResult.earlyMessages.filter unrelated) ∧
    (certResult.earlyMessages.filter unrelated).Sublist
      ((heard (certRun certStream).2.log).filter unrelated) ∧
    (PlainAnswers (certRun certStream).2.log →
      certResult.enabledCaps = acknowledged (certRun certStream).2.log) := by
  have outcome : (certRun certStream).1.toOption = some certResult := by decide +kernel
  have negotiated : certRun certStream = (.ok certResult, (certRun certStream).2) := by
    rcases ran : certRun certStream with ⟨answer, link⟩
    rw [ran] at outcome
    cases answer with
    | error e => cases outcome
    | ok result =>
        cases Option.some.inj outcome
        rfl
  exact negotiation_hands_on_what_it_hears certPlatform asciiUpper certParams certStream
    (fun _ => false) certResult (certRun certStream).2 negotiated

/-- The run ends with these capabilities, and these messages are handed on. -/
def EndsWith (run : Except SaslError NegotiateResult × Link) (enabled : Finset Str)
    (early : List ServerMessage) : Prop :=
  run.1.toOption.map NegotiateResult.enabledCaps = some enabled ∧
    run.1.toOption.map NegotiateResult.earlyMessages = some early

instance (run : Except SaslError NegotiateResult × Link) (enabled : Finset Str)
    (early : List ServerMessage) : Decidable (EndsWith run enabled early) :=
  inferInstanceAs (Decidable (_ ∧ _))

def failedSasl : List ServerItem :=
  [capLine .ls "sasl=EXTERNAL batch", capLine .ack "batch sasl", fromServer (.response 904 [])]

def noticeBeforeAck : List ServerItem :=
  [capLine .ls "batch", notice "Looking up your hostname", capLine .ack "batch"]

def splitAck : List ServerItem :=
  [capLine .ls "batch chghost", capContinued .ack "batch", capLine .ack "chghost"]

/-- SASL that was acknowledged and then failed is not enabled. Nor is a message handed on that came
before the answer to the first request, nor is an answer in two lines read. -/
theorem failed_sasl_is_not_enabled :
    (EndsWith (certRun failedSasl) {"batch".toList} [] ∧
      acknowledged ((certRun failedSasl).2.log.filter (· ≠ .saslFailed)) =
        {"batch".toList, "sasl".toList}) ∧
    (EndsWith (certRun noticeBeforeAck) {"batch".toList} [] ∧
      (heard (certRun noticeBeforeAck).2.log).filter unrelated =
        messages [notice "Looking up your hostname"]) ∧
    (EndsWith (certRun splitAck) {"*".toList} [] ∧
      acknowledged (certRun splitAck).2.log = {"batch".toList}) := by
  decide +kernel

end Repartee.Irc
