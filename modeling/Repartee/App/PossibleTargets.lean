import Repartee.App.PlainExits

/-!
The probe that keeps the text of a conversation from the shortener, next to the gate. Both ask
whether the rows of the conversation bar the way; they need not find the same connection.
-/

namespace Repartee.App

open Text Lib E2e

section Probe

variable {s : AppState} (unicode : Irc.Unicode) (connId bufferId target network : Str)

/-- The rows of a direct message as the probe goes through them. -/
def ProbeDmBarred (s : AppState) (network nick : Str) : Option Str → Prop
  | none => Barred s nick
  | some handle => Barred s (scopedContext network (contextKey nick handle)) ∨
      isBouncerScope network = false ∧ Barred s.ticked (contextKey nick handle)

/-- What the probe takes for barred. -/
def ProbeBarred (s : AppState) (network bufferId target : Str) : Prop :=
  if isChannelTarget target then ChannelBarred s (some network) target
  else looksUp s bufferId = true ∧ s.Faulty ∨
    ProbeDmBarred (lookedUp s bufferId) network target (liveHandle s bufferId target)

/-- One row of the keyring, read. -/
def probeRow (context : Str) : AppAction Bool := do
  let cfg ← keyring (·.getChannelConfig context)
  return isEnabled cfg

theorem probeRow_free (context : Str) (free : ¬Barred s context) :
    probeRow context s = (.ok false, s.ticked) := by
  rw [Barred, not_or] at free
  rw [probeRow, Prog.bind_of_ok (keyring_answers (fun kr => kr.getChannelConfig context) free.1),
    Bool.eq_false_iff.mpr free.2]
  rfl

theorem probeRow_barred (context : Str) (barred : Barred s context) :
    probeRow context s = (.ok true, s.ticked) ∨ ∃ e, probeRow context s = (.error e, s.ticked) := by
  by_cases faulty : s.Faulty
  · obtain ⟨e, failed⟩ := keyring_fails (fun kr => kr.getChannelConfig context) faulty
    exact .inr ⟨e, Prog.bind_of_error failed⟩
  · left
    rw [probeRow, Prog.bind_of_ok (keyring_answers (fun kr => kr.getChannelConfig context) faulty),
      barred.resolve_left faulty]
    rfl

theorem probeRow_iff (context : Str) :
    (probeRow context s).1 = .ok false ↔ ¬Barred s context := by
  by_cases barred : Barred s context
  · rcases probeRow_barred context barred with yes | ⟨e, failed⟩
    · simp [yes, barred]
    · simp [failed, barred]
  · simp [probeRow_free context barred, barred]

theorem probeRows_nil : (([] : List Str).anyM probeRow s).1 = .ok false := rfl

theorem probeRows_iff (context : Str) (rest : List Str) :
    ((context :: rest).anyM probeRow s).1 = .ok false ↔
      ¬Barred s context ∧ (rest.anyM probeRow s.ticked).1 = .ok false := by
  rw [List.anyM_cons]
  by_cases barred : Barred s context
  · rcases probeRow_barred context barred with yes | ⟨e, failed⟩
    · rw [Prog.bind_of_ok yes]
      exact ⟨fun no => (by cases no), fun both => absurd barred both.1⟩
    · rw [Prog.bind_of_error failed]
      exact ⟨fun no => (by cases no), fun both => absurd barred both.1⟩
  · rw [Prog.bind_of_ok (probeRow_free context barred)]
    simp [barred]

theorem possibleChannel_iff :
    (possibleChannel network target s).1 = .ok false ↔ ¬ChannelBarred s (some network) target := by
  by_cases faulty : s.Faulty
  · obtain ⟨e, failed⟩ :=
      keyring_fails (fun kr => kr.canonicalChannelContext (scopedContext network target)) faulty
    have stops : canonicalContext (scopedContext network target) s = (.error e, s.ticked) :=
      Prog.bind_of_error failed
    rw [possibleChannel, Prog.bind_of_error stops]
    simp [ChannelBarred, faulty]
  · have reads : canonicalContext (scopedContext network target) s =
        (.ok (channelContext s.keyring (some network) target), s.ticked) :=
      Prog.bind_of_ok (keyring_answers
        (fun kr => kr.canonicalChannelContext (scopedContext network target)) faulty)
    have last : possibleChannel network target s =
        probeRow (channelContext s.keyring (some network) target) s.ticked :=
      Prog.bind_of_ok reads
    rw [last, probeRow_iff]
    simp [ChannelBarred, faulty]

theorem possibleQuery_iff (loaded : s.e2eLoaded = true) :
    (possibleQuery network bufferId target s).1 = .ok false ↔
      ¬(looksUp s bufferId = true ∧ s.Faulty ∨
        ProbeDmBarred (lookedUp s bufferId) network target (liveHandle s bufferId target)) := by
  by_cases unread : looksUp s bufferId = true ∧ s.Faulty
  · obtain ⟨e, failed⟩ := resolve_fails bufferId target loaded unread.1 unread.2
    rw [possibleQuery, Prog.bind_of_error failed]
    simp [unread]
  · have answers : looksUp s bufferId = true → ¬s.Faulty := fun looks faulty =>
      unread ⟨looks, faulty⟩
    rw [possibleQuery, Prog.bind_of_ok (resolve_answers bufferId target loaded answers)]
    simp only [unread, false_or]
    generalize lookedUp s bufferId = t
    cases liveHandle s bufferId target with
    | none => exact probeRow_iff target
    | some handle =>
        show ((scopedContext network (contextKey target handle) ::
          if isBouncerScope network then [] else [contextKey target handle]).anyM probeRow t).1 =
            .ok false ↔ _
        rw [probeRows_iff, ProbeDmBarred, not_or]
        apply and_congr_right
        intro _
        cases isBouncerScope network with
        | true => exact ⟨fun _ => by simp, fun _ => probeRows_nil⟩
        | false =>
            rw [if_neg (by simp), probeRows_iff]
            simp only [probeRows_nil, and_true, true_and]

/-- The label the probe looks under: none for a connection that is gone. -/
def probeNetwork (s : AppState) (connId : Str) : Str :=
  ((s.connections.get? connId).map Connection.networkKey).getD []

/-- A failure anywhere is a yes. -/
theorem e2ePossible_eq :
    (e2ePossibleForTarget unicode connId target s).1 =
      .ok ((possibleForTarget unicode connId target s).1.toOption.getD true) := by
  cases ran : possibleForTarget unicode connId target s with
  | mk answer s' =>
      rw [e2ePossibleForTarget, Prog.bind_of_ok (Prog.attempt_of ran)]
      cases answer <;> rfl

theorem e2ePossible_iff :
    (e2ePossibleForTarget unicode connId target s).1 = .ok false ↔
      (possibleForTarget unicode connId target s).1 = .ok false := by
  rw [e2ePossible_eq]
  cases (possibleForTarget unicode connId target s).1 with
  | ok possible => simp [Except.toOption]
  | error e => simp [Except.toOption]

/-- What is left of the probe behind the confirmation. -/
theorem possible_iff {t : AppState}
    (asked : bouncerE2eNeedsConfirmation unicode connId target s = (.ok false, t)) :
    (e2ePossibleForTarget unicode connId target s).1 = .ok false ↔
      (t.e2eLoaded = true → ¬ProbeBarred t (probeNetwork t connId)
        (Irc.makeBufferId unicode connId target) target) := by
  have first : (Prog.read id t : Except E2eError AppState × AppState) = (.ok t, t) := rfl
  rw [e2ePossible_iff, possibleForTarget, Prog.bind_of_ok asked]
  simp only [Bool.false_eq_true, if_false]
  rw [Prog.bind_of_ok first]
  unfold ProbeBarred
  cases loaded : t.e2eLoaded with
  | false =>
      constructor
      · intro _ absurd
        cases absurd
      · exact fun _ => rfl
  | true =>
      simp only [Bool.not_true, Bool.false_eq_true, if_false, forall_const]
      cases isChannelTarget target with
      | true => exact possibleChannel_iff target (probeNetwork t connId)
      | false => exact possibleQuery_iff _ target (probeNetwork t connId) loaded

/-- The probe says yes where a confirmation is due or cannot be decided. -/
theorem possible_of_asked
    (asked : (bouncerE2eNeedsConfirmation unicode connId target s).1 ≠ .ok false) :
    (e2ePossibleForTarget unicode connId target s).1 ≠ .ok false := by
  rw [ne_eq, e2ePossible_iff]
  cases ran : bouncerE2eNeedsConfirmation unicode connId target s with
  | mk answer t =>
      rw [ran] at asked
      cases answer with
      | error e =>
          rw [possibleForTarget, Prog.bind_of_error ran]
          exact fun no => by cases no
      | ok needed =>
          cases needed with
          | false => exact absurd rfl asked
          | true =>
              rw [possibleForTarget, Prog.bind_of_ok ran]
              exact fun no => by cases no

end Probe

section Gate

variable (P : Platform) {s : AppState} (unicode : Irc.Unicode) (connId bufferId target text : Str)

/-- What the gate takes for barred. -/
def GateBarred (s : AppState) (bufferId target : Str) : Prop :=
  if isChannelTarget target then ChannelBarred s (s.networkOf bufferId) target
  else looksUp s bufferId = true ∧ s.Faulty ∨
    DmBarred (lookedUp s bufferId) (s.networkOf bufferId) target (liveHandle s bufferId target)

def targetType (target : Str) : BufferType := if isChannelTarget target then .channel else .query

/-- Neither encrypted nor refused: the lines of the text as it is. -/
def PlainPlan (s : AppState) : Prop :=
  (e2eSendPlanForTarget P unicode connId target text s).1.map E2eSendPlan.wireLines =
    .ok (splitIrcMessage text messageMaxBytes)

theorem plainPlan_iff :
    PlainPlan P unicode connId target text s ↔
      (e2eEncryptOrPassthrough P unicode (Irc.makeBufferId unicode connId target) target
        (targetType target) text none s).1.map Prod.fst =
          .ok (splitIrcMessage text messageMaxBytes) := by
  unfold PlainPlan e2eSendPlanForTarget targetType
  cases ran : e2eEncryptOrPassthrough P unicode (Irc.makeBufferId unicode connId target) target
      (if isChannelTarget target then .channel else .query) text none s with
  | mk answer s' =>
      cases answer with
      | ok out => rw [Prog.bind_of_ok ran]; rfl
      | error refusal => rw [Prog.bind_of_error ran]; rfl

theorem gateRest_exits (loaded : s.e2eLoaded = true) :
    Exits P text (GateBarred s bufferId target)
      (gateRest P bufferId target (targetType target) text none s).1 := by
  unfold GateBarred targetType
  cases isChannelTarget target with
  | true => exact sendToChannel_exits P s bufferId target text
  | false =>
      by_cases unread : looksUp s bufferId = true ∧ s.Faulty
      · apply (sendToQuery_fails P bufferId target text none loaded unread.1 unread.2).iff_of_iff
        simp [unread]
      · have answers : looksUp s bufferId = true → ¬s.Faulty := fun looks faulty =>
          unread ⟨looks, faulty⟩
        apply (sendToQuery_answers P bufferId target text none loaded answers).iff_of_iff
        simp [unread]

/-- A program that ends without an error. -/
abbrev Completes {α : Type} (s : AppState) (m : Gate α) : Prop :=
  Prog.After s m (fun _ _ => True) fun _ _ => False

theorem completes_bind {α β : Type} {m : Gate α} {f : α → Gate β} (first : Completes s m)
    (rest : ∀ a s, Completes s (f a)) : Completes s (m >>= f) :=
  (Prog.after_bind m f).mpr (first.mono (fun a s' _ => rest a s') fun _ _ absurd => absurd)

theorem orElse_completes {α : Type} (fallback : α) (m : AppAction α) :
    Completes s (orElse fallback m) := by
  apply completes_bind
  · rw [Completes, Prog.after_mapError, Prog.after_attempt]
    unfold Prog.After
    split <;> trivial
  · intro found s'
    cases found <;> trivial

theorem completes_read {α : Type} (f : AppState → α) : Completes s (Prog.read f) := trivial

theorem completes_pure {α : Type} (a : α) : Completes s (pure a : Gate α) := trivial

theorem e2eEnabledForTarget_completes :
    Completes s (e2eEnabledForTarget unicode connId target) := by
  apply completes_bind (completes_read id)
  intro t s'
  rw [Completes, Prog.after_ite]
  refine ⟨fun _ => trivial, fun _ => ?_⟩
  have asks (ctx : Str) (s : AppState) : Completes s (do
      let cfg ← orElse none (keyring (·.getChannelConfig ctx))
      return isEnabled cfg) :=
    completes_bind (orElse_completes _ _) fun _ _ => completes_pure _
  apply (Prog.after_ite _ _ _).mpr
  constructor
  · intro _
    apply completes_bind (orElse_completes _ _)
    exact fun canonical s₁ => asks _ s₁
  · intro _
    apply completes_bind (orElse_completes _ _)
    intro handle s₁
    cases handle with
    | none => trivial
    | some handle => exact asks _ s₁

/-- Warning of a line for bots never stops it. -/
theorem warn_completes (bufferName : Str) :
    Completes s (warnE2eBotBypass unicode bufferId bufferName) := by
  apply completes_bind (completes_read id)
  intro t s'
  cases t.connectionOf bufferId with
  | none => trivial
  | some connId =>
      apply completes_bind (e2eEnabledForTarget_completes unicode connId bufferName)
      intro enabled s''
      rw [Completes, Prog.after_ite]
      exact ⟨fun _ => trivial, fun _ => trivial⟩

/-- The connection the gate asks for a confirmation. -/
def gateConnection (bufferId : Str) : Str := ((splitOnce '/' bufferId).map Prod.fst).getD []

theorem splitOnce_bufferId :
    ∃ rest, splitOnce '/' (Irc.makeBufferId unicode connId target) =
      some (gateConnection (Irc.makeBufferId unicode connId target), rest) := by
  unfold gateConnection
  cases split : splitOnce '/' (Irc.makeBufferId unicode connId target) with
  | none =>
      have absent := (splitOnce_eq_none _ _).mp split
      exact absurd (by simp [Irc.makeBufferId]) absent
  | some parts => exact ⟨parts.2, rfl⟩

theorem confirm_eq :
    let bufferId := Irc.makeBufferId unicode connId target
    confirmBouncer unicode bufferId target (targetType target) s =
      (gateRead (bouncerE2eNeedsConfirmation unicode (gateConnection bufferId) target) >>=
        fun needed => Prog.ensure (!needed) .bouncerScopeChanged : Gate Unit) s := by
  intro bufferId
  obtain ⟨rest, split⟩ := splitOnce_bufferId unicode connId target
  have checks : bouncerCheck unicode bufferId target (targetType target) =
      bouncerE2eNeedsConfirmation unicode (gateConnection bufferId) target := by
    have typed : targetType target = .channel ∨ targetType target = .query := by
      unfold targetType
      split <;> simp
    rw [bouncerCheck, if_pos typed]
    simp only [bufferId, split]
  rw [confirmBouncer, checks]

/-- The gate lets every text for the target out in the clear: no confirmation is due, and no row
bars the way. -/
def GateClear (s : AppState) : Prop :=
  let bufferId := Irc.makeBufferId unicode connId target
  let asked := bouncerE2eNeedsConfirmation unicode (gateConnection bufferId) target s
  asked.1 = .ok false ∧ (asked.2.e2eLoaded = true → ¬GateBarred asked.2 bufferId target)

theorem confirmed {t : AppState}
    (asked : bouncerE2eNeedsConfirmation unicode
      (gateConnection (Irc.makeBufferId unicode connId target)) target s = (.ok false, t)) :
    confirmBouncer unicode (Irc.makeBufferId unicode connId target) target (targetType target) s =
      (.ok (), t) := by
  rw [confirm_eq, Prog.bind_of_ok (gateRead_of_ok asked)]
  rfl

theorem gate_unloaded {t : AppState} {bufferName : Str} {bufferType : BufferType}
    (typed : isBotCommand bufferType text = false) (unloaded : t.e2eLoaded = false)
    (passes : confirmBouncer unicode bufferId bufferName bufferType s = (.ok (), t)) :
    (e2eEncryptOrPassthrough P unicode bufferId bufferName bufferType text none s).1 =
      .ok (plainPassthrough text) := by
  have first : (Prog.read AppState.e2eLoaded t : Except E2eRefusal Bool × AppState) =
      (.ok false, t) := by
    rw [← unloaded]
    rfl
  unfold e2eEncryptOrPassthrough
  rw [Prog.bind_of_ok passes, if_neg (Bool.eq_false_iff.mp typed), Prog.bind_of_ok first]
  rfl

theorem gate_bots {t : AppState} {bufferName : Str} {bufferType : BufferType}
    (typed : isBotCommand bufferType text = true)
    (passes : confirmBouncer unicode bufferId bufferName bufferType s = (.ok (), t)) :
    (e2eEncryptOrPassthrough P unicode bufferId bufferName bufferType text none s).1 =
      .ok (plainPassthrough text) := by
  have warned := warn_completes (s := t) unicode bufferId bufferName
  unfold e2eEncryptOrPassthrough
  rw [Prog.bind_of_ok passes, if_pos typed]
  cases ran : warnE2eBotBypass unicode bufferId bufferName t with
  | mk answer t' =>
      rw [Completes, Prog.After, ran] at warned
      cases answer with
      | ok _ =>
          rw [Prog.bind_of_ok ran]
          rfl
      | error refusal => exact warned.elim

theorem plain_of_clear (clear : GateClear unicode connId target s) :
    PlainPlan P unicode connId target text s := by
  obtain ⟨no, free⟩ := clear
  have passes := confirmed unicode connId target (Prod.ext no rfl)
  rw [plainPlan_iff]
  have plain : (e2eEncryptOrPassthrough P unicode (Irc.makeBufferId unicode connId target) target
      (targetType target) text none s).1 = .ok (plainPassthrough text) := by
    cases typed : isBotCommand (targetType target) text with
    | true => exact gate_bots P unicode _ text typed passes
    | false =>
        cases loaded : (bouncerE2eNeedsConfirmation unicode
            (gateConnection (Irc.makeBufferId unicode connId target)) target s).2.e2eLoaded with
        | false => exact gate_unloaded P unicode _ text typed loaded passes
        | true =>
            rw [gate_rest typed loaded passes]
            exact (gateRest_exits P _ target text loaded).clear (free loaded)
  rw [plain]
  rfl

/-- The empty text, which is no ciphertext, tells. -/
theorem clear_of_plain (plain : PlainPlan P unicode connId target [] s) :
    GateClear unicode connId target s := by
  rw [plainPlan_iff] at plain
  have typed : isBotCommand (targetType target) [] = false := by simp [isBotCommand]
  cases asked : bouncerE2eNeedsConfirmation unicode
      (gateConnection (Irc.makeBufferId unicode connId target)) target s with
  | mk answer t =>
      have refused (refusal : E2eRefusal)
          (stops : (confirmBouncer unicode (Irc.makeBufferId unicode connId target) target
            (targetType target) s).1 = .error refusal) : False := by
        cases ran : confirmBouncer unicode (Irc.makeBufferId unicode connId target) target
            (targetType target) s with
        | mk answer s' =>
            rw [ran] at stops
            cases stops
            unfold e2eEncryptOrPassthrough at plain
            rw [Prog.bind_of_error ran] at plain
            cases plain
      cases answer with
      | error e =>
          refine (refused .keyringRead ?_).elim
          rw [confirm_eq, Prog.bind_of_error (gateRead_of_error asked)]
      | ok needed =>
          cases needed with
          | true =>
              refine (refused .bouncerScopeChanged ?_).elim
              rw [confirm_eq, Prog.bind_of_ok (gateRead_of_ok asked)]
              rfl
          | false =>
              have passes := confirmed unicode connId target asked
              rw [GateClear, asked]
              refine ⟨rfl, fun loaded barred => ?_⟩
              rw [gate_rest typed loaded passes] at plain
              have sealed := (gateRest_exits P _ target [] loaded).closed barred
              cases sent : (gateRest P (Irc.makeBufferId unicode connId target) target
                  (targetType target) [] none t).1 with
              | error refusal =>
                  rw [sent] at plain
                  cases plain
              | ok out =>
                  rw [sent] at plain sealed
                  have lines : out.1 = [[]] := Except.ok.inj plain
                  obtain ⟨rest, starts⟩ := wirePrefix_of_ciphertextLine P []
                    (sealed out rfl [] (by simp [lines]))
                  cases starts

end Gate

section Views

variable {s : AppState} (bufferId target : Str)

theorem splitOnce_front (separator : Char) (front back : Str) :
    (splitOnce separator (front ++ separator :: back)).map Prod.fst =
      some (((splitOnce separator front).map Prod.fst).getD front) := by
  induction front with
  | nil => simp [splitOnce]
  | cons c rest ih =>
      rw [List.cons_append, splitOnce, splitOnce]
      split
      · rfl
      · rw [Option.map_map]
        cases split : splitOnce separator (rest ++ separator :: back) with
        | none =>
            rw [split] at ih
            cases ih
        | some parts =>
            rw [split] at ih
            cases inner : splitOnce separator rest with
            | none =>
                rw [inner] at ih
                simp_all
            | some within =>
                rw [inner] at ih
                simp_all

/-- A context belongs to a bouncer when its label does. -/
theorem isBouncerScope_scoped (network wire : Str) :
    isBouncerScope (scopedContext network wire) = isBouncerScope network := by
  have front := splitOnce_front contextNetSeparator network wire
  obtain ⟨outside, split, same⟩ := Option.map_eq_some_iff.mp front
  unfold isBouncerScope scopedContext
  rw [split]
  cases inside : splitOnce contextNetSeparator network with
  | none =>
      rw [inside] at same
      simp only [same, Option.map_none, Option.getD_none]
  | some parts =>
      rw [inside] at same
      simp only [same, Option.map_some, Option.getD_some]

/-- Under one network both bar the same. -/
theorem barred_agree {net : Str} (network : s.networkOf bufferId = some net) :
    ProbeBarred s net bufferId target ↔ GateBarred s bufferId target := by
  unfold ProbeBarred GateBarred
  rw [network]
  cases isChannelTarget target with
  | true => exact Iff.rfl
  | false =>
      apply or_congr_right
      cases liveHandle s bufferId target with
      | none => exact Iff.rfl
      | some handle =>
          simp [ProbeDmBarred, DmBarred, BarredUnder, scopeUnder, isBouncerScope_scoped]

/-- A direct message on a connection that is gone goes by its unscoped rows, and these the probe
reads as well. -/
theorem dm_of_gone (gone : s.networkOf bufferId = none) (query : isChannelTarget target = false)
    (free : ¬ProbeBarred s [] bufferId target) : ¬GateBarred s bufferId target := by
  unfold ProbeBarred at free
  unfold GateBarred
  have unread : looksUp s bufferId = false := by simp [looksUp, gone]
  have same : lookedUp s bufferId = s := by simp [lookedUp, unread]
  simp only [query, Bool.false_eq_true, if_false, unread, false_and, false_or, same, gone]
    at free ⊢
  cases handle : liveHandle s bufferId target with
  | none =>
      rw [handle] at free
      exact free
  | some h =>
      rw [handle, ProbeDmBarred, not_or] at free
      have outside : isBouncerScope [] = false := by decide
      obtain ⟨calm, idle⟩ := free
      rw [outside, Barred] at idle
      simp only [true_and, not_or, ticked_keyring] at idle
      rw [Barred, not_or] at calm
      simp [DmBarred, BarredUnder, scopeUnder, Barred, calm.1, idle.1, idle.2]

end Views

section Main

variable (P : Platform) {s : AppState} (unicode : Irc.Unicode) (connId target : Str)

/-- The probe finds nothing: no confirmation is due, and no row bars the way. -/
def ProbeClear (s : AppState) : Prop :=
  let asked := bouncerE2eNeedsConfirmation unicode connId target s
  asked.1 = .ok false ∧ (asked.2.e2eLoaded = true →
    ¬ProbeBarred asked.2 (probeNetwork asked.2 connId) (Irc.makeBufferId unicode connId target)
      target)

/-- The id of the target's buffer leads back to the connection. -/
def LeadsBack (s : AppState) : Prop :=
  '/' ∉ connId ∧ ∀ buf, s.buffers.get? (Irc.makeBufferId unicode connId target) = some buf →
    buf.connectionId = connId

/-- A channel of a connection that is gone, enabled by a row filed under its bare name and not by
one under the label of no network. -/
structure BareChannel (s : AppState) : Prop where
  gone : s.connections.get? connId = none
  loaded : s.e2eLoaded = true
  channel : isChannelTarget target = true
  reads : ¬s.Faulty ∧ ¬s.ticked.Faulty
  bare : isEnabled (s.keyring.getChannelConfig (channelContext s.keyring none target)) = true
  unlabelled :
    isEnabled (s.keyring.getChannelConfig (channelContext s.keyring (some []) target)) = false

theorem probe_iff :
    (e2ePossibleForTarget unicode connId target s).1 = .ok false ↔
      ProbeClear unicode connId target s := by
  by_cases asked : (bouncerE2eNeedsConfirmation unicode connId target s).1 = .ok false
  · rw [possible_iff unicode connId target (Prod.ext asked rfl)]
    exact ⟨fun free => ⟨asked, free⟩, fun clear => clear.2⟩
  · exact ⟨fun no => absurd no (possible_of_asked unicode connId target asked),
      fun clear => absurd clear.1 asked⟩

theorem leadsBack_gate (back : LeadsBack unicode connId target s) :
    gateConnection (Irc.makeBufferId unicode connId target) = connId := by
  rw [gateConnection, Irc.makeBufferId, splitOnce_append _ _ _ back.1]
  rfl

theorem leadsBack_network (back : LeadsBack unicode connId target s) :
    s.networkOf (Irc.makeBufferId unicode connId target) =
      (s.connections.get? connId).map Connection.networkKey := by
  unfold AppState.networkOf AppState.connectionOf
  cases found : s.buffers.get? (Irc.makeBufferId unicode connId target) with
  | some buf => simp [back.2 buf found]
  | none => simp [Irc.makeBufferId, splitOnce_append _ _ _ back.1]

/-- A channel is barred in the gate and not in the probe. -/
theorem bareChannel_iff (gone : s.connections.get? connId = none) (loaded : s.e2eLoaded = true)
    (channel : isChannelTarget target = true) :
    BareChannel connId target s ↔
      ¬ChannelBarred s (some []) target ∧ ChannelBarred s none target := by
  unfold ChannelBarred Barred
  simp only [ticked_keyring]
  constructor
  · rintro ⟨-, -, -, reads, bare, unlabelled⟩
    simp [reads, bare, unlabelled]
  · rintro ⟨free, barred⟩
    simp only [not_or, Bool.not_eq_true] at free
    refine ⟨gone, loaded, channel, ⟨free.1, free.2.1⟩, ?_, free.2.2⟩
    simpa [free.1, free.2.1] using barred

theorem clear_of_gone (gone : s.connections.get? connId = none)
    (back : LeadsBack unicode connId target s) :
    (ProbeClear unicode connId target s → GateClear unicode connId target s) ↔
      ¬BareChannel connId target s := by
  have unasked : bouncerE2eNeedsConfirmation unicode connId target s = (.ok false, s) :=
    needs_no_confirmation unicode s connId target fun conn found => by
      rw [gone] at found
      cases found
  have network : s.networkOf (Irc.makeBufferId unicode connId target) = none := by
    rw [leadsBack_network unicode connId target back, gone]
    rfl
  have label : probeNetwork s connId = [] := by simp [probeNetwork, gone]
  simp only [ProbeClear, GateClear, leadsBack_gate unicode connId target back, unasked, label,
    true_and]
  cases loaded : s.e2eLoaded with
  | false =>
      simp only [Bool.false_eq_true, false_implies, imp_self, true_iff]
      exact fun bare => Bool.false_ne_true (loaded.symm.trans bare.loaded)
  | true =>
      simp only [forall_const]
      cases channel : isChannelTarget target with
      | true =>
          rw [bareChannel_iff connId target gone loaded channel]
          simp only [ProbeBarred, GateBarred, channel, if_true, network, not_and]
      | false =>
          have no_channel : ¬BareChannel connId target s := fun bare =>
            Bool.false_ne_true (channel.symm.trans bare.channel)
          exact ⟨fun _ => no_channel, fun _ => dm_of_gone _ target network channel⟩

theorem clear_of_present {conn : Connection} (present : s.connections.get? connId = some conn)
    (back : LeadsBack unicode connId target s) (clear : ProbeClear unicode connId target s) :
    GateClear unicode connId target s := by
  obtain ⟨w, rest, -⟩ := (bouncerE2eNeedsConfirmation_rereads (s := s) unicode connId target).moved
  have network : (s.setWorld w).networkOf (Irc.makeBufferId unicode connId target) =
      some conn.networkKey := by
    have same := leadsBack_network unicode connId target back
    rw [present] at same
    exact same
  have label : probeNetwork (s.setWorld w) connId = conn.networkKey := by
    have kept : (s.setWorld w).connections.get? connId = some conn := present
    simp [probeNetwork, kept]
  obtain ⟨no, free⟩ := clear
  rw [GateClear, leadsBack_gate unicode connId target back]
  refine ⟨no, fun loaded => ?_⟩
  have open_ := free loaded
  rw [rest] at open_ ⊢
  rw [label, barred_agree _ target network] at open_
  exact open_

theorem clear_of_leadsBack (back : LeadsBack unicode connId target s) :
    (ProbeClear unicode connId target s → GateClear unicode connId target s) ↔
      ¬BareChannel connId target s := by
  cases present : s.connections.get? connId with
  | none => exact clear_of_gone unicode connId target present back
  | some conn =>
      have not_gone : ¬BareChannel connId target s := fun bare => by
        have gone := bare.gone
        rw [present] at gone
        cases gone
      exact ⟨fun _ => not_gone, fun _ => clear_of_present unicode connId target present back⟩

/-- A client of two networks, one under the given id, with a row from before contexts were scoped. -/
def bareRoom (connId : Str) : AppState :=
  let client := clientWith none [⟨"#chan".toList, true, .normal⟩]
  let conn : Connection := ⟨"other".toList, "other".toList, none, none, false, "me".toList⟩
  { client with connections := client.connections.insert connId conn }

end Main

end Repartee.App
