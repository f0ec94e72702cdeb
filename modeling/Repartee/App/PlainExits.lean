import Repartee.App.ScopedConfig

/-!
Where the gate lets a text out in the clear. The config of a conversation that is enabled, or that
cannot be read, bars the way; the two ways round it are stated exactly.
-/

namespace Repartee.App

open Text Lib E2e

section Reads

variable {s : AppState}

abbrev AppState.keyring (s : AppState) : Keyring := s.world.manager.keyring

/-- The next call to the keyring fails. -/
def AppState.Faulty (s : AppState) : Prop := ∃ text rest, s.world.env.faults = some text :: rest

/-- The state behind a call to the keyring that stores nothing. -/
def AppState.ticked (s : AppState) : AppState := { s with world := s.world.tick }

@[simp] theorem ticked_keyring : s.ticked.keyring = s.keyring := rfl

theorem keyring_answers {α : Type} (f : Keyring → α) (calm : ¬s.Faulty) :
    App.keyring f s = (.ok (f s.keyring), s.ticked) := by
  cases due : s.world.env.faults with
  | nil =>
      simp only [App.keyring, onWorld, Prog.zoom, query, transact, due]
      rfl
  | cons fault rest =>
      cases fault with
      | none =>
          simp only [App.keyring, onWorld, Prog.zoom, query, transact, due]
          rfl
      | some text => exact absurd ⟨text, rest, due⟩ calm

theorem keyring_fails {α : Type} (f : Keyring → α) (faulty : s.Faulty) :
    ∃ e, App.keyring f s = (.error e, s.ticked) := by
  obtain ⟨text, rest, due⟩ := faulty
  refine ⟨.sqlite text, ?_⟩
  simp only [App.keyring, onWorld, Prog.zoom, query, transact, due]
  rfl

theorem gateRead_of_ok {α : Type} {m : AppAction α} {a : α} {t : AppState}
    (ran : m s = (.ok a, t)) : gateRead m s = (.ok a, t) :=
  Prog.mapError_of_ok ran

theorem gateRead_of_error {α : Type} {m : AppAction α} {e : E2eError} {t : AppState}
    (ran : m s = (.error e, t)) : gateRead m s = (.error .keyringRead, t) :=
  Prog.mapError_of_error ran

theorem gateRead_answers {α : Type} (f : Keyring → α) (calm : ¬s.Faulty) :
    gateRead (App.keyring f) s = (.ok (f s.keyring), s.ticked) :=
  gateRead_of_ok (keyring_answers f calm)

theorem gateRead_fails {α : Type} (f : Keyring → α) (faulty : s.Faulty) :
    gateRead (App.keyring f) s = (.error .keyringRead, s.ticked) := by
  obtain ⟨e, failed⟩ := keyring_fails f faulty
  exact gateRead_of_error failed

end Reads

section Barred

variable (s : AppState)

/-- The config a context stands for is enabled, or the read of it fails. -/
def Barred (context : Str) : Prop :=
  s.Faulty ∨ isEnabled (s.keyring.getChannelConfig context) = true

/-- The context or, for a direct message outside a bouncer's scope, the unscoped one behind it. -/
def BarredUnder (context : Str) (dmPeerWire : Option Str) : Prop :=
  Barred s context ∨
    ∃ wire ∈ dmPeerWire, isBouncerScope context = false ∧ Barred s.ticked wire

/-- The rows of a direct message: those of the peer's handle, and that of the bare nick where no
handle is known. -/
def DmBarred (network : Option Str) (nick : Str) : Option Str → Prop
  | none => Barred s nick
  | some handle =>
      BarredUnder s (scopeUnder network (contextKey nick handle)) (some (contextKey nick handle))

/-- The context of a channel, in the spelling its row has. -/
def channelContext (kr : Keyring) (network : Option Str) (name : Str) : Str :=
  (kr.canonicalChannelContext (scopeUnder network name)).getD (scopeUnder network name)

def ChannelBarred (network : Option Str) (name : Str) : Prop :=
  s.Faulty ∨ Barred s.ticked (channelContext s.keyring network name)

/-- Ciphertext or a refusal where the way is barred, and the plain text where it is not. -/
structure Exits (P : Platform) (text : Str) (barred : Prop)
    (sent : Except E2eRefusal (List Str × Str)) : Prop where
  closed : barred → NoPlaintext P sent
  clear : ¬barred → sent = .ok (plainPassthrough text)

theorem Exits.iff_of_iff {P : Platform} {text : Str} {barred barred' : Prop}
    {sent : Except E2eRefusal (List Str × Str)} (exits : Exits P text barred sent)
    (same : barred' ↔ barred) : Exits P text barred' sent :=
  ⟨fun shut => exits.closed (same.mp shut), fun free => exits.clear fun shut => free (same.mpr shut)⟩

end Barred

section Exits

variable (P : Platform) (s : AppState) (bufferId bufferName text : Str)

theorem noPlaintext_refused (refusal : E2eRefusal) : NoPlaintext P (.error refusal) := nofun

/-- What follows one read of a config. -/
theorem barred_exits (context : Str) (next : Option ChannelConfig → Gate (List Str × Str))
    (further : Prop)
    (enabled : ∀ cfg, isEnabled cfg = true → NoPlaintext P (next cfg s.ticked).1)
    (idle : ∀ cfg, isEnabled cfg = false → Exits P text further (next cfg s.ticked).1) :
    Exits P text (Barred s context ∨ further)
      ((gateRead (keyring (·.getChannelConfig context)) >>= next) s).1 := by
  by_cases faulty : s.Faulty
  · rw [Prog.bind_of_error (gateRead_fails _ faulty)]
    exact ⟨fun _ => noPlaintext_refused P _, fun free => absurd (.inl (.inl faulty)) free⟩
  · rw [Prog.bind_of_ok (gateRead_answers _ faulty)]
    cases row : isEnabled (s.keyring.getChannelConfig context) with
    | true =>
        exact ⟨fun _ => enabled _ row, fun free => absurd (.inl (.inr row)) free⟩
    | false =>
        apply (idle _ row).iff_of_iff
        simp [Barred, faulty, row]

/-- The read that refuses without a handle to encrypt for. -/
theorem probe_exits (context : Str) :
    Exits P text (Barred s context)
      ((gateRead (keyring (·.getChannelConfig context)) >>= fun cfg =>
        if isEnabled cfg then Prog.fail .noPeerHandle
        else pure (plainPassthrough text) : Gate (List Str × Str)) s).1 := by
  have exits := barred_exits P s text context
    (fun cfg => if isEnabled cfg then Prog.fail .noPeerHandle else pure (plainPassthrough text))
    False
    (fun cfg on => by
      rw [if_pos on]
      exact noPlaintext_refused P _)
    (fun cfg off => by
      rw [if_neg (Bool.eq_false_iff.mp off)]
      exact ⟨False.elim, fun _ => rfl⟩)
  exact exits.iff_of_iff (by simp)

theorem sendUnder_exits (bufferType : BufferType) (context : Str) (dmPeerWire : Option Str) :
    Exits P text (BarredUnder s context dmPeerWire)
      (sendUnder P bufferId bufferName bufferType text context dmPeerWire s).1 := by
  rw [sendUnder_eq]
  apply barred_exits P s text context
  · intro cfg on
    rw [sendDecided, if_pos on]
    exact encryptAndDrain_ciphertext P bufferId bufferName bufferType context text s.ticked
  · intro cfg off
    rw [sendDecided, if_neg (Bool.eq_false_iff.mp off)]
    cases dmPeerWire with
    | none =>
        constructor
        · rintro ⟨_, absurd, _⟩
          cases absurd
        · exact fun _ => rfl
    | some wire =>
        by_cases scope : isBouncerScope context = true
        · simp only [Option.filter_some, scope, Bool.not_true, Bool.false_eq_true, if_false]
          constructor
          · rintro ⟨_, _, outside, _⟩
            exact absurd outside (by simp)
          · exact fun _ => rfl
        · simp only [Option.filter_some, scope, Bool.not_false, if_true]
          apply (probe_exits P s.ticked text wire).iff_of_iff
          simp

theorem sendToChannel_exits :
    Exits P text (ChannelBarred s (s.networkOf bufferId) bufferName)
      (sendToChannel P bufferId bufferName text s).1 := by
  let next (found : Option Str) : Gate (List Str × Str) :=
    sendUnder P bufferId bufferName .channel text
      (found.getD (scopeUnder (s.networkOf bufferId) bufferName)) none
  have reads : sendToChannel P bufferId bufferName text s = (gateRead
      (keyring (·.canonicalChannelContext (scopeUnder (s.networkOf bufferId) bufferName))) >>=
      next) s := rfl
  rw [reads]
  by_cases faulty : s.Faulty
  · rw [Prog.bind_of_error (gateRead_fails _ faulty)]
    exact ⟨fun _ => noPlaintext_refused P _, fun free => absurd (.inl faulty) free⟩
  · rw [Prog.bind_of_ok (gateRead_answers _ faulty)]
    apply (sendUnder_exits P s.ticked bufferId bufferName text .channel _ none).iff_of_iff
    simp [ChannelBarred, BarredUnder, faulty, channelContext]

end Exits

section Handles

variable (P : Platform) (s : AppState) (bufferId bufferName text : Str)

/-- The peer's handle has to be read from the keyring. -/
def looksUp : Bool := (s.peerHandleOf bufferId).isNone && (s.networkOf bufferId).isSome

def liveHandle : Option Str :=
  match s.peerHandleOf bufferId with
  | some handle => some handle
  | none => (s.networkOf bufferId).bind fun net => s.keyring.lastHandleForNick bufferName net

/-- The state once the handle is known. -/
def lookedUp : AppState := if looksUp s bufferId then s.ticked else s

variable {s}

theorem resolve_answers (loaded : s.e2eLoaded = true)
    (answers : looksUp s bufferId = true → ¬s.Faulty) :
    resolveQueryPeerHandle bufferId bufferName s =
      (.ok (liveHandle s bufferId bufferName), lookedUp s bufferId) := by
  have first : (Prog.read id s : Except E2eError AppState × AppState) = (.ok s, s) := rfl
  cases held : s.peerHandleOf bufferId with
  | some handle =>
      rw [resolveQueryPeerHandle, Prog.bind_of_ok first]
      simp only [liveHandle, lookedUp, looksUp, held]
      rfl
  | none =>
      cases network : s.networkOf bufferId with
      | none =>
          rw [resolveQueryPeerHandle, Prog.bind_of_ok first]
          simp only [liveHandle, lookedUp, looksUp, held, network, loaded, if_true]
          rfl
      | some net =>
          have looks : looksUp s bufferId = true := by simp [looksUp, held, network]
          rw [resolveQueryPeerHandle, Prog.bind_of_ok first]
          simp only [liveHandle, lookedUp, looks, held, network, loaded, if_true]
          exact keyring_answers _ (answers looks)

theorem resolve_fails (loaded : s.e2eLoaded = true) (looks : looksUp s bufferId = true)
    (faulty : s.Faulty) :
    ∃ e, resolveQueryPeerHandle bufferId bufferName s = (.error e, s.ticked) := by
  have first : (Prog.read id s : Except E2eError AppState × AppState) = (.ok s, s) := rfl
  rw [resolveQueryPeerHandle, Prog.bind_of_ok first]
  simp only [looksUp, Bool.and_eq_true, Option.isNone_iff_eq_none] at looks
  obtain ⟨net, network⟩ := Option.isSome_iff_exists.mp looks.2
  simp only [looks.1, network, loaded, if_true]
  exact keyring_fails _ faulty

theorem gatePeerHandle_answers (captured : Option Str) (loaded : s.e2eLoaded = true)
    (answers : looksUp s bufferId = true → ¬s.Faulty) :
    gatePeerHandle bufferId bufferName captured s =
      (.ok ((liveHandle s bufferId bufferName).or captured), lookedUp s bufferId) := by
  have found := Prog.attempt_of (resolve_answers bufferId bufferName loaded answers)
  unfold gatePeerHandle
  rw [Prog.bind_of_ok (Prog.mapError_of_ok found)]
  rfl

/-- The handle captured when the text was typed stands in for one that cannot be read. -/
theorem gatePeerHandle_fails (captured : Option Str) (loaded : s.e2eLoaded = true)
    (looks : looksUp s bufferId = true) (faulty : s.Faulty) :
    gatePeerHandle bufferId bufferName captured s =
      (captured.elim (.error .keyringRead) fun handle => .ok (some handle), s.ticked) := by
  obtain ⟨e, failed⟩ := resolve_fails bufferId bufferName loaded looks faulty
  unfold gatePeerHandle
  rw [Prog.bind_of_ok (Prog.mapError_of_ok (Prog.attempt_of failed))]
  cases captured <;> rfl

theorem dm_exits (t : AppState) (network : Option Str) (handle : Option Str) :
    Exits P text (DmBarred t network bufferName handle)
      ((match handle with
        | none => gateRead (keyring (·.getChannelConfig bufferName)) >>= fun cfg =>
            if isEnabled cfg then Prog.fail .noPeerHandle else pure (plainPassthrough text)
        | some handle => sendUnder P bufferId bufferName .query text
            (scopeUnder network (contextKey bufferName handle))
            (some (contextKey bufferName handle)) : Gate (List Str × Str)) t).1 := by
  cases handle with
  | none => exact probe_exits P t text bufferName
  | some handle => exact sendUnder_exits P t bufferId bufferName text .query _ _

theorem sendToQuery_answers (captured : Option Str) (loaded : s.e2eLoaded = true)
    (answers : looksUp s bufferId = true → ¬s.Faulty) :
    Exits P text
      (DmBarred (lookedUp s bufferId) (s.networkOf bufferId) bufferName
        ((liveHandle s bufferId bufferName).or captured))
      (sendToQuery P bufferId bufferName text captured s).1 := by
  have first : (Prog.read (fun s => s.networkOf bufferId) s :
      Except E2eRefusal (Option Str) × AppState) = (.ok (s.networkOf bufferId), s) := rfl
  rw [sendToQuery, Prog.bind_of_ok first,
    Prog.bind_of_ok (gatePeerHandle_answers bufferId bufferName captured loaded answers)]
  exact dm_exits P bufferId bufferName text _ _ _

theorem sendToQuery_fails (captured : Option Str) (loaded : s.e2eLoaded = true)
    (looks : looksUp s bufferId = true) (faulty : s.Faulty) :
    Exits P text
      (∀ handle, captured = some handle →
        DmBarred s.ticked (s.networkOf bufferId) bufferName (some handle))
      (sendToQuery P bufferId bufferName text captured s).1 := by
  have first : (Prog.read (fun s => s.networkOf bufferId) s :
      Except E2eRefusal (Option Str) × AppState) = (.ok (s.networkOf bufferId), s) := rfl
  have found := gatePeerHandle_fails bufferId bufferName captured loaded looks faulty
  rw [sendToQuery, Prog.bind_of_ok first]
  cases captured with
  | none =>
      rw [Prog.bind_of_error found]
      exact ⟨fun _ => noPlaintext_refused P _, fun free => absurd nofun free⟩
  | some handle =>
      rw [Prog.bind_of_ok found]
      apply (dm_exits P bufferId bufferName text _ _ (some handle)).iff_of_iff
      simp

end Handles

section Confirmation

variable (unicode : Irc.Unicode) {s : AppState}

/-- Another turn of the fault schedule, and the rest as it was. -/
def Rereads (s s' : AppState) : Prop :=
  ∃ w, s' = s.setWorld w ∧ w.manager = s.world.manager

instance : IsPreorder AppState Rereads where
  refl s := ⟨s.world, rfl, rfl⟩
  trans s _ _ first second := by
    obtain ⟨w, rfl, same⟩ := first
    obtain ⟨w', rfl, again⟩ := second
    exact ⟨w', rfl, again.trans same⟩

theorem keyring_rereads {α : Type} (f : Keyring → α) :
    Prog.Ensures Rereads s (keyring f) fun _ _ => True := by
  have ticks : Rereads s s.ticked := ⟨s.world.tick, rfl, rfl⟩
  unfold Prog.Ensures Prog.After
  by_cases faulty : s.Faulty
  · obtain ⟨e, failed⟩ := keyring_fails f faulty
    rw [failed]
    exact ticks
  · rw [keyring_answers f faulty]
    exact ⟨ticks, trivial⟩

theorem ensures_anyM {α : Type} (f : α → AppAction Bool) (items : List α)
    (each : ∀ a s, Prog.Ensures Rereads s (f a) fun _ _ => True) :
    Prog.Ensures Rereads s (items.anyM f) fun _ _ => True := by
  induction items generalizing s with
  | nil => exact Prog.ensures_pure _ trivial
  | cons a rest ih =>
      rw [List.anyM_cons]
      apply (each a s).bind
      intro found s' _ _
      cases found with
      | true => exact Prog.ensures_pure _ trivial
      | false => exact ih

theorem canonicalContext_rereads (context : Str) :
    Prog.Ensures Rereads s (canonicalContext context) fun _ _ => True :=
  (keyring_rereads _).bind fun _ _ _ _ => Prog.ensures_pure _ trivial

theorem enabledBefore_rereads (conn : Connection) (wire : Str) :
    Prog.Ensures Rereads s (enabledBefore conn wire) fun _ _ => True := by
  apply (keyring_rereads _).bind
  intro before s₁ _ _
  cases before with
  | true => exact Prog.ensures_pure _ trivial
  | false =>
      apply ensures_anyM
      intro candidate s₂
      apply (canonicalContext_rereads candidate).bind
      intro context s₃ _ _
      exact (keyring_rereads _).bind fun _ _ _ _ => Prog.ensures_pure _ trivial

theorem confirmationHandles_rereads (conn : Connection) (target : Str) (live : Option Str) :
    Prog.Ensures Rereads s (confirmationHandles conn target live) fun _ _ => True := by
  apply Prog.ensures_ite
  · exact fun _ => Prog.ensures_pure _ trivial
  · intro _
    apply (keyring_rereads _).bind
    intro keyed s₁ _ _
    apply (keyring_rereads _).bind
    intro origin s₂ _ _
    apply (keyring_rereads _).bind
    intro labelled s₃ _ _
    apply (keyring_rereads _).bind
    intro legacy s₄ _ _
    exact (keyring_rereads _).bind fun _ _ _ _ => Prog.ensures_pure _ trivial

theorem bouncerNeedsConfirmation_rereads (conn : Connection) (connId target : Str) :
    Prog.Ensures Rereads s (bouncerNeedsConfirmation unicode conn connId target)
      fun _ _ => True := by
  apply Prog.ensures_read_bind
  apply (confirmationHandles_rereads conn target _).bind
  intro handles s₁ _ _
  apply (canonicalContext_rereads _).bind
  intro context s₂ _ _
  apply (keyring_rereads _).bind
  intro cfg s₃ _ _
  apply Prog.ensures_ite
  · exact fun _ => Prog.ensures_pure _ trivial
  · exact fun _ => ensures_anyM _ _ fun wire s => enabledBefore_rereads conn wire

theorem bouncerE2eNeedsConfirmation_rereads (connId target : Str) :
    Prog.Ensures Rereads s (bouncerE2eNeedsConfirmation unicode connId target)
      fun _ _ => True := by
  apply Prog.ensures_read_bind
  cases (((id s).connections.get? connId).filter fun conn =>
      conn.bouncerNetworkId.isSome || conn.bouncerControl) with
  | none => exact Prog.ensures_pure _ trivial
  | some conn =>
      apply Prog.ensures_ite
      · exact fun _ => bouncerNeedsConfirmation_rereads unicode conn connId target
      · exact fun _ => Prog.ensures_pure _ trivial

theorem bouncerCheck_rereads (bufferId bufferName : Str) (bufferType : BufferType) :
    Prog.Ensures Rereads s (bouncerCheck unicode bufferId bufferName bufferType)
      fun _ _ => True := by
  apply Prog.ensures_ite
  · intro _
    cases splitOnce '/' bufferId with
    | none => exact Prog.ensures_pure _ trivial
    | some parts => exact bouncerE2eNeedsConfirmation_rereads unicode parts.1 bufferName
  · exact fun _ => Prog.ensures_pure _ trivial

theorem confirmBouncer_rereads (bufferId bufferName : Str) (bufferType : BufferType) :
    Rereads s (confirmBouncer unicode bufferId bufferName bufferType s).2 := by
  have checks : Prog.Ensures Rereads s
      (gateRead (bouncerCheck unicode bufferId bufferName bufferType)) fun _ _ => True :=
    (Prog.after_mapError _ _).mpr (bouncerCheck_rereads unicode bufferId bufferName bufferType)
  have confirms : Prog.Ensures Rereads s
      (confirmBouncer unicode bufferId bufferName bufferType) fun _ _ => True := by
    apply checks.bind
    intro needed s' _ _
    cases needed with
    | true => exact Prog.ensures_fail _
    | false => exact Prog.ensures_pure _ trivial
  exact confirms.moved

end Confirmation

section Main

/-- The config of a channel is enabled: that of the row filed under its name, in the spelling asked
for before any other, or what some spelling of the name falls back to where no row is filed. -/
def ChannelEnabled (kr : Keyring) (network : Option Str) (name : Str) : Prop :=
  match kr.canonicalChannelContext (scopeUnder network name) with
  | some stored => isEnabled (kr.getChannelConfig stored) = true
  | none => ∃ spelling, eqNocase spelling name = true ∧
      isEnabled (kr.getChannelConfig (scopeUnder network spelling)) = true

/-- The config of the conversation is enabled or cannot be read. -/
def Guarded (s : AppState) (bufferId bufferName : Str) (bufferType : BufferType)
    (captured : Option Str) : Prop :=
  let network := s.networkOf bufferId
  match bufferType with
  | .channel => s.Faulty ∨ s.ticked.Faulty ∨ ChannelEnabled s.keyring network bufferName
  | .query => looksUp s bufferId = true ∧ s.Faulty ∨
      DmBarred (lookedUp s bufferId) network bufferName
        ((liveHandle s bufferId bufferName).or captured)
  | _ => False

/-- The two ways round: a fallback that is enabled for another spelling of the channel only, and a
captured handle, with no enabled row, in the place of one that could not be read. -/
def WayRound (s : AppState) (bufferId bufferName : Str) (bufferType : BufferType)
    (captured : Option Str) : Prop :=
  let network := s.networkOf bufferId
  match bufferType with
  | .channel => ¬s.Faulty ∧
      s.keyring.canonicalChannelContext (scopeUnder network bufferName) = none ∧
      ¬Barred s.ticked (scopeUnder network bufferName) ∧
      ∃ spelling, eqNocase spelling bufferName = true ∧
        isEnabled (s.keyring.getChannelConfig (scopeUnder network spelling)) = true
  | .query => looksUp s bufferId = true ∧ s.Faulty ∧ ∃ handle, captured = some handle ∧
      ¬DmBarred s.ticked network bufferName (some handle)
  | _ => False

variable (P : Platform) {s : AppState} (bufferId bufferName text : Str)

theorem guarded_channel :
    (s.Faulty ∨ s.ticked.Faulty ∨ ChannelEnabled s.keyring (s.networkOf bufferId) bufferName) ↔
      ChannelBarred s (s.networkOf bufferId) bufferName ∨
        WayRound s bufferId bufferName .channel none := by
  unfold ChannelBarred ChannelEnabled WayRound channelContext Barred
  cases filed : s.keyring.canonicalChannelContext
      (scopeUnder (s.networkOf bufferId) bufferName) with
  | some stored => simp [filed]
  | none =>
      simp only [Option.getD_none, ticked_keyring]
      constructor
      · rintro (faulty | faulty | enabled)
        · exact .inl (.inl faulty)
        · exact .inl (.inr (.inl faulty))
        · by_cases barred : s.Faulty ∨ s.ticked.Faulty ∨ isEnabled (s.keyring.getChannelConfig
              (scopeUnder (s.networkOf bufferId) bufferName)) = true
          · exact .inl barred
          · rw [not_or] at barred
            exact .inr ⟨barred.1, filed, barred.2, enabled⟩
      · rintro ((faulty | faulty | enabled) | ⟨_, _, _, enabled⟩)
        · exact .inl faulty
        · exact .inr (.inl faulty)
        · exact .inr (.inr ⟨bufferName, by simp [eqNocase], enabled⟩)
        · exact .inr (.inr enabled)

theorem channel_iff :
    (Guarded s bufferId bufferName .channel none →
        NoPlaintext P (sendToChannel P bufferId bufferName text s).1) ↔
      ¬(WayRound s bufferId bufferName .channel none ∧
        ¬NoPlaintext P (.ok (plainPassthrough text))) := by
  have exits := sendToChannel_exits P s bufferId bufferName text
  by_cases barred : ChannelBarred s (s.networkOf bufferId) bufferName
  · have no_way : ¬WayRound s bufferId bufferName .channel none := by
      rintro ⟨calm, filed, free, -⟩
      rcases barred with faulty | barred
      · exact calm faulty
      · rw [channelContext, filed, Option.getD_none] at barred
        exact free barred
    exact ⟨fun _ both => no_way both.1, fun _ _ => exits.closed barred⟩
  · rw [exits.clear barred]
    have guarded : Guarded s bufferId bufferName .channel none ↔
        WayRound s bufferId bufferName .channel none :=
      (guarded_channel bufferId bufferName).trans (by simp [barred])
    rw [guarded]
    tauto

theorem query_iff (captured : Option Str) (loaded : s.e2eLoaded = true) :
    (Guarded s bufferId bufferName .query captured →
        NoPlaintext P (sendToQuery P bufferId bufferName text captured s).1) ↔
      ¬(WayRound s bufferId bufferName .query captured ∧
        ¬NoPlaintext P (.ok (plainPassthrough text))) := by
  by_cases unread : looksUp s bufferId = true ∧ s.Faulty
  · have exits := sendToQuery_fails P bufferId bufferName text captured loaded unread.1 unread.2
    have guarded : Guarded s bufferId bufferName .query captured := .inl unread
    have way : WayRound s bufferId bufferName .query captured ↔
        ¬∀ handle, captured = some handle →
          DmBarred s.ticked (s.networkOf bufferId) bufferName (some handle) := by
      simp [WayRound, unread]
    rw [way]
    constructor
    · rintro sealed ⟨free, plain⟩
      apply plain
      rw [← exits.clear free]
      exact sealed guarded
    · intro no_way _
      by_cases barred : ∀ handle, captured = some handle →
          DmBarred s.ticked (s.networkOf bufferId) bufferName (some handle)
      · exact exits.closed barred
      · rw [exits.clear barred]
        by_contra plain
        exact no_way ⟨barred, plain⟩
  · have answers : looksUp s bufferId = true → ¬s.Faulty := fun looks faulty =>
      unread ⟨looks, faulty⟩
    have exits := sendToQuery_answers P bufferId bufferName text captured loaded answers
    have no_way : ¬WayRound s bufferId bufferName .query captured := fun way =>
      unread ⟨way.1, way.2.1⟩
    constructor
    · exact fun _ both => no_way both.1
    · intro _ guarded
      rcases guarded with faulty | barred
      · exact absurd faulty unread
      · exact exits.closed barred

/-- Where the config of a conversation is enabled or cannot be read, nothing but ciphertext leaves,
exactly unless one of the two ways round is open. A single line for the bots of a channel apart. -/
theorem gate_fails_closed_iff (P : Platform) (unicode : Irc.Unicode) (s : AppState)
    (bufferId bufferName : Str) (bufferType : BufferType) (text : Str) (captured : Option Str)
    (loaded : s.e2eLoaded = true) (conversation : bufferType = .channel ∨ bufferType = .query)
    (typed : isBotCommand bufferType text = false) :
    let asked := confirmBouncer unicode bufferId bufferName bufferType s
    (Guarded asked.2 bufferId bufferName bufferType captured →
        NoPlaintext P
          (e2eEncryptOrPassthrough P unicode bufferId bufferName bufferType text captured s).1) ↔
      ¬(asked.1 = .ok () ∧ WayRound asked.2 bufferId bufferName bufferType captured ∧
        ¬NoPlaintext P (.ok (plainPassthrough text))) := by
  intro asked
  obtain ⟨w, rest, -⟩ := confirmBouncer_rereads unicode (s := s) bufferId bufferName bufferType
  cases passes : asked.1 with
  | error refusal =>
      have refused : e2eEncryptOrPassthrough P unicode bufferId bufferName bufferType text captured
          s = (.error refusal, asked.2) := by
        unfold e2eEncryptOrPassthrough
        exact Prog.bind_of_error (Prod.ext passes rfl)
      rw [refused]
      exact ⟨fun _ both => (by cases both.1), fun _ _ => noPlaintext_refused P refusal⟩
  | ok _ =>
      have loaded' : asked.2.e2eLoaded = true := by
        rw [show asked.2 = s.setWorld w from rest]
        exact loaded
      rw [gate_rest typed loaded' (Prod.ext passes rfl)]
      simp only [true_and]
      rcases conversation with rfl | rfl
      · exact channel_iff P bufferId bufferName text
      · exact query_iff P bufferId bufferName text captured loaded'

def sealedRoom : AppState :=
  clientWith none [⟨scopedContext "net".toList "#chan".toList, true, .normal⟩]

theorem sealedRoom_filed : sealedRoom.keyring.canonicalChannelContext
    (scopeUnder (sealedRoom.networkOf "net/#chan".toList) "#Chan".toList) =
      some (scopedContext "net".toList "#chan".toList) := by
  decide +kernel

/-- The row of #chan guards a text to #Chan. -/
theorem gate_fails_closed_room :
    NoPlaintext Platform.symbolic (e2eEncryptOrPassthrough Platform.symbolic .ascii
      "net/#chan".toList "#Chan".toList .channel "hi".toList none sealedRoom).1 := by
  have unasked : confirmBouncer .ascii "net/#chan".toList "#Chan".toList .channel sealedRoom =
      (.ok (), sealedRoom) := by
    apply confirmBouncer_outside
    intro id rest conn split found
    have own : splitOnce '/' "net/#chan".toList = some ("net".toList, "#chan".toList) := by decide
    rw [own] at split
    cases split
    cases found
    exact ⟨rfl, rfl⟩
  have sealed := gate_fails_closed_iff Platform.symbolic .ascii sealedRoom "net/#chan".toList
    "#Chan".toList .channel "hi".toList none rfl (.inl rfl) (by decide)
  simp only [unasked] at sealed
  apply sealed.mpr
  · rintro ⟨-, ⟨-, unfiled, -⟩, -⟩
    rw [sealedRoom_filed] at unfiled
    cases unfiled
  · right
    right
    unfold ChannelEnabled
    rw [sealedRoom_filed]
    decide +kernel

/-- A client of one network with a config row from before contexts were scoped. -/
def leftoverRoom : AppState :=
  let kr : Keyring := { Keyring.empty with configuredNetworks := ⟨["net".toList], by decide⟩ }
  let client := clientWith none []
  client.setWorld (client.world.setKeyring (kr.setChannelConfig ⟨"#chan".toList, true, .normal⟩))

def newDm : ChannelConfig := ⟨scopedContext "net".toList "@new@h".toList, true, .normal⟩

/-- A client whose peer's row has moved on with the handle, and whose next read fails. -/
def movedDm : AppState :=
  let client := clientWith none [newDm]
  let kr := client.keyring.cacheDmHandle "net".toList "bob".toList "new@h".toList
  let failing := { client.world.env with faults := [some "disk I/O error".toList] }
  client.setWorld { client.world.setKeyring kr with env := failing }

theorem readable_text : ¬NoPlaintext P (.ok (["hi".toList], "hi".toList)) := by
  intro sealed
  obtain ⟨rest, same⟩ := wirePrefix_of_ciphertextLine P _ (sealed _ rfl "hi".toList (by simp))
  cases same

theorem leftover_sent : (e2eEncryptOrPassthrough Platform.symbolic .ascii "net/#chan".toList
    "#Chan".toList .channel "hi".toList none leftoverRoom).1 = .ok (["hi".toList], "hi".toList) := by
  decide +kernel

theorem moved_sent : (e2eEncryptOrPassthrough Platform.symbolic .ascii "net/bob".toList
    "bob".toList .query "hi".toList (some "old@h".toList) movedDm).1 =
      .ok (["hi".toList], "hi".toList) := by
  decide +kernel

theorem leftover_enabled :
    ChannelEnabled leftoverRoom.keyring (leftoverRoom.networkOf "net/#chan".toList)
      "#Chan".toList := by
  have unfiled : leftoverRoom.keyring.canonicalChannelContext
      (scopeUnder (leftoverRoom.networkOf "net/#chan".toList) "#Chan".toList) = none := by
    decide +kernel
  unfold ChannelEnabled
  rw [unfiled]
  exact ⟨"#chan".toList, by decide +kernel, by decide +kernel⟩

/-- A channel whose enabled row was filed unscoped as #chan lets a text to #Chan out, and so does a
direct message whose handle cannot be read when an outdated one was captured. -/
theorem plaintext_gets_round :
    (Guarded leftoverRoom "net/#chan".toList "#Chan".toList .channel none ∧
      ¬NoPlaintext Platform.symbolic (e2eEncryptOrPassthrough Platform.symbolic .ascii
        "net/#chan".toList "#Chan".toList .channel "hi".toList none leftoverRoom).1) ∧
    (Guarded movedDm "net/bob".toList "bob".toList .query (some "old@h".toList) ∧
      movedDm.keyring.getChannelConfig newDm.channel = some newDm ∧
      ¬NoPlaintext Platform.symbolic (e2eEncryptOrPassthrough Platform.symbolic .ascii
        "net/bob".toList "bob".toList .query "hi".toList (some "old@h".toList) movedDm).1) := by
  rw [leftover_sent, moved_sent]
  refine ⟨⟨.inr (.inr leftover_enabled), readable_text _⟩, .inl ⟨by decide +kernel, ?_⟩,
    by decide +kernel, readable_text _⟩
  exact ⟨"disk I/O error".toList, [], rfl⟩

end Main

end Repartee.App
