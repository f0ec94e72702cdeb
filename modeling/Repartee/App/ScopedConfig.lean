import Repartee.Lib.Blind
import Repartee.App.FailClosed

/-!
The setting of a conversation's own scoped row decides what becomes of a message, whatever the
other rows of the config table say: two keyrings that differ in nothing else send alike.
-/

namespace Repartee.App

open Text Lib E2e

/-- The rows of the config table, all of them. -/
abbrev Configs : Type := Table ChannelConfig.channel

section Replacing

variable (configs : Configs)

def withConfigs (kr : Keyring) : Keyring := { kr with channelConfig := configs }

def worldWithConfigs (w : World) : World := w.setKeyring (withConfigs configs w.manager.keyring)

/-- The same application with another config table. -/
def AppState.withConfigs (s : AppState) : AppState :=
  { s with world := worldWithConfigs configs s.world }

end Replacing

section Outgoing

variable {configs : Configs} {α : Type} (P : Platform)

theorem transact_blind (f : Env → Keyring → Except E2eError (α × Keyring))
    (commutes : ∀ env kr, f env (withConfigs configs kr) =
      (f env kr).map fun answer => (answer.1, withConfigs configs answer.2)) :
    Prog.Blind (worldWithConfigs configs) (transact f) := by
  intro w
  have same : f (worldWithConfigs configs w).env (worldWithConfigs configs w).manager.keyring =
      (f w.env w.manager.keyring).map fun answer => (answer.1, withConfigs configs answer.2) :=
    commutes w.env w.manager.keyring
  have faults : (worldWithConfigs configs w).env.faults = w.env.faults := rfl
  rw [transact, same, faults, transact]
  split
  · rfl
  · cases f w.env w.manager.keyring with
    | ok answer => rfl
    | error e => rfl

theorem query_blind (f : Keyring → α) (same : ∀ kr, f (withConfigs configs kr) = f kr) :
    Prog.Blind (worldWithConfigs configs) (query f) :=
  transact_blind _ fun _ kr => by simp [same kr, Except.map]

theorem execute_blind (f : Keyring → Keyring)
    (commutes : ∀ kr, f (withConfigs configs kr) = withConfigs configs (f kr)) :
    Prog.Blind (worldWithConfigs configs) (execute f) :=
  transact_blind _ fun _ kr => by simp [commutes kr, Except.map]

theorem draw_blind (length : Nat) : Prog.Blind (worldWithConfigs configs) (draw P length) :=
  Prog.blind_update _ fun _ => rfl

theorem nowUnix_blind : Prog.Blind (worldWithConfigs configs) nowUnix :=
  Prog.blind_read _ fun _ => rfl

theorem identityPub_blind : Prog.Blind (worldWithConfigs configs) (identityPub P) :=
  Prog.blind_read _ fun _ => rfl

theorem onLedger_blind (f : Ledger → Ledger) :
    Prog.Blind (worldWithConfigs configs) (onLedger f) :=
  Prog.blind_change _ fun _ => rfl

theorem aeadSeal_blind (key aad plaintext : Bytes) :
    Prog.Blind (worldWithConfigs configs) (aeadSeal P key aad plaintext) :=
  (draw_blind P nonceLen).bind fun _ => (Prog.blind_lift _).bind fun _ => Prog.blind_pure _

theorem buildRekeyForPeer_blind (channel : Str) (peer : PeerRecord) (newSk : SessionKey) :
    Prog.Blind (worldWithConfigs configs) (buildRekeyForPeer P channel peer newSk) := by
  apply (draw_blind P 32).bind
  intro ephSk
  apply (Prog.blind_lift _).bind
  intro peerPub
  apply (aeadSeal_blind P _ _ _).bind
  intro wrapped
  apply (draw_blind P 16).bind
  intro nonce
  apply (identityPub_blind P).bind
  intro pubkey
  apply Prog.Blind.bind
  · exact Prog.blind_read _ fun _ => rfl
  intro seed
  apply (onLedger_blind _).bind
  exact fun _ => Prog.blind_pure _

theorem queueRekey_blind (channel handle : Str) (rekey : KeyRekey) :
    Prog.Blind (worldWithConfigs configs) (queueRekey P channel handle rekey) := by
  apply Prog.Blind.bind
  · exact Prog.blind_change _ fun _ => rfl
  · exact fun _ => onLedger_blind _

theorem distributeTo_blind (channel : Str) (fresh : SessionKey) (recipient : Str × Fingerprint) :
    Prog.Blind (worldWithConfigs configs) (distributeTo P channel fresh recipient) := by
  apply (query_blind _ fun _ => rfl).bind
  intro peer
  cases peer with
  | none => exact Prog.blind_pure ()
  | some peer =>
      apply (buildRekeyForPeer_blind P channel peer fresh).attempt.bind
      intro built
      cases built with
      | ok rekey => exact queueRekey_blind P channel recipient.1 rekey
      | error e => exact Prog.blind_pure ()

theorem generateOutgoingKey_blind (channel : Str) :
    Prog.Blind (worldWithConfigs configs) (generateOutgoingKey P channel) := by
  apply (query_blind _ fun _ => rfl).bind
  intro again
  apply (draw_blind P keyLen).bind
  intro fresh
  apply (onLedger_blind _).bind
  intro _
  apply nowUnix_blind.bind
  intro now
  apply Prog.Blind.bind
  · exact execute_blind _ fun _ => rfl
  intro _
  apply (Prog.blind_onlyIf _ ?_).bind
  · exact fun _ => Prog.blind_pure fresh
  apply (query_blind _ fun _ => rfl).bind
  exact fun recipients => Prog.blind_each (distributeTo_blind P channel fresh) recipients

theorem getOrGenerateOutgoingKey_blind (channel : Str) :
    Prog.Blind (worldWithConfigs configs) (getOrGenerateOutgoingKey P channel) := by
  apply (query_blind _ fun _ => rfl).bind
  intro session
  cases session with
  | none => exact generateOutgoingKey_blind P channel
  | some sess => exact Prog.blind_ite _ (generateOutgoingKey_blind P channel) (Prog.blind_pure _)

theorem encryptOutgoing_blind (channel plaintext : Str) :
    Prog.Blind (worldWithConfigs configs) (encryptOutgoing P channel plaintext) := by
  apply (getOrGenerateOutgoingKey_blind P channel).bind
  intro sk
  apply (Prog.blind_lift _).bind
  intro chunks
  apply (Prog.blind_ensure _ _).bind
  intro _
  apply (Prog.blind_ensure _ _).bind
  intro _
  apply (draw_blind P 8).bind
  intro msgid
  apply nowUnix_blind.bind
  intro ts
  apply Prog.blind_collect
  intro piece
  exact (aeadSeal_blind P _ _ _).bind fun _ => Prog.blind_lift _

theorem encryptOutgoingText_blind (context text : Str) :
    Prog.Blind (worldWithConfigs configs) (encryptOutgoingText P context text) := by
  apply Prog.blind_ite
  · apply Prog.blind_ite
    · exact encryptOutgoing_blind P context text
    · cases (stripPrefix actionPrefix text).bind (stripSuffix [ctcpDelimiter]) with
      | none => exact Prog.blind_fail _
      | some body =>
          apply (Prog.blind_lift _).bind
          intro pieces
          apply (Prog.blind_collect (fun piece => encryptOutgoing_blind P context _) pieces).bind
          exact fun _ => Prog.blind_pure _
  · exact encryptOutgoing_blind P context text

end Outgoing

section Sending

variable {configs : Configs} {α : Type} (P : Platform)

theorem onWorld_blind {m : Action α} (blind : Prog.Blind (worldWithConfigs configs) m) :
    Prog.Blind (AppState.withConfigs configs) (onWorld m) :=
  blind.zoom AppState.world AppState.setWorld (fun _ => rfl) fun _ _ => rfl

theorem resolveQueryPeerHandle_blind (bufferId bufferName : Str) :
    Prog.Blind (AppState.withConfigs configs) (resolveQueryPeerHandle bufferId bufferName) := by
  apply Prog.blind_whole
  · exact fun _ => rfl
  intro s
  cases s.peerHandleOf bufferId with
  | some handle => exact Prog.blind_pure _
  | none =>
      apply Prog.blind_ite
      · cases s.networkOf bufferId with
        | none => exact Prog.blind_pure _
        | some net => exact onWorld_blind (query_blind _ fun _ => rfl)
      · exact Prog.blind_pure _

theorem gatePeerHandle_blind (bufferId bufferName : Str) (captured : Option Str) :
    Prog.Blind (AppState.withConfigs configs) (gatePeerHandle bufferId bufferName captured) := by
  apply ((resolveQueryPeerHandle_blind bufferId bufferName).attempt.mapError _).bind
  intro found
  cases found with
  | ok live => exact Prog.blind_pure _
  | error e =>
      cases captured with
      | some handle => exact Prog.blind_pure _
      | none => exact Prog.blind_fail _

theorem encryptAndDrain_blind (bufferId bufferName : Str) (bufferType : BufferType)
    (context text : Str) :
    Prog.Blind (AppState.withConfigs configs)
      (encryptAndDrain P bufferId bufferName bufferType context text) := by
  apply ((onWorld_blind (encryptOutgoingText_blind P context text)).attempt.mapError _).bind
  intro result
  apply Prog.Blind.bind
  · apply Prog.Blind.mapError
    apply Prog.Blind.bind
    · exact onWorld_blind (Prog.blind_update _ fun _ => rfl)
    · intro sends
      apply Prog.blind_change
      intro s
      have same : (s.withConfigs configs).connectionOf bufferId = s.connectionOf bufferId := rfl
      rw [same]
      cases s.connectionOf bufferId <;> rfl
  · intro _
    cases result with
    | ok wires => exact Prog.blind_pure _
    | error e => exact Prog.blind_fail _

/-- A read of the keyring answers in both applications or in neither. -/
theorem gateRead_pair (f : Keyring → α) (s : AppState) :
    ∃ s', s'.world.manager = s.world.manager ∧
      ((gateRead (keyring f) s = (.error .keyringRead, s') ∧
          s.world.env.faults ≠ [] ∧
          ∀ configs, gateRead (keyring f) (s.withConfigs configs) =
            (.error .keyringRead, s'.withConfigs configs)) ∨
        (gateRead (keyring f) s = (.ok (f s.world.manager.keyring), s') ∧
          (s.world.env.faults = [] → s'.world.env.faults = []) ∧
          ∀ configs, gateRead (keyring f) (s.withConfigs configs) =
            (.ok (f (withConfigs configs s.world.manager.keyring)), s'.withConfigs configs))) := by
  refine ⟨{ s with world := s.world.tick }, rfl, ?_⟩
  cases failing : s.world.env.faults with
  | nil =>
      right
      refine ⟨?_, fun _ => ?_, fun configs => ?_⟩
      · simp only [gateRead, keyring, onWorld, Prog.mapError, Prog.zoom, query, transact, failing]
        rfl
      · simp [World.tick, failing]
      · have same : (s.withConfigs configs).world.env.faults = [] := failing
        simp only [gateRead, keyring, onWorld, Prog.mapError, Prog.zoom, query, transact, same]
        rfl
  | cons fault rest =>
      cases fault with
      | none =>
          right
          refine ⟨?_, fun clear => absurd clear (List.cons_ne_nil none rest), fun configs => ?_⟩
          · simp only [gateRead, keyring, onWorld, Prog.mapError, Prog.zoom, query, transact,
              failing]
            rfl
          · have same : (s.withConfigs configs).world.env.faults = none :: rest := failing
            simp only [gateRead, keyring, onWorld, Prog.mapError, Prog.zoom, query, transact, same]
            rfl
      | some text =>
          left
          refine ⟨?_, by simp, fun configs => ?_⟩
          · simp only [gateRead, keyring, onWorld, Prog.mapError, Prog.zoom, query, transact,
              failing]
            rfl
          · have same : (s.withConfigs configs).world.env.faults = some text :: rest := failing
            simp only [gateRead, keyring, onWorld, Prog.mapError, Prog.zoom, query, transact, same]
            rfl

end Sending

section Ciphertext

variable (P : Platform)

theorem encryptOutgoingText_ciphertext (context text : Str) (w : World) :
    Prog.Ensures Anyhow w (encryptOutgoingText P context text)
      fun lines _ => ∀ line ∈ lines, IsCiphertextLine P line := by
  apply Prog.ensures_ite
  · intro _
    apply Prog.ensures_ite
    · exact fun _ => encryptOutgoing_ciphertext context text
    · intro _
      cases (stripPrefix actionPrefix text).bind (stripSuffix [ctcpDelimiter]) with
      | none => exact Prog.ensures_fail _
      | some body =>
          apply Prog.ensures_lift_bind
          intro pieces _
          apply Prog.ensures_bind fun lines _ =>
            List.Forall₂ (fun _ sent => ∀ line ∈ sent, IsCiphertextLine P line) pieces lines ∧ True
          · apply Prog.ensures_collect_each (fun _ => True)
            · intro piece _ w' _ _
              apply (encryptOutgoing_ciphertext context _).post
              exact fun _ _ _ sealed => ⟨sealed, trivial⟩
            · trivial
          · intro lines _ _ sealed
            apply Prog.ensures_pure
            intro line member
            obtain ⟨sent, present, inside⟩ := List.mem_flatten.mp member
            obtain ⟨_, _, held⟩ := exists_of_forall₂ _ _ lines sealed.1 sent present
            exact held line inside
  · exact fun _ => encryptOutgoing_ciphertext context text

theorem encryptAndDrain_ciphertext (bufferId bufferName : Str) (bufferType : BufferType)
    (context text : Str) (s : AppState) :
    NoPlaintext P (encryptAndDrain P bufferId bufferName bufferType context text s).1 := by
  have after : Prog.After s (encryptAndDrain P bufferId bufferName bufferType context text)
      (fun out _ => ∀ line ∈ out.1, IsCiphertextLine P line) fun _ _ => True := by
    rw [encryptAndDrain, Prog.after_bind, Prog.after_mapError, Prog.after_attempt, onWorld,
      Prog.after_zoom]
    apply Prog.After.mono (encryptOutgoingText_ciphertext P context text s.world)
    · intro wires w' sealed
      rw [Prog.after_bind, Prog.After]
      split
      · exact sealed.2
      · trivial
    · intro e w' _
      rw [Prog.after_bind, Prog.After]
      split
      · trivial
      · trivial
  intro out sent
  rw [Prog.After] at after
  split at after
  · rename_i a s' ran
    rw [ran] at sent
    cases sent
    exact after
  · rename_i e s' ran
    rw [ran] at sent
    cases sent

end Ciphertext

section Own

variable (P : Platform)

/-- The unscoped row of a direct message's handle is not enabled, where the gate would ask it. -/
def LeftoverIdle (s : AppState) (context : Str) (dmPeerWire : Option Str) : Prop :=
  ∀ wire ∈ dmPeerWire, isBouncerScope context = false →
    isEnabled (s.world.manager.keyring.getChannelConfig wire) = false

/-- What becomes of a text under its own row: ciphertext or a refusal where it is enabled; where it
is not, the plain text, or a refusal because a read failed. -/
structure Decides (cfg : ChannelConfig) (text : Str) (reliable idle : Prop)
    (sent : Except E2eRefusal (List Str × Str)) : Prop where
  enabled : cfg.enabled = true → NoPlaintext P sent
  disabled : cfg.enabled = false → idle →
    sent = .ok (plainPassthrough text) ∨ sent = .error .keyringRead
  unfailing : cfg.enabled = false → idle → reliable → sent = .ok (plainPassthrough text)

variable {P} {s : AppState} {context : Str} {cfg : ChannelConfig}

theorem getChannelConfig_own (kr : Keyring) (row : kr.channelConfig.find? context = some cfg) :
    kr.getChannelConfig context = some cfg := by
  rw [Keyring.getChannelConfig, Keyring.getChannelConfigExact, row]

theorem decides_refused (text : Str) (reliable idle : Prop) (failing : ¬ reliable) :
    Decides P cfg text reliable idle (.error .keyringRead) :=
  ⟨fun _ => nofun, fun _ _ => .inr rfl, fun _ _ clear => absurd clear failing⟩

/-- What the gate goes on to do once it has read the config of the context. -/
def sendDecided (P : Platform) (bufferId bufferName : Str) (bufferType : BufferType)
    (text context : Str) (dmPeerWire : Option Str) (cfg : Option ChannelConfig) :
    Gate (List Str × Str) :=
  if isEnabled cfg then encryptAndDrain P bufferId bufferName bufferType context text
  else match dmPeerWire.filter fun _ => !isBouncerScope context with
    | none => pure (plainPassthrough text)
    | some wire => do
        let legacy ← gateRead (keyring (·.getChannelConfig wire))
        if isEnabled legacy then Prog.fail .noPeerHandle else pure (plainPassthrough text)

theorem sendUnder_eq (bufferId bufferName : Str) (bufferType : BufferType) (text context : Str)
    (dmPeerWire : Option Str) :
    sendUnder P bufferId bufferName bufferType text context dmPeerWire =
      gateRead (keyring (·.getChannelConfig context)) >>=
        sendDecided P bufferId bufferName bufferType text context dmPeerWire := rfl

theorem leftoverIdle_congr {s' : AppState} (manager : s'.world.manager = s.world.manager)
    (context : Str) (dmPeerWire : Option Str) :
    LeftoverIdle s' context dmPeerWire ↔ LeftoverIdle s context dmPeerWire := by
  rw [LeftoverIdle, LeftoverIdle, manager]

/-- The probe of the unscoped row: where it is idle the text goes out plain, in both keyrings. -/
theorem probe_idle (wire text : Str)
    (idle : isEnabled (s.world.manager.keyring.getChannelConfig wire) = false) :
    let probe : Gate (List Str × Str) :=
      gateRead (keyring (·.getChannelConfig wire)) >>= fun legacy =>
        if isEnabled legacy then Prog.fail .noPeerHandle else pure (plainPassthrough text)
    ((probe s).1 = .ok (plainPassthrough text) ∨
        (probe s).1 = .error .keyringRead ∧ s.world.env.faults ≠ []) ∧
      ∀ configs : Configs,
        isEnabled ((withConfigs configs s.world.manager.keyring).getChannelConfig wire) = false →
          (probe (s.withConfigs configs)).1 = (probe s).1 := by
  intro probe
  obtain ⟨s', -, failed | read⟩ := gateRead_pair (fun kr => kr.getChannelConfig wire) s
  · obtain ⟨here, failing, there⟩ := failed
    have refused : (probe s).1 = .error .keyringRead := by
      simp only [probe, Prog.bind_of_error here]
    refine ⟨.inr ⟨refused, failing⟩, fun configs _ => ?_⟩
    rw [refused]
    simp only [probe, Prog.bind_of_error (there configs)]
  · obtain ⟨here, -, there⟩ := read
    have plain : (probe s).1 = .ok (plainPassthrough text) := by
      simp only [probe, Prog.bind_of_ok here, idle]
      rfl
    refine ⟨.inl plain, fun configs also => ?_⟩
    rw [plain]
    simp only [probe, Prog.bind_of_ok (there configs), also]
    rfl

theorem sendDecided_own (bufferId bufferName : Str) (bufferType : BufferType) (text : Str)
    (dmPeerWire : Option Str) :
    let sent := fun s =>
      (sendDecided P bufferId bufferName bufferType text context dmPeerWire (some cfg) s).1
    Decides P cfg text (s.world.env.faults = []) (LeftoverIdle s context dmPeerWire) (sent s) ∧
      ∀ configs : Configs,
        (cfg.enabled = false → LeftoverIdle s context dmPeerWire ∧
          LeftoverIdle (s.withConfigs configs) context dmPeerWire) →
        sent (s.withConfigs configs) = sent s := by
  intro sent
  cases enabled : cfg.enabled with
  | true =>
      have sealed (u : AppState) : sent u =
          (encryptAndDrain P bufferId bufferName bufferType context text u).1 := by
        have on : isEnabled (some cfg) = true := by simpa [isEnabled] using enabled
        simp only [sent, sendDecided, if_pos on]
      constructor
      · rw [sealed]
        exact ⟨fun _ => encryptAndDrain_ciphertext P _ _ _ _ _ s, by simp [enabled],
          by simp [enabled]⟩
      · intro configs _
        rw [sealed, sealed]
        exact (encryptAndDrain_blind P _ _ _ _ _).result s
  | false =>
      have off : isEnabled (some cfg) = false := by simpa [isEnabled] using enabled
      cases asked : dmPeerWire.filter fun _ => !isBouncerScope context with
      | none =>
          have plain (u : AppState) : sent u = .ok (plainPassthrough text) := by
            simp only [sent, sendDecided, off, asked]
            rfl
          rw [plain]
          exact ⟨⟨by simp [enabled], fun _ _ => .inl rfl, fun _ _ _ => rfl⟩,
            fun configs _ => plain _⟩
      | some wire =>
          obtain ⟨present, outside⟩ := Option.filter_eq_some_iff.mp asked
          have outside : isBouncerScope context = false := by simpa using outside
          have probes (u : AppState) : sent u =
              ((gateRead (keyring (·.getChannelConfig wire)) >>= fun legacy =>
                if isEnabled legacy then Prog.fail .noPeerHandle
                else pure (plainPassthrough text) : Gate (List Str × Str)) u).1 := by
            simp only [sent, sendDecided, off, asked]
            rfl
          constructor
          · rw [probes]
            refine ⟨by simp [enabled], fun _ idle => ?_, fun _ idle clear => ?_⟩
            · cases (probe_idle wire text (idle wire present outside)).1 with
              | inl plain => exact .inl plain
              | inr refused => exact .inr refused.1
            · cases (probe_idle wire text (idle wire present outside)).1 with
              | inl plain => exact plain
              | inr refused => exact absurd clear refused.2
          · intro configs idle
            rw [probes, probes]
            have both := idle rfl
            exact (probe_idle wire text (both.1 wire present outside)).2 configs
              (both.2 wire present outside)

/-- Under the own row the gate ends the same way whatever the other rows are. -/
theorem sendUnder_own (bufferId bufferName : Str) (bufferType : BufferType) (text : Str)
    (dmPeerWire : Option Str)
    (row : s.world.manager.keyring.channelConfig.find? context = some cfg) :
    let sent := fun s => (sendUnder P bufferId bufferName bufferType text context dmPeerWire s).1
    Decides P cfg text (s.world.env.faults = []) (LeftoverIdle s context dmPeerWire) (sent s) ∧
      ∀ configs : Configs, configs.find? context = some cfg →
        (cfg.enabled = false → LeftoverIdle s context dmPeerWire ∧
          LeftoverIdle (s.withConfigs configs) context dmPeerWire) →
        sent (s.withConfigs configs) = sent s := by
  intro sent
  obtain ⟨s', manager, failed | read⟩ :=
    gateRead_pair (fun kr => kr.getChannelConfig context) s
  · obtain ⟨here, failing, there⟩ := failed
    have refused : sent s = .error .keyringRead := by
      simp only [sent, sendUnder_eq, Prog.bind_of_error here]
    refine ⟨refused ▸ decides_refused text _ _ failing, fun configs _ _ => ?_⟩
    rw [refused]
    simp only [sent, sendUnder_eq, Prog.bind_of_error (there configs)]
  · obtain ⟨here, clear, there⟩ := read
    rw [getChannelConfig_own _ row] at here
    have decided := @sendDecided_own P s' context cfg bufferId bufferName bufferType text dmPeerWire
    have from_here : sent s = (sendDecided P bufferId bufferName bufferType text context dmPeerWire
        (some cfg) s').1 := by
      simp only [sent, sendUnder_eq, Prog.bind_of_ok here]
    constructor
    · rw [from_here]
      have idle := leftoverIdle_congr manager context dmPeerWire
      exact ⟨decided.1.enabled, fun off rest => decided.1.disabled off (idle.mpr rest),
        fun off rest calm => decided.1.unfailing off (idle.mpr rest) (clear calm)⟩
    · intro configs same idle
      have there := there configs
      rw [getChannelConfig_own (withConfigs configs s.world.manager.keyring) same] at there
      have moved : (s'.withConfigs configs).world.manager = (s.withConfigs configs).world.manager := by
        simp only [AppState.withConfigs, worldWithConfigs, World.setKeyring, manager]
      rw [from_here]
      simp only [sent, sendUnder_eq, Prog.bind_of_ok there]
      apply decided.2 configs
      intro off
      exact ⟨(leftoverIdle_congr manager _ _).mpr (idle off).1,
        (leftoverIdle_congr moved _ _).mpr (idle off).2⟩

end Own

section Gate

variable {P : Platform} {unicode : Irc.Unicode} {s t : AppState} {bufferId bufferName text : Str}
  {bufferType : BufferType} {captured : Option Str}

/-- The keyring is as it was, and no fault has come up. -/
structure Still (s s' : AppState) : Prop where
  manager : s'.world.manager = s.world.manager
  calm : s.world.env.faults = [] → s'.world.env.faults = []

instance : IsPreorder AppState Still where
  refl _ := ⟨rfl, id⟩
  trans _ _ _ first second :=
    ⟨second.manager.trans first.manager, fun clear => second.calm (first.calm clear)⟩

theorem resolveQueryPeerHandle_still (bufferId bufferName : Str) :
    Prog.Ensures Still s (resolveQueryPeerHandle bufferId bufferName) fun _ _ => True := by
  apply Prog.ensures_read_bind
  cases (id s).peerHandleOf bufferId with
  | some handle => exact Prog.ensures_pure _ trivial
  | none =>
      apply Prog.ensures_ite
      · intro _
        cases (id s).networkOf bufferId with
        | none => exact Prog.ensures_pure _ trivial
        | some net =>
            apply (Prog.after_zoom _ _ _).mpr
            apply Prog.After.mono (query_reads _)
            · exact fun _ _ read => ⟨⟨read.1.manager, read.1.faults⟩, trivial⟩
            · exact fun _ _ read => ⟨read.manager, read.faults⟩
      · exact fun _ => Prog.ensures_pure _ trivial

theorem gatePeerHandle_still (bufferId bufferName : Str) (captured : Option Str) :
    Still s (gatePeerHandle bufferId bufferName captured s).2 := by
  have ensures : Prog.Ensures Still s (gatePeerHandle bufferId bufferName captured)
      fun _ _ => True := by
    apply Prog.ensures_bind fun _ _ => True
    · apply (Prog.after_mapError _ _).mpr
      apply Prog.After.mono (Prog.ensures_attempt (resolveQueryPeerHandle_still bufferId bufferName))
      · exact fun _ _ stop => ⟨stop.1, trivial⟩
      · exact fun _ _ stop => stop
    · intro found s' _ _
      cases found with
      | ok live => exact Prog.ensures_pure _ trivial
      | error e =>
          cases captured with
          | some handle => exact Prog.ensures_pure _ trivial
          | none => exact Prog.ensures_fail _
  exact ensures.moved

/-- The network-scoped context a text of the buffer goes out under, as the gate finds it, with the
unscoped one of a direct message. -/
def ownContext (s : AppState) (bufferId bufferName : Str) (bufferType : BufferType)
    (captured : Option Str) : Option (Str × Option Str) :=
  match s.networkOf bufferId, bufferType with
  | some net, .channel =>
      let context := scopedContext net bufferName
      some ((s.world.manager.keyring.canonicalChannelContext context).getD context, none)
  | some net, .query =>
      match (gatePeerHandle bufferId bufferName captured s).1 with
      | .ok (some handle) =>
          let wire := contextKey bufferName handle
          some (scopedContext net wire, some wire)
      | _ => none
  | _, _ => none

/-- The conversation has a row of its own. -/
structure OwnRow (s : AppState) (bufferId bufferName : Str) (bufferType : BufferType)
    (captured : Option Str) (context : Str) (wire : Option Str) (cfg : ChannelConfig) : Prop where
  loaded : s.e2eLoaded = true
  found : ownContext s bufferId bufferName bufferType captured = some (context, wire)
  row : s.world.manager.keyring.channelConfig.find? context = some cfg

/-- What is left of the gate behind the confirmation and the bots. -/
def gateRest (P : Platform) (bufferId bufferName : Str) (bufferType : BufferType) (text : Str)
    (captured : Option Str) : Gate (List Str × Str) :=
  match bufferType with
  | .channel => sendToChannel P bufferId bufferName text
  | .query => sendToQuery P bufferId bufferName text captured
  | _ => pure (plainPassthrough text)

theorem gate_rest (typed : isBotCommand bufferType text = false) (loaded : t.e2eLoaded = true)
    (passes : confirmBouncer unicode bufferId bufferName bufferType s = (.ok (), t)) :
    e2eEncryptOrPassthrough P unicode bufferId bufferName bufferType text captured s =
      gateRest P bufferId bufferName bufferType text captured t := by
  unfold e2eEncryptOrPassthrough
  rw [Prog.bind_of_ok passes, typed]
  show (if !t.e2eLoaded then pure (plainPassthrough text)
    else gateRest P bufferId bufferName bufferType text captured : Gate (List Str × Str)) t = _
  rw [loaded]
  rfl

/-- Where the state the decision is made in differs from the one the row was found in by the reads
before it only. -/
theorem sendUnder_still {u : AppState} {context : Str} {cfg : ChannelConfig} (still : Still t u)
    (wire : Option Str) (row : t.world.manager.keyring.channelConfig.find? context = some cfg) :
    let sent := fun u => (sendUnder P bufferId bufferName bufferType text context wire u).1
    Decides P cfg text (t.world.env.faults = []) (LeftoverIdle t context wire) (sent u) ∧
      ∀ configs : Configs, configs.find? context = some cfg →
        (cfg.enabled = false → LeftoverIdle t context wire ∧
          LeftoverIdle (t.withConfigs configs) context wire) →
        sent (u.withConfigs configs) = sent u := by
  intro sent
  have here : u.world.manager.keyring.channelConfig.find? context = some cfg := by
    rw [still.manager, row]
  have decided := @sendUnder_own P u context cfg bufferId bufferName bufferType text wire here
  have idle := leftoverIdle_congr still.manager context wire
  constructor
  · exact ⟨decided.1.enabled, fun off rest => decided.1.disabled off (idle.mpr rest),
      fun off rest calm => decided.1.unfailing off (idle.mpr rest) (still.calm calm)⟩
  · intro configs same leftover
    have moved : (u.withConfigs configs).world.manager = (t.withConfigs configs).world.manager := by
      simp only [AppState.withConfigs, worldWithConfigs, World.setKeyring, still.manager]
    apply decided.2 configs same
    intro off
    exact ⟨idle.mpr (leftover off).1, (leftoverIdle_congr moved _ _).mpr (leftover off).2⟩

theorem sendToChannel_own {net : Str} {context : Str} {cfg : ChannelConfig}
    (network : t.networkOf bufferId = some net)
    (canonical : (t.world.manager.keyring.canonicalChannelContext
      (scopedContext net bufferName)).getD (scopedContext net bufferName) = context)
    (row : t.world.manager.keyring.channelConfig.find? context = some cfg) :
    let sent := fun u => (sendToChannel P bufferId bufferName text u).1
    Decides P cfg text (t.world.env.faults = []) True (sent t) ∧
      ∀ configs : Configs,
        ((withConfigs configs t.world.manager.keyring).canonicalChannelContext
          (scopedContext net bufferName)).getD (scopedContext net bufferName) = context →
        configs.find? context = some cfg → sent (t.withConfigs configs) = sent t := by
  intro sent
  let next (found : Option Str) : Gate (List Str × Str) :=
    sendUnder P bufferId bufferName .channel text (found.getD (scopedContext net bufferName)) none
  let asked (kr : Keyring) := kr.canonicalChannelContext (scopedContext net bufferName)
  have reads (u : AppState) (same : u.networkOf bufferId = some net) :
      sent u = ((gateRead (keyring asked) >>= next) u).1 := by
    show ((gateRead (keyring (·.canonicalChannelContext
      (scopeUnder (u.networkOf bufferId) bufferName))) >>= fun found =>
        sendUnder P bufferId bufferName .channel text
          (found.getD (scopeUnder (u.networkOf bufferId) bufferName)) none) u).1 = _
    rw [same]
    rfl
  obtain ⟨u, manager, failed | read⟩ := gateRead_pair asked t
  · obtain ⟨here, failing, there⟩ := failed
    have refused : sent t = .error .keyringRead := by
      rw [reads t network, Prog.bind_of_error here]
    refine ⟨refused ▸ decides_refused text _ _ failing, fun configs _ _ => ?_⟩
    rw [refused, reads (t.withConfigs configs) network, Prog.bind_of_error (there configs)]
  · obtain ⟨here, calm, there⟩ := read
    have decided := @sendUnder_still P t bufferId bufferName text .channel u context cfg
      ⟨manager, calm⟩ none row
    have from_here : sent t = (next (asked t.world.manager.keyring) u).1 := by
      rw [reads t network, Prog.bind_of_ok here]
    have under (found : Option Str) (same : found.getD (scopedContext net bufferName) = context) :
        next found = sendUnder P bufferId bufferName .channel text context none := by
      simp only [next, same]
    have idle (v : AppState) : LeftoverIdle v context none := nofun
    rw [from_here, under _ canonical]
    constructor
    · exact ⟨decided.1.enabled, fun off _ => decided.1.disabled off (idle t),
        fun off _ calm => decided.1.unfailing off (idle t) calm⟩
    · intro configs also same
      rw [reads (t.withConfigs configs) network, Prog.bind_of_ok (there configs), under _ also]
      exact decided.2 configs same fun _ => ⟨idle _, idle _⟩

theorem sendToQuery_own {net handle : Str} {cfg : ChannelConfig}
    (network : t.networkOf bufferId = some net)
    (resolved : (gatePeerHandle bufferId bufferName captured t).1 = .ok (some handle))
    (row : t.world.manager.keyring.channelConfig.find?
      (scopedContext net (contextKey bufferName handle)) = some cfg) :
    let wire := contextKey bufferName handle
    let context := scopedContext net wire
    let sent := fun u => (sendToQuery P bufferId bufferName text captured u).1
    Decides P cfg text (t.world.env.faults = []) (LeftoverIdle t context (some wire)) (sent t) ∧
      ∀ configs : Configs, configs.find? context = some cfg →
        (cfg.enabled = false → LeftoverIdle t context (some wire) ∧
          LeftoverIdle (t.withConfigs configs) context (some wire)) →
        sent (t.withConfigs configs) = sent t := by
  intro wire context sent
  have sends (u v : AppState) (same : u.networkOf bufferId = some net)
      (ran : gatePeerHandle bufferId bufferName captured u = (.ok (some handle), v)) :
      sent u = (sendUnder P bufferId bufferName .query text context (some wire) v).1 := by
    show ((gatePeerHandle bufferId bufferName captured >>= fun found => match found with
      | none => gateRead (keyring (·.getChannelConfig bufferName)) >>= fun cfg =>
          if isEnabled cfg then Prog.fail .noPeerHandle else pure (plainPassthrough text)
      | some handle => sendUnder P bufferId bufferName .query text
          (scopeUnder (u.networkOf bufferId) (contextKey bufferName handle))
          (some (contextKey bufferName handle)) : Gate (List Str × Str)) u).1 = _
    rw [Prog.bind_of_ok ran, same]
    rfl
  have here : gatePeerHandle bufferId bufferName captured t =
      (.ok (some handle), (gatePeerHandle bufferId bufferName captured t).2) := by
    rw [← resolved]
  have decided := @sendUnder_still P t bufferId bufferName text .query _ context cfg
    (gatePeerHandle_still bufferId bufferName captured) (some wire) row
  rw [sends t _ network here]
  refine ⟨decided.1, fun configs same idle => ?_⟩
  have there := (@gatePeerHandle_blind configs bufferId bufferName captured).run here
  rw [sends (t.withConfigs configs) _ network there]
  exact decided.2 configs same idle

/-- The rest of the gate ends as it does under the conversation's own row. -/
theorem gateRest_own {context : Str} {wire : Option Str} {cfg : ChannelConfig}
    (own : OwnRow t bufferId bufferName bufferType captured context wire cfg) :
    let sent := fun u => (gateRest P bufferId bufferName bufferType text captured u).1
    Decides P cfg text (t.world.env.faults = []) (LeftoverIdle t context wire) (sent t) ∧
      ∀ configs : Configs,
        OwnRow (t.withConfigs configs) bufferId bufferName bufferType captured context wire cfg →
        (cfg.enabled = false → LeftoverIdle t context wire ∧
          LeftoverIdle (t.withConfigs configs) context wire) →
        sent (t.withConfigs configs) = sent t := by
  intro sent
  obtain ⟨loaded, found, row⟩ := own
  cases network : t.networkOf bufferId with
  | none => simp [ownContext, network] at found
  | some net =>
      cases bufferType with
      | channel =>
          simp only [ownContext, network, Option.some.injEq, Prod.mk.injEq] at found
          obtain ⟨canonical, rfl⟩ := found
          have decided := @sendToChannel_own P t bufferId bufferName text net context cfg network
            canonical row
          refine ⟨⟨decided.1.enabled, fun off _ => decided.1.disabled off trivial,
            fun off _ calm => decided.1.unfailing off trivial calm⟩, fun configs also _ => ?_⟩
          have network' : (t.withConfigs configs).networkOf bufferId = some net := network
          have there := also.found
          simp only [ownContext, network', Option.some.injEq, Prod.mk.injEq] at there
          exact decided.2 configs there.1 also.row
      | query =>
          simp only [ownContext, network] at found
          split at found
          · rename_i handle resolved
            simp only [Option.some.injEq, Prod.mk.injEq] at found
            obtain ⟨rfl, rfl⟩ := found
            have decided := @sendToQuery_own P t bufferId bufferName text captured net handle cfg
              network resolved row
            exact ⟨decided.1, fun configs also idle => decided.2 configs also.row idle⟩
          · cases found
      | mentions => simp [ownContext, network] at found
      | server => simp [ownContext, network] at found
      | dccChat => simp [ownContext, network] at found
      | special => simp [ownContext, network] at found
      | shell => simp [ownContext, network] at found
      | log => simp [ownContext, network] at found

end Gate

section Main

/-- A connection that is no bouncer's needs no confirmation. -/
theorem needs_no_confirmation (unicode : Irc.Unicode) (s : AppState) (connId target : Str)
    (outside : ∀ conn, s.connections.get? connId = some conn →
      conn.bouncerNetworkId = none ∧ conn.bouncerControl = false) :
    bouncerE2eNeedsConfirmation unicode connId target s = (.ok false, s) := by
  have unlisted : (s.connections.get? connId).filter (fun conn =>
      conn.bouncerNetworkId.isSome || conn.bouncerControl) = none := by
    cases found : s.connections.get? connId with
    | none => rfl
    | some conn => simp [outside conn found]
  have first : (Prog.read id s : Except E2eError AppState × AppState) = (.ok s, s) := rfl
  rw [bouncerE2eNeedsConfirmation, Prog.bind_of_ok first]
  simp only [unlisted]
  rfl

/-- Outside a bouncer's connection there is nothing to confirm. -/
theorem confirmBouncer_outside (unicode : Irc.Unicode) (s : AppState) (bufferId bufferName : Str)
    (bufferType : BufferType)
    (outside : ∀ id rest conn, splitOnce '/' bufferId = some (id, rest) →
      s.connections.get? id = some conn →
        conn.bouncerNetworkId = none ∧ conn.bouncerControl = false) :
    confirmBouncer unicode bufferId bufferName bufferType s = (.ok (), s) := by
  have unasked : bouncerCheck unicode bufferId bufferName bufferType s = (.ok false, s) := by
    rw [bouncerCheck]
    split
    · cases split : splitOnce '/' bufferId with
      | none => rfl
      | some parts =>
        exact needs_no_confirmation unicode s parts.1 bufferName fun conn found =>
          outside parts.1 parts.2 conn split found
    · rfl
  have read : gateRead (bouncerCheck unicode bufferId bufferName bufferType) s =
      (.ok false, s) := by
    rw [gateRead, Prog.mapError, unasked]
    rfl
  rw [confirmBouncer, Prog.bind_of_ok read]
  rfl

/-- A conversation's own row decides: two keyrings that agree on it send alike whatever else their
config tables hold, and it is asked for no confirmation outside a bouncer's connection. -/
theorem scoped_setting_wins (P : Platform) (unicode : Irc.Unicode) (s t : AppState)
    (bufferId bufferName : Str) (bufferType : BufferType) (text : Str) (captured : Option Str)
    (context : Str) (wire : Option Str) (cfg : ChannelConfig)
    (typed : isBotCommand bufferType text = false)
    (passes : confirmBouncer unicode bufferId bufferName bufferType s = (.ok (), t))
    (own : OwnRow t bufferId bufferName bufferType captured context wire cfg) :
    let sent := fun u =>
      (e2eEncryptOrPassthrough P unicode bufferId bufferName bufferType text captured u).1
    Decides P cfg text (t.world.env.faults = []) (LeftoverIdle t context wire) (sent s) ∧
      ∀ (configs : Configs),
        confirmBouncer unicode bufferId bufferName bufferType (s.withConfigs configs) =
          (.ok (), t.withConfigs configs) →
        OwnRow (t.withConfigs configs) bufferId bufferName bufferType captured context wire cfg →
        (cfg.enabled = false → LeftoverIdle t context wire ∧
          LeftoverIdle (t.withConfigs configs) context wire) →
        sent (s.withConfigs configs) = sent s := by
  intro sent
  have decided := @gateRest_own P t bufferId bufferName text bufferType captured context wire cfg own
  have here : sent s = (gateRest P bufferId bufferName bufferType text captured t).1 :=
    congrArg Prod.fst (gate_rest typed own.loaded passes)
  rw [here]
  refine ⟨decided.1, fun configs passes' own' idle => ?_⟩
  have there : sent (s.withConfigs configs) =
      (gateRest P bufferId bufferName bufferType text captured (t.withConfigs configs)).1 :=
    congrArg Prod.fst (gate_rest typed own'.loaded passes')
  rw [there]
  exact decided.2 configs own' idle

/-- A client with the manager loaded and two networks configured, at a buffer of one of them. -/
def clientWith (bouncerNetworkId : Option Str) (rows : List ChannelConfig) : AppState :=
  let fresh := World.fresh [] 0
  let kr : Keyring := { Keyring.empty with
    configuredNetworks := ⟨["net".toList, "other".toList], by decide⟩ }
  { buffers := .empty
    connections := Map.insert .empty "net".toList
      ⟨"net".toList, "net".toList, none, bouncerNetworkId, false, "me".toList⟩
    e2eLoaded := true
    world := fresh.setKeyring (rows.foldl Keyring.setChannelConfig kr)
    pendingE2eSends := []
    localMessages := [] }

/-- The rows of a direct message with b@h: its own, the one its handle had before, and a bare one. -/
def ownDm (enabled : Bool) : ChannelConfig :=
  ⟨scopedContext "net".toList "@b@h".toList, enabled, .normal⟩
def leftoverDm (enabled : Bool) : ChannelConfig := ⟨"@b@h".toList, enabled, .normal⟩
def bareDm : ChannelConfig := ⟨"bob".toList, true, .normal⟩

def sendDm (s : AppState) : Except E2eRefusal (List Str × Str) :=
  (e2eEncryptOrPassthrough Platform.symbolic .ascii "net/bob".toList "bob".toList .query
    "hi".toList (some "b@h".toList) s).1

/-- A line for bots leaves an enabled channel in the clear, a bouncer's connection may ask for a
confirmation because of another row, and a leftover row that is enabled holds back a direct message
whose own row is not. -/
theorem own_row_is_not_all :
    (e2eEncryptOrPassthrough Platform.symbolic .ascii "net/#a".toList "#a".toList .channel
      "!go".toList none (clientWith none
        [⟨scopedContext "net".toList "#a".toList, true, .normal⟩])).1 =
        .ok (["!go".toList], "!go".toList) ∧
      sendDm (clientWith (some "1".toList) [ownDm false]) = .ok (["hi".toList], "hi".toList) ∧
      sendDm (clientWith (some "1".toList) [ownDm false, bareDm]) =
        .error .bouncerScopeChanged ∧
      sendDm (clientWith none [ownDm false]) = .ok (["hi".toList], "hi".toList) ∧
      sendDm (clientWith none [ownDm false, leftoverDm true]) = .error .noPeerHandle := by
  decide +kernel

/-- A bare row changes nothing for a direct message that has its own. -/
theorem scoped_setting_wins_dm :
    Decides Platform.symbolic (ownDm false) "hi".toList True True
        (sendDm (clientWith none [ownDm false])) ∧
      sendDm (clientWith none [ownDm false, bareDm]) = sendDm (clientWith none [ownDm false]) := by
  let rows : Configs := ⟨[ownDm false, bareDm], by decide⟩
  have outside (s : AppState) (same : s.connections = (clientWith none []).connections) :
      confirmBouncer .ascii "net/bob".toList "bob".toList .query s = (.ok (), s) := by
    apply confirmBouncer_outside
    intro id rest conn split found
    rw [show splitOnce '/' "net/bob".toList = some ("net".toList, "bob".toList) by decide] at split
    cases split
    rw [same] at found
    cases found
    exact ⟨rfl, rfl⟩
  have wins := scoped_setting_wins Platform.symbolic .ascii (clientWith none [ownDm false])
    (clientWith none [ownDm false]) "net/bob".toList "bob".toList .query "hi".toList
    (some "b@h".toList) (ownDm false).channel (some "@b@h".toList) (ownDm false) rfl
    (outside _ rfl) ⟨rfl, rfl, rfl⟩
  have idle (s : AppState) (unset : s.world.manager.keyring.getChannelConfig "@b@h".toList = none) :
      LeftoverIdle s (ownDm false).channel (some "@b@h".toList) := by
    intro wire member _
    cases member
    rw [unset]
    rfl
  constructor
  · exact ⟨wins.1.enabled, fun off _ => wins.1.disabled off (idle _ rfl),
      fun off _ _ => wins.1.unfailing off (idle _ rfl) rfl⟩
  · exact wins.2 rows (outside _ rfl) ⟨rfl, rfl, rfl⟩ fun _ => ⟨idle _ rfl, idle _ rfl⟩

end Main

end Repartee.App
