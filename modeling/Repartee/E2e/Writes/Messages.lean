import Repartee.E2e.Writes.Outgoing

/-!
The writes of the message handlers, each under what its message must have shown before.
-/

namespace Repartee.E2e

open Text Lib

section Verdicts

/-- What the classification answers when the database does. -/
def Keyring.classify (kr : Keyring) (newFp : Fingerprint) (newHandle : Str) : TrustChange :=
  match kr.getPeerByFingerprint newFp with
  | some existing =>
      if existing.globalStatus = .revoked then .revoked newHandle newFp
      else if existing.lastHandle ≠ some newHandle then
        .handleChanged (existing.lastHandle.getD []) newHandle newFp
      else .known
  | none => match kr.getPeerByHandle newHandle with
      | some existing => .fingerprintChanged newHandle existing.fingerprint newFp
      | none => .new

/-- The mode the database gives a sender on a channel, when encryption is on there. -/
def Keyring.modeFor (kr : Keyring) (lower : Char → List Char) (handle channel : Str) :
    Option ChannelMode :=
  match kr.getChannelConfig channel with
  | none => none
  | some cfg =>
      if cfg.enabled = false then none
      else if kr.autotrustMatches lower handle channel then some .autoAccept else some cfg.mode

def Keyring.trusts (kr : Keyring) (handle channel : Str) : Bool :=
  (kr.getIncomingSession handle channel).any fun s => s.status = .trusted

/-- A request that is answered with our key: it is within its sender's rate, signed by the key it
names, from nobody new at a known handle, and let through by the mode or by an earlier consent. -/
structure Served (P : Platform) (w : World) (handle : Str) (req : KeyReq) : Prop where
  admitted : (w.manager.rateLimiter.allowIncoming w.env.instant handle).1 = true
  authentic : verify P req.pubkey
    (signedKeyreqPayload (wireContext req.channel) req.pubkey req.ephX25519 req.nonce) req.sig =
      .ok ()
  accepted : (w.manager.keyring.classify (fingerprint P req.pubkey) handle).accepted = true
  policy : ∃ mode, w.manager.keyring.modeFor P.charLowercase handle req.channel = some mode ∧
    (mode = .autoAccept ∨ w.manager.keyring.trusts handle req.channel = true)

/-- A pending handshake that is still within its time to live. -/
def Live (w : World) (entry : (Str × Bytes) × PendingHandshake) : Prop :=
  entry ∈ w.manager.pending ∧ w.env.now - entry.2.createdAt ≤ pendingKeyreqTtlSecs

/-- A response that is taken: it is signed by the key it names, a pending handshake of its
channel opens it, and its sender is the peer we know at the handle or a new one. -/
structure Answered (P : Platform) (w : World) (handle : Str) (rsp : KeyRsp) (sk : SessionKey) :
    Prop where
  authentic : verify P rsp.pubkey (signedKeyrspPayload (wireContext rsp.channel) rsp.pubkey
    rsp.ephemeralPub rsp.wrapNonce rsp.wrapCt rsp.nonce) rsp.sig = .ok ()
  opens : ∃ entry, Live w entry ∧ entry.1.1 = rsp.channel ∧
    unwrapKeyrsp P rsp entry.2.ephX25519Secret = some sk
  accepted : (w.manager.keyring.classify (fingerprint P rsp.pubkey) handle).accepted = true

/-- A rekey that is taken: it is signed by the key it names, its sender is the peer we know at
the handle, its nonce is new, and our identity opens it. -/
structure Rekeyed (P : Platform) (w : World) (handle : Str) (msg : KeyRekey) (sk : SessionKey) :
    Prop where
  authentic : verify P msg.pubkey (signedKeyrekeyPayload (wireContext msg.channel) msg.pubkey
    msg.ephPub msg.wrapNonce msg.wrapCt msg.nonce) msg.sig = .ok ()
  known : w.manager.keyring.classify (fingerprint P msg.pubkey) handle = .known
  fresh : ⟨fingerprint P msg.pubkey, msg.channel, msg.nonce⟩ ∉ w.manager.keyring.seenRekeys
  unwraps : unwrapRekey P w.manager.identity msg = .ok sk

end Verdicts

variable {P : Platform} {L : License} {w : World} {α : Type}

section Reading

theorem classifyPeerChange_reads (fp : Fingerprint) (handle : Str) :
    Prog.Ensures Reads w (classifyPeerChange fp handle) fun change _ =>
      change = w.manager.keyring.classify fp handle := by
  unfold classifyPeerChange Keyring.classify
  refine (query_reads _).bind fun found v₁ read₁ same => ?_
  rw [← same]
  cases found with
  | some existing =>
      exact Prog.ensures_ite (fun revoked => Prog.ensures_pure _ (by simp [revoked])) fun active =>
        Prog.ensures_ite (fun moved => Prog.ensures_pure _ (by simp [active, moved]))
          fun held => Prog.ensures_pure _ (by simp [active, held])
  | none =>
      refine (query_reads _).bind fun bound v₂ _ same => ?_
      rw [read₁.manager] at same
      rw [← same]
      cases bound <;> exact Prog.ensures_pure _ rfl

theorem effectiveChannelMode_reads (handle channel : Str) :
    Prog.Ensures Reads w (effectiveChannelMode P handle channel) fun mode _ =>
      mode = w.manager.keyring.modeFor P.charLowercase handle channel := by
  unfold effectiveChannelMode Keyring.modeFor
  refine (query_reads _).bind fun found v₁ read₁ same => ?_
  rw [← same]
  cases found with
  | none => exact Prog.ensures_pure _ rfl
  | some cfg =>
      refine Prog.ensures_ite (fun off => Prog.ensures_pure _ (by simp [off])) fun on => ?_
      refine (query_reads _).bind fun trusted v₂ _ same => ?_
      rw [read₁.manager] at same
      rw [← same]
      exact Prog.ensures_ite (fun matched => Prog.ensures_pure _ (by simp [on, matched]))
        fun unmatched => Prog.ensures_pure _ (by simp [on, unmatched])

theorem trustedIncoming_reads (handle channel : Str) :
    Prog.Ensures Reads w (trustedIncoming handle channel) fun trusted _ =>
      trusted = w.manager.keyring.trusts handle channel :=
  query_reads _

theorem knownStatus_reads (change : TrustChange) (fp : Fingerprint) :
    Prog.Ensures Reads w (knownStatus change fp) fun _ _ => True := by
  unfold knownStatus
  split
  · exact (query_reads _).bind fun _ _ _ _ => Prog.ensures_pure _ trivial
  · exact Prog.ensures_pure _ trivial

theorem legacyFallback_congr (kr kr' : Keyring) (channel : Str)
    (networks : kr'.configuredNetworks = kr.configuredNetworks) :
    kr'.legacyFallback channel = kr.legacyFallback channel := by
  unfold Keyring.legacyFallback Keyring.legacyAdoptionAllowed
  rw [networks]

theorem trusts_congr (kr kr' : Keyring) (handle channel : Str)
    (incoming : kr'.incoming = kr.incoming)
    (networks : kr'.configuredNetworks = kr.configuredNetworks) :
    kr'.trusts handle channel = kr.trusts handle channel := by
  have exact : kr'.getIncomingSessionExact handle = kr.getIncomingSessionExact handle := by
    funext context
    simp only [Keyring.getIncomingSessionExact, Keyring.getIncomingRow, incoming]
  simp only [Keyring.trusts, Keyring.getIncomingSession, exact,
    legacyFallback_congr kr kr' channel networks]

end Reading

section Quietly

theorem recordTrustChange_quiet (notice : PendingTrustNotice) :
    Prog.Ensures Quiet w (recordTrustChange notice) fun _ _ => True :=
  ⟨⟨.still rfl rfl rfl (.inl rfl), rfl⟩, trivial⟩

theorem allowIncoming_quiet (handle : Str) :
    Prog.Ensures Quiet w (allowIncoming handle) fun allowed w' =>
      allowed = (w.manager.rateLimiter.allowIncoming w.env.instant handle).1 ∧
        w'.manager.keyring = w.manager.keyring :=
  Prog.ensures_update _ ⟨.still rfl rfl rfl (.inl rfl), rfl⟩ ⟨rfl, rfl⟩

theorem allowOutgoing_quiet (handle : Str) :
    Prog.Ensures Quiet w (allowOutgoing handle) fun _ _ => True :=
  Prog.ensures_update _ ⟨.still rfl rfl rfl (.inl rfl), rfl⟩ trivial

theorem pruneExpiredPending_quiet :
    Prog.Ensures Quiet w pruneExpiredPending fun _ w' =>
      w'.manager.keyring = w.manager.keyring ∧ w'.env = w.env ∧
        ∀ e ∈ w'.manager.pending, Live w e := by
  have live : ∀ e ∈ w.manager.pending.retain (fun _ ph =>
      decide (w.env.now - ph.createdAt ≤ pendingKeyreqTtlSecs)), Live w e := by
    intro e member
    rw [Map.mem_retain, decide_eq_true_eq] at member
    exact member
  exact ⟨⟨⟨fun e member => (live e member).1, fun e kept => ((Map.mem_retain _ _ _).mp kept).1,
    le_rfl, fun clear => clear⟩, rfl⟩, rfl, rfl, live⟩

theorem requireKnownSender_quiet (handle : Str) (msg : KeyRekey) (change : TrustChange) :
    Prog.Ensures Quiet w (requireKnownSender handle msg change) fun _ _ => change = .known := by
  unfold requireKnownSender
  split
  · exact Prog.ensures_fail _
  · exact Prog.ensures_pure _ rfl
  · exact (recordTrustChange_quiet _).bind fun _ _ _ _ => Prog.ensures_fail _

end Quietly

section Peers

/-- The identity is the one on record at the handle. -/
def Bound (kr : Keyring) (handle : Str) (fp : Fingerprint) : Prop :=
  ∃ p ∈ kr.peers, p.fingerprint = fp ∧ p.lastHandle = some handle

theorem upsertPeer_bound (kr : Keyring) (rec : PeerRecord) (handle : Str)
    (at_handle : rec.lastHandle = some handle) :
    Bound (kr.upsertPeer rec) handle rec.fingerprint := by
  by_cases known : ∃ old ∈ kr.peers, old.fingerprint = rec.fingerprint
  · obtain ⟨old, member, same⟩ := known
    exact ⟨PeerRecord.refresh rec old,
      (kr.mem_upsertPeer rec _).mpr (Or.inr (Or.inl ⟨old, member, same, rfl⟩)), same, at_handle⟩
  · have absent : ∀ old ∈ kr.peers, old.fingerprint ≠ rec.fingerprint :=
      fun old member same => known ⟨old, member, same⟩
    exact ⟨rec, (kr.mem_upsertPeer rec _).mpr (Or.inr (Or.inr ⟨rfl, absent⟩)), rfl, at_handle⟩

theorem classify_known (kr : Keyring) (fp : Fingerprint) (handle : Str)
    (known : kr.classify fp handle = .known) : Bound kr handle fp := by
  unfold Keyring.classify at known
  split at known
  · rename_i peer found
    split at known
    · cases known
    · split at known
      · cases known
      · rename_i held
        obtain ⟨member, same⟩ := (Table.find?_eq_some _ _ _).mp found
        exact ⟨peer, member, same, not_not.mp held⟩
  · split at known <;> cases known

theorem upsertPeer_effects (rec : PeerRecord) (licensed : L.upsert w.manager.keyring rec) :
    Prog.Ensures (Effects P L) w (execute (·.upsertPeer rec)) fun _ w' =>
      w'.manager.keyring = w.manager.keyring.upsertPeer rec :=
  ensures_execute _ (tick_reads w).effects
    (.single (.upserted rec licensed (.still rfl rfl rfl (.inr rfl)) rfl)) rfl

/-- A peer whose classification is accepted is written at the handle; any other is refused with a
warning. -/
theorem recordPeer_effects (change : TrustChange) (notice : PendingTrustNotice)
    (refusal : E2eError) (yes : Action Unit) (Post : Unit → World → Prop)
    (upserts : change.accepted = true → Prog.Ensures (Effects P L) w yes Post) :
    Prog.Ensures (Effects P L) w (if change.accepted then yes else do
      recordTrustChange notice
      Prog.fail refusal) fun a w' => change.accepted = true ∧ Post a w' := by
  refine Prog.ensures_ite (fun known => (upserts known).post fun _ _ _ post => ⟨known, post⟩)
    fun _ => ?_
  exact (quietly (recordTrustChange_quiet notice)).bind fun _ _ _ _ => Prog.ensures_fail _

theorem tofuUpsertOnKeyreq_effects (handle : Str) (nick : Option Str) (req : KeyReq)
    (fp : Fingerprint)
    (licensed : ∀ rec : PeerRecord, rec.fingerprint = fp → rec.lastHandle = some handle →
      (w.manager.keyring.classify fp handle).accepted = true → L.upsert w.manager.keyring rec) :
    Prog.Ensures (Effects P L) w (tofuUpsertOnKeyreq handle nick req fp) fun _ w' =>
      (w.manager.keyring.classify fp handle).accepted = true ∧
        ∃ rec : PeerRecord, rec.fingerprint = fp ∧ rec.lastHandle = some handle ∧
          w'.manager.keyring = w.manager.keyring.upsertPeer rec := by
  unfold tofuUpsertOnKeyreq
  refine Prog.ensures_read_bind _ ?_
  refine (quietly (reading (classifyPeerChange_reads fp handle))).bind fun change v _ answered => ?_
  obtain ⟨⟨classified, reads⟩, -⟩ := answered
  rw [← classified] at licensed ⊢
  refine recordPeer_effects change _ _ _ _ fun accepted => ?_
  refine (quietly (reading (knownStatus_reads change fp))).bind fun status v' _ read => ?_
  have same : v'.manager.keyring = w.manager.keyring :=
    congrArg E2eManager.keyring (read.1.2.manager.trans reads.manager)
  refine (upsertPeer_effects _ (same.symm ▸ licensed _ rfl rfl accepted)).post fun _ _ _ stored => ?_
  exact ⟨_, rfl, rfl, stored.trans (congrArg (Keyring.upsertPeer · _) same)⟩

theorem tofuUpsertOnKeyrsp_effects (handle : Str) (rsp : KeyRsp) (fp : Fingerprint) (now : Int)
    (licensed : ∀ rec : PeerRecord, rec.fingerprint = fp → rec.lastHandle = some handle →
      (w.manager.keyring.classify fp handle).accepted = true → L.upsert w.manager.keyring rec) :
    Prog.Ensures (Effects P L) w (tofuUpsertOnKeyrsp handle rsp fp now) fun _ w' =>
      (w.manager.keyring.classify fp handle).accepted = true ∧
        ∃ rec : PeerRecord, rec.fingerprint = fp ∧ rec.lastHandle = some handle ∧
          w'.manager.keyring = w.manager.keyring.upsertPeer rec := by
  unfold tofuUpsertOnKeyrsp
  refine (quietly (reading (classifyPeerChange_reads fp handle))).bind fun change v _ answered => ?_
  obtain ⟨⟨classified, reads⟩, -⟩ := answered
  have same : v.manager.keyring = w.manager.keyring := congrArg E2eManager.keyring reads.manager
  rw [← classified] at licensed ⊢
  refine recordPeer_effects change _ _ _ _ fun accepted => ?_
  refine (upsertPeer_effects _ (same.symm ▸ licensed _ rfl rfl accepted)).post fun _ _ _ stored => ?_
  exact ⟨_, rfl, rfl, stored.trans (congrArg (Keyring.upsertPeer · _) same)⟩

end Peers

section Installing

theorem installIncomingSessionStrict_effects (s : IncomingSession)
    (licensed : L.install w.manager.keyring s ∨ L.placeholder w.manager.keyring s) :
    Prog.Ensures (Keeping (Effects P L) fun v => v.core.peers) w (installIncomingSessionStrict s)
      fun _ w' => ∃ prev, ⟨s, prev⟩ ∈ w'.core.incoming := by
  refine ensures_transact _ ⟨(tick_reads w).effects, rfl⟩ fun _ kr answer => ?_
  cases installed : w.manager.keyring.installIncomingSessionStrict w.env.now s with
  | error e => simp [installed, Except.map] at answer
  | ok kr' =>
      simp only [installed, Except.map, Except.ok.injEq, Prod.mk.injEq, true_and] at answer
      subst answer
      have written := (Keyring.installIncomingSessionStrict_eq_ok _ _ _ _ installed).1
      refine ⟨⟨.single (.installed w.env.now s kr' licensed installed
        (.still rfl rfl rfl (.inr rfl)) ?_), ?_⟩, ?_⟩
      · rw [written]
        rfl
      · change kr'.peers = w.manager.keyring.peers
        rw [written]
      · change ∃ prev, ⟨s, prev⟩ ∈ kr'.incoming
        rw [written]
        exact ⟨_, (Table.mem_replace _ _ _).mpr (Or.inr rfl)⟩

theorem cachePendingInboundNormalMode_effects (handle : Str) (nick : Option Str) (req : KeyReq)
    (fp : Fingerprint) (bound : Bound w.manager.keyring handle fp)
    (placeholder : ∀ kr t, Bound kr handle fp →
      L.placeholder kr ⟨handle, req.channel, fp, zeroKey, .pending, t⟩)
    (request : ∀ kr, Bound kr handle fp → L.request kr handle req.channel req) :
    Prog.Ensures (Effects P L) w (cachePendingInboundNormalMode handle nick req fp)
      fun _ _ => True := by
  unfold cachePendingInboundNormalMode
  refine Prog.ensures_read_bind _ ?_
  refine Prog.ensures_bind (fun _ v => Bound v.manager.keyring handle fp)
    (Prog.Ensures.mono (Prog.ensures_attempt (installIncomingSessionStrict_effects _
      (Or.inr (placeholder _ w.env.now bound)))) (fun _ moved => moved.1) fun _ v moved _ => ?_)
    fun _ v₁ _ held => ?_
  · have kept : v.manager.keyring.peers = w.manager.keyring.peers := moved.2
    unfold Bound
    rw [kept]
    exact bound
  refine (quietly pruneExpiredPending_quiet).bind fun _ v₂ _ pruned => ?_
  rw [← pruned.1.1] at held
  let entry : PendingInboundKeyReq := ⟨req, w.env.now⟩
  let v₃ : World := { v₂ with manager := { v₂.manager with
    pendingInbound := v₂.manager.pendingInbound.insert (handle, req.channel) entry
    pendingAcceptRequests := v₂.manager.pendingAcceptRequests ++ [⟨nick, handle, req.channel⟩] } }
  have cached : Effect P L v₂ v₃ := by
    refine .requested handle req.channel entry (request _ held) ?_ (fun _ member => member) le_rfl
      (fun clear => clear) rfl
    intro e member
    rcases (Table.mem_replace _ _ _).mp member with kept | rfl
    · exact Or.inl kept.1
    · exact Or.inr rfl
  exact ⟨.single cached, trivial⟩

end Installing

section Serving

theorem buildKeyreqForPeer_effects (channel : Str) (peer : Option Str) :
    Prog.Ensures (Effects P L) w (buildKeyreqForPeer P channel peer) fun _ _ => True := by
  unfold buildKeyreqForPeer
  refine (quietly pruneExpiredPending_quiet).bind fun _ v₁ _ _ => ?_
  refine (quietly (draw_quiet 16)).bind fun nonce v₂ _ _ => ?_
  -- The secret's draw and the entry that holds it are one write: no other draw comes between.
  let entry : PendingHandshake := ⟨channel, peer, P.random v₂.env.draws 32, v₂.env.now⟩
  let v₃ : World := { v₂ with
    manager := { v₂.manager with pending := v₂.manager.pending.insert (channel, nonce) entry }
    env := { v₂.env with draws := v₂.env.draws + 1 } }
  have opened : Effect P L v₂ v₃ := by
    refine .opened channel peer nonce v₂.env.draws v₂.env.now le_rfl (Nat.lt_succ_self _) ?_
      (fun _ member => member) (fun clear => clear) rfl
    intro e member
    rcases (Table.mem_replace _ _ _).mp member with kept | rfl
    · exact Or.inl kept.1
    · exact Or.inr rfl
  exact ⟨.tail (.single opened) (.signedReq _ (.still rfl rfl rfl (.inl rfl)) rfl), trivial⟩

theorem wrapForRequest_effects (req : KeyReq) (sk : SessionKey)
    (stored : Stored w sk fun c => c = req.channel ∨ c = wireContext req.channel) :
    Prog.Ensures (Effects P L) w (wrapForRequest P req sk) fun _ _ => True := by
  unfold wrapForRequest
  refine (quietly (draw_quiet 32)).bind fun ephSk v₁ _ quiet₁ => ?_
  refine (quietly (aeadSeal_quiet _ _ _)).bind fun wrap v₂ _ sealed => ?_
  refine Prog.ensures_read_bind _ ?_
  refine (quietly (draw_quiet 16)).bind fun nonce v₃ _ drawn => ?_
  obtain ⟨drawn, quiet₃⟩ := drawn
  have held := ((stored.congr (congrArg Core.outgoing quiet₁.2.core)).congr
    (congrArg Core.outgoing sealed.2.core)).congr (congrArg Core.outgoing quiet₃.core)
  have own : P.verifyingKey v₂.manager.identity = P.verifyingKey v₃.core.identity :=
    congrArg P.verifyingKey (congrArg Core.identity quiet₃.core).symm
  exact ⟨.single (.signedRsp _ req.channel sk _ _ rfl own ⟨⟨_, rfl⟩, sealed.1.2, _, drawn.1⟩
    sealed.1.1 held (.still rfl rfl rfl (.inl rfl)) rfl), trivial⟩

theorem queueReciprocal_effects (handle channel : Str) :
    Prog.Ensures (Effects P L) w (queueReciprocal P handle channel) fun _ _ => True := by
  unfold queueReciprocal
  refine (quietly (reading (trustedIncoming_reads handle channel))).bind fun already v₁ _ _ => ?_
  refine (quietly (allowOutgoing_quiet handle)).bind fun allowed v₂ _ _ => ?_
  refine Prog.ensures_onlyIf _ (fun _ => ?_) fun _ => trivial
  refine (buildKeyreqForPeer_effects channel (some handle)).bind fun req v₃ _ _ => ?_
  have queued : Quiet v₃ { v₃ with manager := { v₃.manager with
      pendingOutboundKeyreqs := v₃.manager.pendingOutboundKeyreqs ++ [⟨handle, channel, req⟩] } } :=
    ⟨.still rfl rfl rfl (.inl rfl), rfl⟩
  exact ⟨queued.effects, trivial⟩

theorem serveRequest_effects (handle : Str) (req : KeyReq)
    (licensed : L.record handle req.channel) :
    Prog.Ensures (Effects P L) w (serveRequest P handle req) fun _ _ => True := by
  unfold serveRequest
  refine (getOrGenerateOutgoingKey_effects req.channel).bind fun sk v₁ _ held => ?_
  refine Prog.ensures_read_bind _ ?_
  refine Prog.ensures_bind (fun _ v => Stored v sk fun c =>
    c = req.channel ∨ c = wireContext req.channel)
    (ensures_execute _ (tick_reads v₁).effects ?_ (held.congr rfl)) fun _ v₂ _ held => ?_
  · exact .single (.recorded req.channel handle _ v₁.env.now licensed
      (.still rfl rfl rfl (.inr rfl)) rfl)
  refine (wrapForRequest_effects req sk held).bind fun rsp v₃ _ _ => ?_
  exact (queueReciprocal_effects handle req.channel).bind fun _ _ _ _ => Prog.ensures_pure _ trivial

theorem handleKeyreqWithNick_effects (handle : Str) (nick : Option Str) (req : KeyReq)
    (record : Served P w handle req → L.record handle req.channel)
    (upsert : ∀ kr rec, rec.fingerprint = fingerprint P req.pubkey → rec.lastHandle = some handle →
      (kr.classify (fingerprint P req.pubkey) handle).accepted = true → L.upsert kr rec)
    (placeholder : ∀ kr t, Bound kr handle (fingerprint P req.pubkey) → L.placeholder kr
      ⟨handle, req.channel, fingerprint P req.pubkey, zeroKey, .pending, t⟩)
    (request : ∀ kr, Bound kr handle (fingerprint P req.pubkey) →
      L.request kr handle req.channel req) :
    Prog.Ensures (Effects P L) w (handleKeyreqWithNick P handle nick req) fun _ _ => True := by
  unfold handleKeyreqWithNick
  refine (quietly (allowIncoming_quiet handle)).bind fun allowed v₁ _ admitted => ?_
  obtain ⟨⟨verdict, same⟩, quiet₁⟩ := admitted
  refine Prog.ensures_guard_bind _ _ fun yes => Prog.ensures_lift_bind _ fun _ authentic => ?_
  refine (quietly (reading (effectiveChannelMode_reads handle req.channel))).bind
    fun mode v₂ _ answered => ?_
  obtain ⟨⟨modeIs, reads⟩, -⟩ := answered
  have same₂ : v₂.manager.keyring = w.manager.keyring :=
    (congrArg E2eManager.keyring reads.manager).trans same
  cases mode with
  | none => exact Prog.ensures_pure _ trivial
  | some mode =>
      refine (tofuUpsertOnKeyreq_effects handle nick req _ (upsert _)).bind fun _ v₃ _ known => ?_
      obtain ⟨accepted, rec, ofKey, here, stored⟩ := known
      refine (quietly (reading (trustedIncoming_reads handle req.channel))).bind
        fun trusted v₄ _ trustIs => ?_
      obtain ⟨⟨trustIs, reads₄⟩, -⟩ := trustIs
      rw [same₂] at accepted stored
      rw [same] at modeIs
      have trusts : trusted = w.manager.keyring.trusts handle req.channel := by
        rw [trustIs, stored]
        exact trusts_congr _ _ _ _ rfl rfl
      have bound : Bound v₄.manager.keyring handle (fingerprint P req.pubkey) := by
        rw [congrArg E2eManager.keyring reads₄.manager, stored, ← ofKey]
        exact upsertPeer_bound _ rec handle here
      refine Prog.ensures_ite (fun policy => ?_) fun _ => Prog.ensures_ite (fun _ => ?_) fun _ =>
        Prog.ensures_pure _ trivial
      · have served : Served P w handle req :=
          ⟨verdict.symm.trans yes, authentic, accepted, mode, modeIs.symm, trusts ▸ policy⟩
        exact (serveRequest_effects handle req (record served)).bind fun _ _ _ _ =>
          Prog.ensures_pure _ trivial
      · exact (cachePendingInboundNormalMode_effects handle nick req _ bound placeholder
          request).bind fun _ _ _ _ => Prog.ensures_pure _ trivial

/-- The cached request an accept finds once the expired ones are gone. -/
def cachedRequest (w : World) (handle channel : Str) : Option PendingInboundKeyReq :=
  (pruneExpiredPending w).2.manager.pendingInbound.get? (handle, channel)

theorem acceptPendingInbound_effects (handle channel : Str)
    (record : ∀ entry, cachedRequest w handle channel = some entry →
      L.record handle entry.req.channel)
    (upsert : ∀ entry rec, cachedRequest w handle channel = some entry →
      rec.fingerprint = fingerprint P entry.req.pubkey → rec.lastHandle = some handle →
        L.upsert w.manager.keyring rec) :
    Prog.Ensures (Effects P L) w (acceptPendingInbound P handle channel) fun rsp w' =>
      rsp = none → cachedRequest w handle channel = none ∧ Quiet w w' ∧
        w'.manager.keyring = w.manager.keyring := by
  unfold acceptPendingInbound
  refine Prog.ensures_bind (fun _ v => v = (pruneExpiredPending w).2)
    ⟨Quiet.effects pruneExpiredPending_quiet.moved, rfl⟩ fun _ v _ pruned => ?_
  subst pruned
  have quiet₁ : Quiet w (pruneExpiredPending w).2 := pruneExpiredPending_quiet.moved
  refine Prog.ensures_bind (fun cached v => cached = cachedRequest w handle channel ∧
    Quiet w v ∧ v.manager.keyring = w.manager.keyring) (Prog.ensures_update _ ?_ ?_)
    fun cached v₂ _ found => ?_
  · exact Quiet.effects ⟨⟨fun _ kept => kept, fun _ kept => ((Table.mem_erase _ _ _).mp kept).1,
      le_rfl, fun clear => clear⟩, rfl⟩
  · exact ⟨rfl, ⟨⟨quiet₁.pending,
      fun e kept => quiet₁.inbound e ((Table.mem_erase _ _ _).mp kept).1, quiet₁.draws,
      quiet₁.faults⟩, quiet₁.core⟩, rfl⟩
  cases cached with
  | none => exact Prog.ensures_pure _ fun _ => ⟨found.1.symm, found.2⟩
  | some entry =>
      unfold buildKeyrspForAcceptedRequest
      refine Prog.ensures_bind (fun _ _ => True) (Prog.ensures_read_bind _ ?_)
        fun rsp _ _ _ => Prog.ensures_pure _ fun absent => by cases absent
      refine (quietly (reading (query_reads _))).bind fun peer v₃ _ read => ?_
      have same : v₃.manager.keyring = w.manager.keyring :=
        (congrArg E2eManager.keyring read.1.2.manager).trans found.2.2
      refine (upsertPeer_effects _ (same.symm ▸ upsert entry _ found.1.symm rfl rfl)).bind
        fun _ v₄ _ _ => ?_
      exact serveRequest_effects handle entry.req (record entry found.1.symm)

end Serving

section Initiating

theorem matchPending_eq_some (rsp : KeyRsp) (entries : List ((Str × Bytes) × PendingHandshake))
    (sk : SessionKey) (key : Str × Bytes) (found : matchPending P rsp entries = some (sk, key)) :
    ∃ e ∈ entries, e.1 = key ∧ key.1 = rsp.channel ∧
      unwrapKeyrsp P rsp e.2.ephX25519Secret = some sk := by
  obtain ⟨e, member, opened⟩ := List.exists_of_findSome?_eq_some found
  split at opened
  · rename_i here
    obtain ⟨sk', unwraps, same⟩ := Option.map_eq_some_iff.mp opened
    cases same
    exact ⟨e, member, rfl, here, unwraps⟩
  · cases opened

/-- The response is opened by a live handshake of its channel, which is then gone. -/
theorem consumeMatchingPendingForKeyrsp_quiet (rsp : KeyRsp) :
    Prog.Ensures Quiet w (consumeMatchingPendingForKeyrsp P rsp) fun sk w' =>
      w'.manager.keyring = w.manager.keyring ∧ w'.env = w.env ∧
        ∃ e, Live w e ∧ e ∉ w'.manager.pending ∧ e.1.1 = rsp.channel ∧
          unwrapKeyrsp P rsp e.2.ephX25519Secret = some sk := by
  unfold consumeMatchingPendingForKeyrsp
  refine pruneExpiredPending_quiet.bind fun _ v quiet pruned => ?_
  refine Prog.ensures_read_bind _ (Prog.ensures_guard_bind _ _ fun _ => ?_)
  cases found : matchPending P rsp v.manager.pending.rows with
  | none => exact Prog.ensures_fail _
  | some hit =>
      obtain ⟨sk, key⟩ := hit
      obtain ⟨e, member, rfl, here, unwraps⟩ := matchPending_eq_some rsp _ sk key found
      refine ⟨⟨⟨fun e' kept => ((Table.mem_erase _ _ _).mp kept).1, fun _ kept => kept, le_rfl,
        fun clear => clear⟩, rfl⟩, pruned.1, pruned.2.1, e, pruned.2.2 e member, fun kept => ?_,
        here, unwraps⟩
      exact ((Table.mem_erase _ _ _).mp kept).2 rfl

theorem installFromKeyrsp_effects (handle : Str) (rsp : KeyRsp) (s : IncomingSession)
    (licensed : L.install w.manager.keyring s) :
    Prog.Ensures (Effects P L) w (installFromKeyrsp handle rsp s) fun _ w' =>
      ∃ prev, ⟨s, prev⟩ ∈ w'.core.incoming := by
  unfold installFromKeyrsp
  refine (Prog.ensures_attempt ((installIncomingSessionStrict_effects s (Or.inl licensed)).mono
    (fun _ moved => moved.1) fun _ _ _ post => post)).bind fun result v₁ _ stored => ?_
  cases result with
  | ok done => exact Prog.ensures_pure _ (stored done rfl)
  | error e =>
      refine Prog.ensures_ite (fun _ => ?_) fun _ => Prog.ensures_fail _
      refine (quietly (reading (query_reads _))).bind fun existing v₂ _ _ => ?_
      exact (quietly (recordTrustChange_quiet _)).bind fun _ _ _ _ => Prog.ensures_fail _

/-- A response that is accepted leaves the session it carries. -/
theorem handleKeyrsp_effects (handle : Str) (rsp : KeyRsp)
    (upsert : ∀ kr rec, rec.fingerprint = fingerprint P rsp.pubkey → rec.lastHandle = some handle →
      (kr.classify (fingerprint P rsp.pubkey) handle).accepted = true → L.upsert kr rec)
    (install : ∀ kr sk t, Answered P w handle rsp sk →
      Bound kr handle (fingerprint P rsp.pubkey) →
        L.install kr ⟨handle, rsp.channel, fingerprint P rsp.pubkey, sk, .trusted, t⟩) :
    Prog.Ensures (Effects P L) w (handleKeyrsp P handle rsp) fun _ w' =>
      ∃ sk t prev, Answered P w handle rsp sk ∧
        ⟨⟨handle, rsp.channel, fingerprint P rsp.pubkey, sk, .trusted, t⟩, prev⟩ ∈
          w'.core.incoming := by
  unfold handleKeyrsp
  refine Prog.ensures_lift_bind _ fun _ authentic => ?_
  refine (quietly (consumeMatchingPendingForKeyrsp_quiet rsp)).bind fun sk v₁ _ consumed => ?_
  obtain ⟨⟨same, -, e, live, -, here, unwraps⟩, -⟩ := consumed
  refine Prog.ensures_read_bind _ ?_
  refine (tofuUpsertOnKeyrsp_effects handle rsp _ _ (upsert _)).bind fun _ v₂ _ known => ?_
  obtain ⟨accepted, rec, ofKey, atHandle, stored⟩ := known
  rw [same] at accepted
  have answered : Answered P w handle rsp sk := ⟨authentic, ⟨e, live, here, unwraps⟩, accepted⟩
  have bound : Bound v₂.manager.keyring handle (fingerprint P rsp.pubkey) := by
    rw [stored, ← ofKey]
    exact upsertPeer_bound _ rec handle atHandle
  refine (installFromKeyrsp_effects handle rsp _ (install _ sk _ answered bound)).post ?_
  rintro _ v₃ _ ⟨prev, stored⟩
  exact ⟨sk, _, prev, answered, stored⟩

theorem transact_ages (f : Env → Keyring → Except E2eError (α × Keyring)) :
    Prog.Ensures Ages w (transact f) fun _ _ => True :=
  ensures_transact _ (.still rfl rfl rfl (.inr rfl)) fun _ _ _ =>
    ⟨.still rfl rfl rfl (.inr rfl), trivial⟩

theorem tofuUpsertOnKeyrsp_ages (handle : Str) (rsp : KeyRsp) (fp : Fingerprint) (now : Int) :
    Prog.Ensures Ages w (tofuUpsertOnKeyrsp handle rsp fp now) fun _ _ => True := by
  unfold tofuUpsertOnKeyrsp
  refine (ageing (reading (classifyPeerChange_reads fp handle))).bind fun change v _ _ => ?_
  refine Prog.ensures_ite (fun _ => transact_ages _) fun _ => ?_
  exact (ageing (recordTrustChange_quiet _)).bind fun _ _ _ _ => Prog.ensures_fail _

theorem installFromKeyrsp_ages (handle : Str) (rsp : KeyRsp) (s : IncomingSession) :
    Prog.Ensures Ages w (installFromKeyrsp handle rsp s) fun _ _ => True := by
  unfold installFromKeyrsp
  refine (Prog.ensures_attempt (transact_ages _)).bind fun result v₁ _ _ => ?_
  cases result with
  | ok done => exact Prog.ensures_pure _ trivial
  | error e =>
      refine Prog.ensures_ite (fun _ => ?_) fun _ => Prog.ensures_fail _
      refine (ageing (reading (query_reads _))).bind fun existing v₂ _ _ => ?_
      exact (ageing (recordTrustChange_quiet _)).bind fun _ _ _ _ => Prog.ensures_fail _

/-- A response that is accepted uses up the handshake that opened it. -/
theorem handleKeyrsp_consumes (handle : Str) (rsp : KeyRsp) :
    Prog.Ensures Ages w (handleKeyrsp P handle rsp) fun _ w' =>
      ∃ e sk, Live w e ∧ e ∉ w'.manager.pending ∧ e.1.1 = rsp.channel ∧
        unwrapKeyrsp P rsp e.2.ephX25519Secret = some sk := by
  unfold handleKeyrsp
  refine Prog.ensures_lift_bind _ fun _ _ => ?_
  refine (ageing (consumeMatchingPendingForKeyrsp_quiet rsp)).bind fun sk v₁ _ consumed => ?_
  obtain ⟨-, -, e, live, gone, here, unwraps⟩ := consumed
  refine Prog.ensures_read_bind _ ?_
  refine (tofuUpsertOnKeyrsp_ages handle rsp _ _).bind fun _ v₂ aged₂ _ => ?_
  refine (installFromKeyrsp_ages handle rsp _).post fun _ v₃ aged₃ _ => ?_
  exact ⟨e, sk, live, fun member => gone (aged₂.pending e (aged₃.pending e member)), here, unwraps⟩

/-- A rekey that is accepted leaves its nonce on record and the session it carries. -/
theorem handleRekey_effects (handle : Str) (msg : KeyRekey)
    (install : ∀ kr sk t, Rekeyed P w handle msg sk →
      Bound kr handle (fingerprint P msg.pubkey) →
        L.install kr ⟨handle, msg.channel, fingerprint P msg.pubkey, sk, .trusted, t⟩)
    (seen : L.seen ⟨fingerprint P msg.pubkey, msg.channel, msg.nonce⟩) :
    Prog.Ensures (Effects P L) w (handleRekey P handle msg) fun _ w' =>
      ⟨fingerprint P msg.pubkey, msg.channel, msg.nonce⟩ ∈ w'.core.seenRekeys ∧
        ∃ sk t prev, Rekeyed P w handle msg sk ∧
          ⟨⟨handle, msg.channel, fingerprint P msg.pubkey, sk, .trusted, t⟩, prev⟩ ∈
            w'.core.incoming := by
  unfold handleRekey
  refine Prog.ensures_lift_bind _ fun _ authentic => ?_
  refine (quietly (reading (classifyPeerChange_reads _ handle))).bind
    fun change v₁ _ classified => ?_
  obtain ⟨⟨changeIs, reads⟩, quiet₁⟩ := classified
  refine (quietly (requireKnownSender_quiet handle msg change)).bind fun _ v₂ _ known => ?_
  have quiet₂ : Quiet w v₂ := trans_of Quiet quiet₁ known.2
  let row : SeenRekey := ⟨fingerprint P msg.pubkey, msg.channel, msg.nonce⟩
  refine Prog.ensures_bind (fun first v => (first = true → row ∉ w.core.seenRekeys) ∧
    row ∈ v.core.seenRekeys ∧ v.core.identity = w.core.identity ∧ v.core.peers = w.core.peers)
    (ensures_executeGet _ (tick_reads v₂).effects ?_ ⟨?_, ?_, ?_, ?_⟩) fun first v₃ _ noted => ?_
  · exact .single (.seen row seen (.still rfl rfl rfl (.inr rfl)) rfl)
  · intro new member
    rw [← quiet₂.core] at member
    simp only [Keyring.recordRekeyNonce, Bool.not_eq_true', List.contains_eq_mem,
      decide_eq_false_iff_not] at new
    exact new member
  · refine (Table.mem_insertOrIgnore _ _ _).mpr ?_
    by_cases present : row ∈ v₂.manager.keyring.seenRekeys
    · exact Or.inl present
    · exact Or.inr ⟨rfl, fun y member same => present ((show y = row from same) ▸ member)⟩
  · have kept : v₂.manager.identity = w.manager.identity := congrArg Core.identity quiet₂.core
    exact kept
  · have kept : v₂.manager.keyring.peers = w.manager.keyring.peers :=
      congrArg Core.peers quiet₂.core
    exact kept
  obtain ⟨fresh, held, identity, peers⟩ := noted
  refine Prog.ensures_guard_bind _ _ fun new => Prog.ensures_read_bind _ ?_
  refine Prog.ensures_lift_bind _ fun sk unwraps => Prog.ensures_read_bind _ ?_
  have rekeyed : Rekeyed P w handle msg sk := by
    refine ⟨authentic, changeIs.symm.trans known.1, fresh new, ?_⟩
    rw [← unwraps]
    exact congrArg (unwrapRekey P · msg) identity.symm
  have bound : Bound v₃.manager.keyring handle (fingerprint P msg.pubkey) := by
    have kept : v₃.manager.keyring.peers = w.manager.keyring.peers := peers
    unfold Bound
    rw [kept]
    exact classify_known _ _ _ rekeyed.known
  refine (installIncomingSessionStrict_effects _ (Or.inl (install _ sk _ rekeyed bound))).mono
    (fun _ moved => moved.1) ?_
  rintro _ v₄ moved ⟨prev, stored⟩
  exact ⟨moved.1.seen_mono row held, sk, _, prev, rekeyed, stored⟩

end Initiating

section Receiving

theorem decryptUnder_reads (handle channel : Str) (wire : WireChunk) (sess : IncomingSession)
    (now : Int) :
    Prog.Ensures Reads w (decryptUnder P handle channel wire sess now) fun _ _ => True := by
  unfold decryptUnder
  simp only
  split
  · exact Prog.ensures_pure _ trivial
  · refine (query_reads _).bind fun prev v _ _ => ?_
    cases prev with
    | none => exact Prog.ensures_pure _ trivial
    | some held =>
        refine Prog.ensures_ite (fun _ => ?_) fun _ => Prog.ensures_pure _ trivial
        split <;> exact Prog.ensures_pure _ trivial

theorem decryptIncoming_reads (handle channel line : Str) :
    Prog.Ensures Reads w (decryptIncoming P handle channel line) fun _ _ => True := by
  unfold decryptIncoming
  refine Prog.ensures_lift_bind _ fun parsed _ => ?_
  cases parsed with
  | none => exact Prog.ensures_pure _ trivial
  | some wire =>
      refine Prog.ensures_read_bind _ (Prog.ensures_read_bind _ ?_)
      refine Prog.ensures_ite (fun _ => Prog.ensures_pure _ trivial) fun _ => ?_
      refine (query_reads _).bind fun found v _ _ => ?_
      cases found with
      | none => exact Prog.ensures_pure _ trivial
      | some sess =>
          exact Prog.ensures_ite (fun _ => Prog.ensures_pure _ trivial) fun _ =>
            decryptUnder_reads handle channel wire sess _

end Receiving

end Repartee.E2e
