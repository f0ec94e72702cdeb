import Repartee.E2e.Writes.Messages

/-!
The writes of the trust decisions and of the commands, and with them the writes of every
operation of the machine under the license its input has in the world it runs in.
-/

namespace Repartee.E2e

open Text Lib

variable {P : Platform} {L : License} {w : World} {α : Type}

section Dropping

theorem dropTrustNotices_quiet (resolved : List PendingTrustNotice) :
    Prog.Ensures Quiet w (dropTrustNotices resolved) fun _ _ => True :=
  ⟨⟨.still rfl rfl rfl (.inl rfl), rfl⟩, trivial⟩

theorem clearTrustNoticesForHandle_quiet (handle : Str) :
    Prog.Ensures Quiet w (clearTrustNoticesForHandle handle) fun _ _ => True :=
  Prog.ensures_update _ ⟨.still rfl rfl rfl (.inl rfl), rfl⟩ trivial

theorem clearPendingStateForHandle_quiet (handle : Str) :
    Prog.Ensures Quiet w (clearPendingStateForHandle handle) fun _ _ => True :=
  Prog.ensures_update _ ⟨⟨fun _ kept => ((Map.mem_retain _ _ _).mp kept).1,
    fun _ kept => ((Map.mem_retain _ _ _).mp kept).1, le_rfl, fun clear => clear⟩, rfl⟩ trivial

theorem isMoving_reads (fp : Fingerprint) :
    Prog.Ensures Reads w (isMoving fp) fun _ _ => True :=
  Prog.ensures_read _ trivial

theorem movePeers_effects (licensed : L.moves) (f : Keyring → Keyring)
    (peersOnly : f w.manager.keyring =
      { w.manager.keyring with peers := (f w.manager.keyring).peers }) :
    Prog.Ensures (Effects P L) w (execute f) fun _ _ => True := by
  refine ensures_execute f (tick_reads w).effects (.single (.peersMoved
    (f w.manager.keyring).peers licensed (.still rfl rfl rfl (.inr rfl)) ?_)) trivial
  rw [peersOnly]
  rfl

theorem evictReplacedIdentity_effects (licensed : L.moves) (oldFp : Fingerprint) (handle : Str) :
    Prog.Ensures (Effects P L) w (evictReplacedIdentity oldFp handle) fun _ _ => True := by
  unfold evictReplacedIdentity
  refine (quietly (reading (query_reads _))).bind fun found v₁ _ _ => ?_
  cases found with
  | none => exact Prog.ensures_pure _ trivial
  | some peer =>
      refine Prog.ensures_ite (fun _ => Prog.ensures_pure _ trivial) fun _ => ?_
      refine (quietly (reading (isMoving_reads oldFp))).bind fun moving v₂ _ _ => ?_
      exact Prog.ensures_ite (fun _ => movePeers_effects licensed _ rfl) fun _ =>
        movePeers_effects licensed _ rfl

theorem currentBinding_reads (fp : Fingerprint) :
    Prog.Ensures Reads w (currentBinding fp) fun _ _ => True :=
  (query_reads _).bind fun _ _ _ _ => Prog.ensures_pure _ trivial

theorem deletePeerAt_effects (licensed : L.moves) (handle : Str) :
    Prog.Ensures (Effects P L) w (deletePeerAt handle) fun _ _ => True := by
  unfold deletePeerAt
  refine (quietly (reading (query_reads _))).bind fun found v₁ _ _ => ?_
  cases found with
  | none => exact Prog.ensures_pure _ trivial
  | some peer =>
      exact (movePeers_effects licensed (·.deletePeerByFingerprint peer.fingerprint) rfl).bind
        fun _ _ _ _ => Prog.ensures_pure _ trivial

theorem deleteSessions_effects (licensed : L.drops) (handle : Str) :
    Prog.Ensures (Effects P L) w (executeGet (·.deleteIncomingSessionsForHandle handle))
      fun _ _ => True :=
  ensures_executeGet _ (tick_reads w).effects
    (.single (.sessionsDropped _ licensed (fun _ kept => ((Table.mem_delete _ _ _).mp kept).1)
      (.still rfl rfl rfl (.inr rfl)) rfl)) trivial

theorem deleteRecipients_effects (handle : Str) :
    Prog.Ensures (Effects P L) w (executeGet (·.deleteOutgoingRecipientsForHandle handle))
      fun _ _ => True :=
  ensures_executeGet _ (tick_reads w).effects
    (.single (.recipientsDropped _ (fun _ kept => ((Table.mem_delete _ _ _).mp kept).1)
      (.still rfl rfl rfl (.inr rfl)) rfl)) trivial

theorem clearHandleState_effects (licensed : L.drops) (handle : Str) :
    Prog.Ensures (Effects P L) w (clearHandleState handle) fun _ _ => True := by
  unfold clearHandleState
  refine (deleteSessions_effects licensed handle).bind fun _ v₁ _ _ => ?_
  refine (deleteRecipients_effects handle).bind fun _ v₂ _ _ => ?_
  exact (quietly (clearPendingStateForHandle_quiet handle)).bind fun _ _ _ _ =>
    Prog.ensures_pure _ trivial

theorem clearFormerHandle_effects (licensed : L.drops) (current : Option Str) (handle : Str) :
    Prog.Ensures (Effects P L) w (clearFormerHandle current handle) fun _ _ => True := by
  unfold clearFormerHandle
  split
  · exact Prog.ensures_ite (fun _ => clearHandleState_effects licensed _) fun _ =>
      Prog.ensures_pure _ trivial
  · exact Prog.ensures_pure _ trivial

/-- The last steps of a resolved warning: the peer is written at the handle, the others leave it,
and the warnings it answers are retired. -/
theorem settlePeer_effects (licensed : L.moves) (rec : PeerRecord) (handle : Str)
    (fp : Fingerprint) (candidates : List PendingTrustNotice) (outcome : ReverifyOutcome) :
    Prog.Ensures (Effects P L) w (do
      execute (·.upsertPeer rec)
      execute (·.detachOtherPeersFromHandle handle fp)
      let _ ← clearTrustNoticesForHandle handle
      dropTrustNotices candidates
      return outcome) fun _ _ => True := by
  refine (movePeers_effects licensed (·.upsertPeer rec) rfl).bind fun _ v₁ _ _ => ?_
  refine (movePeers_effects licensed (·.detachOtherPeersFromHandle handle fp) rfl).bind
    fun _ v₂ _ _ => ?_
  refine (quietly (clearTrustNoticesForHandle_quiet handle)).bind fun _ v₃ _ _ => ?_
  exact (quietly (dropTrustNotices_quiet candidates)).bind fun _ _ _ _ =>
    Prog.ensures_pure _ trivial

theorem applyRebind_effects (licensed : L.drops) (moves : L.moves) (candidates : List PendingTrustNotice)
    (oldHandle newHandle : Str) (fp : Fingerprint) :
    Prog.Ensures (Effects P L) w (applyRebind candidates oldHandle newHandle fp)
      fun _ _ => True := by
  unfold applyRebind
  refine (quietly (reading (query_reads _))).bind fun found v₁ _ _ => ?_
  cases found with
  | none =>
      exact (quietly (dropTrustNotices_quiet candidates)).bind fun _ _ _ _ =>
        Prog.ensures_pure _ trivial
  | some peer =>
      refine (clearHandleState_effects licensed newHandle).bind fun _ v₂ _ _ => ?_
      refine (clearFormerHandle_effects licensed _ _).bind fun _ v₃ _ _ => ?_
      refine Prog.ensures_read_bind _ ?_
      exact settlePeer_effects moves _ newHandle fp candidates _

theorem applyInstall_effects (licensed : L.drops) (moves : L.moves) (candidates : List PendingTrustNotice)
    (handle : Str) (oldFp newFp : Fingerprint) (pubkey : Bytes) :
    Prog.Ensures (Effects P L) w (applyInstall candidates handle oldFp newFp pubkey)
      fun _ _ => True := by
  unfold applyInstall
  refine (evictReplacedIdentity_effects moves oldFp handle).bind fun _ v₁ _ _ => ?_
  refine (clearHandleState_effects licensed handle).bind fun _ v₂ _ _ => ?_
  refine (quietly (reading (currentBinding_reads newFp))).bind fun current v₃ _ _ => ?_
  refine (clearFormerHandle_effects licensed current handle).bind fun _ v₄ _ _ => ?_
  refine Prog.ensures_read_bind _ ?_
  exact settlePeer_effects moves _ handle newFp candidates _

theorem purgeHandle_effects (licensed : L.drops) (moves : L.moves) (handle : Str)
    (resolved : List PendingTrustNotice) :
    Prog.Ensures (Effects P L) w (purgeHandle handle resolved) fun _ _ => True := by
  unfold purgeHandle
  refine (deletePeerAt_effects moves handle).bind fun _ v₁ _ _ => ?_
  refine (deleteSessions_effects licensed handle).bind fun _ v₂ _ _ => ?_
  refine (deleteRecipients_effects handle).bind fun _ v₃ _ _ => ?_
  refine (quietly (clearPendingStateForHandle_quiet handle)).bind fun _ v₄ _ _ => ?_
  refine (quietly (dropTrustNotices_quiet resolved)).bind fun _ v₅ _ _ => ?_
  exact Prog.ensures_ite (fun _ => Prog.ensures_pure _ trivial) fun _ =>
    Prog.ensures_pure _ trivial

theorem applyConsents_effects (licensed : L.drops) (moves : L.moves) (nickOrHandle : Str)
    (candidates : List PendingTrustNotice) :
    Prog.Ensures (Effects P L) w (applyConsents nickOrHandle candidates) fun _ _ => True := by
  unfold applyConsents
  split
  · exact purgeHandle_effects licensed moves _ _
  · exact applyRebind_effects licensed moves _ _ _ _
  · exact applyInstall_effects licensed moves _ _ _ _ _
  · exact Prog.ensures_pure _ trivial

theorem reverifyPeer_effects (licensed : L.drops) (moves : L.moves) (nickOrHandle : Str) (fp : Option Str) :
    Prog.Ensures (Effects P L) w (reverifyPeer nickOrHandle fp) fun _ _ => True := by
  unfold reverifyPeer
  refine Prog.ensures_read_bind _ ?_
  cases fp with
  | none => exact applyConsents_effects licensed moves _ _
  | some text =>
      exact Prog.ensures_ite (fun _ => Prog.ensures_pure _ trivial) fun _ =>
        applyConsents_effects licensed moves _ _

theorem forgetPeerOnChannel_effects (licensed : L.drops) (handle channel : Str) :
    Prog.Ensures (Effects P L) w (forgetPeerOnChannel handle channel) fun _ _ => True := by
  unfold forgetPeerOnChannel
  refine (quietly (reading (query_reads _))).bind fun present v₁ _ _ => ?_
  refine Prog.ensures_bind (fun _ _ => True) (Prog.ensures_onlyIf _ (fun _ => ?_)
    fun _ => trivial) fun _ v₂ _ _ => ?_
  · exact ensures_execute _ (tick_reads v₁).effects
      (.single (.sessionsDropped _ licensed (fun _ kept => ((Table.mem_delete _ _ _).mp kept).1)
        (.still rfl rfl rfl (.inr rfl)) rfl)) trivial
  refine Prog.ensures_bind (fun _ _ => True) (Prog.ensures_update _ (Quiet.effects ?_)
    trivial) fun _ _ _ _ => Prog.ensures_pure _ trivial
  exact ⟨⟨fun _ kept => ((Map.mem_retain _ _ _).mp kept).1,
    fun _ kept => ((Table.mem_erase _ _ _).mp kept).1, le_rfl, fun clear => clear⟩, rfl⟩

theorem forgetPeerOnDmContexts_effects (licensed : L.drops) (handle channel : Str)
    (own : Option Str) :
    Prog.Ensures (Effects P L) w (forgetPeerOnDmContexts handle channel own) fun _ _ => True := by
  unfold forgetPeerOnDmContexts
  refine (forgetPeerOnChannel_effects licensed handle channel).bind fun _ v₁ _ _ => ?_
  cases own with
  | none => exact Prog.ensures_pure _ trivial
  | some own =>
      refine Prog.ensures_ite (fun _ => ?_) fun _ => Prog.ensures_pure _ trivial
      exact (forgetPeerOnChannel_effects licensed handle own).bind fun _ _ _ _ =>
        Prog.ensures_pure _ trivial

theorem forgetPeerEverywhere_effects (licensed : L.drops) (moves : L.moves) (handle : Str) :
    Prog.Ensures (Effects P L) w (forgetPeerEverywhere handle) fun _ _ => True := by
  unfold forgetPeerEverywhere
  refine (deletePeerAt_effects moves handle).bind fun _ v₁ _ _ => ?_
  refine (deleteSessions_effects licensed handle).bind fun _ v₂ _ _ => ?_
  refine (deleteRecipients_effects handle).bind fun _ v₃ _ _ => ?_
  refine (quietly (clearPendingStateForHandle_quiet handle)).bind fun _ v₄ _ _ => ?_
  exact (quietly (clearTrustNoticesForHandle_quiet handle)).bind fun _ _ _ _ =>
    Prog.ensures_pure _ trivial

end Dropping

section Commands

theorem updateIncomingStatus_effects (handle channel : Str) (status : TrustStatus)
    (licensed : L.status w.manager.keyring handle channel status) :
    Prog.Ensures (Effects P L) w (execute (·.updateIncomingStatus handle channel status))
      fun _ w' => w'.manager.keyring = w.manager.keyring.updateIncomingStatus handle channel status :=
  ensures_execute _ (tick_reads w).effects
    (.single (.status handle channel status licensed (.still rfl rfl rfl (.inr rfl)) rfl)) rfl

theorem markOutgoingPendingRotation_effects (channel : Str) :
    Prog.Ensures (Effects P L) w (execute (·.markOutgoingPendingRotation channel))
      fun _ w' => w'.manager.keyring = w.manager.keyring.markOutgoingPendingRotation channel :=
  ensures_execute _ (tick_reads w).effects
    (.single (.flagged true channel (.still rfl rfl rfl (.inr rfl)) rfl)) rfl

/-- An accept without a cached request trusts the stored session again. -/
def Retrusts (w : World) (handle ownContext : Str) : Prop :=
  ∃ sess, w.manager.keyring.getIncomingSession handle ownContext = some sess ∧
    ¬(sess.status = .pending ∧ sess.sk = zeroKey)

theorem acceptStored_effects (handle own : Str)
    (licensed : Retrusts w handle own → L.status w.manager.keyring handle own .trusted) :
    Prog.Ensures (Effects P L) w (acceptStored handle own) fun _ _ => True := by
  unfold acceptStored
  refine (query_effects _).bind fun found v₁ _ read => ?_
  obtain ⟨foundIs, reads⟩ := read
  cases found with
  | none => exact Prog.ensures_pure _ trivial
  | some sess =>
      refine Prog.ensures_ite (fun _ => Prog.ensures_pure _ trivial) fun genuine => ?_
      have retrusts := licensed ⟨sess, foundIs.symm, genuine⟩
      rw [← congrArg E2eManager.keyring reads.manager] at retrusts
      exact (updateIncomingStatus_effects handle own .trusted retrusts).bind fun _ _ _ _ =>
        Prog.ensures_pure _ trivial

theorem e2eAccept_effects (handle chan : Str) (own : Option Str)
    (record : ∀ entry, cachedRequest w handle chan = some entry →
      L.record handle entry.req.channel)
    (upsert : ∀ entry rec, cachedRequest w handle chan = some entry →
      rec.fingerprint = fingerprint P entry.req.pubkey → rec.lastHandle = some handle →
        L.upsert w.manager.keyring rec)
    (licensed : ∀ context, own = some context → cachedRequest w handle chan = none →
      Retrusts w handle context → L.status w.manager.keyring handle context .trusted) :
    Prog.Ensures (Effects P L) w (e2eAccept P handle chan own) fun _ _ => True := by
  unfold e2eAccept
  refine (acceptPendingInbound_effects handle chan record upsert).bind fun rsp v₁ _ absent => ?_
  cases rsp with
  | some rsp =>
      refine Prog.ensures_bind (fun _ _ => True) (Prog.ensures_update _ (Quiet.effects ?_)
        trivial) fun _ _ _ _ => Prog.ensures_pure _ trivial
      exact ⟨.still rfl rfl rfl (.inl rfl), rfl⟩
  | none =>
      obtain ⟨missing, -, same⟩ := absent rfl
      cases own with
      | none => exact Prog.ensures_pure _ trivial
      | some context =>
          refine acceptStored_effects handle context fun retrusts => ?_
          rw [same]
          unfold Retrusts at retrusts
          rw [same] at retrusts
          exact licensed context rfl missing retrusts

theorem e2eRevoke_effects (handle peerChan own : Str)
    (licensed : L.status w.manager.keyring handle own .revoked) :
    Prog.Ensures (Effects P L) w (e2eRevoke handle peerChan own) fun _ w' =>
      w'.manager.keyring = ((w.manager.keyring.updateIncomingStatus handle own
        .revoked).removeOutgoingRecipient peerChan handle).markOutgoingPendingRotation peerChan := by
  unfold e2eRevoke
  refine (updateIncomingStatus_effects handle own .revoked licensed).bind fun _ v₁ _ flipped => ?_
  refine Prog.ensures_bind (fun _ v => v.manager.keyring =
    v₁.manager.keyring.removeOutgoingRecipient peerChan handle) (ensures_execute _
    (tick_reads v₁).effects ?_ rfl) fun _ v₂ _ removed => ?_
  · exact .single (.recipientsDropped _ (fun _ kept => ((Table.mem_delete _ _ _).mp kept).1)
      (.still rfl rfl rfl (.inr rfl)) rfl)
  refine (markOutgoingPendingRotation_effects peerChan).post fun _ _ _ marked => ?_
  rw [marked, removed, flipped]

end Commands

section Machine

/-- A peer row a handshake may write: for the identity, at the handle, once its classification
there is accepted. -/
def Claims (handle : Str) (fp : Fingerprint) (kr : Keyring) (rec : PeerRecord) : Prop :=
  rec.fingerprint = fp ∧ rec.lastHandle = some handle ∧ (kr.classify fp handle).accepted = true

/-- A peer row an accept may write: for the identity of the cached request. -/
def Consents (P : Platform) (w : World) (handle channel : Str) (rec : PeerRecord) : Prop :=
  ∃ entry, cachedRequest w handle channel = some entry ∧
    rec.fingerprint = fingerprint P entry.req.pubkey ∧ rec.lastHandle = some handle

/-- What an operation may write in the world it runs in. -/
def license (P : Platform) (w : World) : Op → License
  | .keyreq handle _ req =>
      { License.nothing with
        record := fun h c => h = handle ∧ c = req.channel ∧ Served P w handle req
        upsert := Claims handle (fingerprint P req.pubkey)
        placeholder := fun kr s => Bound kr handle (fingerprint P req.pubkey) ∧
          ∃ t, s = ⟨handle, req.channel, fingerprint P req.pubkey, zeroKey, .pending, t⟩
        request := fun kr h c r => Bound kr handle (fingerprint P req.pubkey) ∧ h = handle ∧
          c = req.channel ∧ r = req }
  | .keyrsp handle rsp =>
      { License.nothing with
        upsert := Claims handle (fingerprint P rsp.pubkey)
        install := fun kr s => Bound kr handle (fingerprint P rsp.pubkey) ∧
          ∃ sk t, Answered P w handle rsp sk ∧
            s = ⟨handle, rsp.channel, fingerprint P rsp.pubkey, sk, .trusted, t⟩ }
  | .rekey handle msg =>
      { License.nothing with
        install := fun kr s => Bound kr handle (fingerprint P msg.pubkey) ∧
          ∃ sk t, Rekeyed P w handle msg sk ∧
            s = ⟨handle, msg.channel, fingerprint P msg.pubkey, sk, .trusted, t⟩
        seen := fun row => row = ⟨fingerprint P msg.pubkey, msg.channel, msg.nonce⟩ }
  | .acceptPending handle channel =>
      { License.nothing with
        record := fun h c => h = handle ∧
          ∃ entry, cachedRequest w handle channel = some entry ∧ c = entry.req.channel
        upsert := fun kr rec => kr.peers = w.core.peers ∧ Consents P w handle channel rec }
  | .accept handle chan own =>
      { License.nothing with
        record := fun h c => h = handle ∧
          ∃ entry, cachedRequest w handle chan = some entry ∧ c = entry.req.channel
        upsert := fun kr rec => kr.peers = w.core.peers ∧ Consents P w handle chan rec
        status := fun kr h c status => kr.incoming = w.core.incoming ∧ h = handle ∧
          own = some c ∧ cachedRequest w handle chan = none ∧ Retrusts w handle c ∧
            status = .trusted }
  | .decline handle chan =>
      { License.nothing with
        status := fun kr h c status => kr.incoming = w.core.incoming ∧ h = handle ∧ c = chan ∧
          status = .revoked }
  | .revoke handle _ own =>
      { License.nothing with
        status := fun kr h c status => kr.incoming = w.core.incoming ∧ h = handle ∧ c = own ∧
          status = .revoked }
  | .unrevoke handle own =>
      { License.nothing with
        status := fun kr h c status => kr.incoming = w.core.incoming ∧ h = handle ∧ c = own ∧
          status = .trusted }
  | .forget _ _ _ => { License.nothing with drops := True }
  | .forgetEverywhere _ => { License.nothing with drops := True, moves := True }
  | .reverify _ _ => { License.nothing with drops := True, moves := True }
  | .configure _ _ _ _ => { License.nothing with networks := True }
  | .faults _ => { License.nothing with faults := True }
  | _ => License.nothing

theorem discard_snd (m : Action α) : (discard m w).2 = (m w).2 := by
  change ((m >>= fun _ => pure ()) w).2 = _
  simp only [bind]
  rcases m w with ⟨result, w'⟩
  cases result <;> rfl

theorem drainQueues_quiet : Prog.Ensures Quiet w drainQueues fun _ _ => True := by
  have kept : Quiet w (drainQueues w).2 := ⟨.still rfl rfl rfl (.inl rfl), rfl⟩
  exact ⟨kept, trivial⟩

theorem reordered_pending (m : E2eManager) (pending : Map (Str × Bytes) PendingHandshake) :
    ∀ e ∈ (m.reordered pending).pending, e ∈ m.pending := by
  intro e member
  unfold E2eManager.reordered at member
  split at member
  · rename_i same
    exact (List.isPerm_iff.mp same).mem_iff.mp member
  · exact member

theorem exec_of (op : Op) {m : Action α} {Post : α → World → Prop}
    (same : (op.act P w).2 = (m w).2)
    (writes : Prog.Ensures (Effects P (license P w op)) w m Post) :
    Effects P (license P w op) w (exec P w op) := by
  unfold exec
  rw [same]
  exact writes.moved

/-- Every step of the machine is a sequence of the writes its license allows. -/
theorem exec_effects (P : Platform) (w : World) (op : Op) :
    Effects P (license P w op) w (exec P w op) := by
  cases op with
  | keyreq handle nick req =>
      exact exec_of (.keyreq handle nick req) (discard_snd _) (handleKeyreqWithNick_effects handle
        nick req (fun served => ⟨rfl, rfl, served⟩)
        (fun _ _ ofKey here accepted => ⟨ofKey, here, accepted⟩) (fun _ t bound => ⟨bound, t, rfl⟩)
        fun _ bound => ⟨bound, rfl, rfl, rfl⟩)
  | keyrsp handle rsp =>
      exact exec_of (.keyrsp handle rsp) rfl (handleKeyrsp_effects handle rsp
        (fun _ _ ofKey here accepted => ⟨ofKey, here, accepted⟩)
        fun _ sk t answered bound => ⟨bound, sk, t, answered, rfl⟩)
  | rekey handle msg =>
      exact exec_of (.rekey handle msg) rfl (handleRekey_effects handle msg
        (fun _ sk t rekeyed bound => ⟨bound, sk, t, rekeyed, rfl⟩) rfl)
  | send channel text =>
      exact exec_of (.send channel text) (discard_snd _) (encryptOutgoing_effects channel text)
  | sendCtcp channel frame =>
      exact exec_of (.sendCtcp channel frame) (discard_snd _)
        (encryptOutgoingCtcp_effects channel frame)
  | receive handle channel line =>
      exact exec_of (.receive handle channel line) (discard_snd _)
        (quietly (reading (decryptIncoming_reads handle channel line)))
  | handshake channel peer =>
      exact exec_of (.handshake channel peer) (discard_snd _)
        (buildKeyreqForPeer_effects channel peer)
  | acceptPending handle channel =>
      exact exec_of (.acceptPending handle channel) (discard_snd _)
        (acceptPendingInbound_effects handle channel (fun entry found => ⟨rfl, entry, found, rfl⟩)
          fun entry _ found ofKey here => ⟨rfl, entry, found, ofKey, here⟩)
  | accept handle chan own =>
      exact exec_of (.accept handle chan own) (discard_snd _) (e2eAccept_effects handle chan own
        (fun entry found => ⟨rfl, entry, found, rfl⟩)
        (fun entry _ found ofKey here => ⟨rfl, entry, found, ofKey, here⟩)
        fun context ownIs missing retrusts => ⟨rfl, rfl, ownIs, missing, retrusts, rfl⟩)
  | decline handle chan =>
      exact exec_of (.decline handle chan) rfl
        (updateIncomingStatus_effects handle chan .revoked ⟨rfl, rfl, rfl, rfl⟩)
  | revoke handle peerChan own =>
      exact exec_of (.revoke handle peerChan own) rfl
        (e2eRevoke_effects handle peerChan own ⟨rfl, rfl, rfl, rfl⟩)
  | unrevoke handle own =>
      exact exec_of (.unrevoke handle own) rfl
        (updateIncomingStatus_effects handle own .trusted ⟨rfl, rfl, rfl, rfl⟩)
  | forget handle channel own =>
      exact exec_of (.forget handle channel own) (discard_snd _)
        (forgetPeerOnDmContexts_effects trivial handle channel own)
  | forgetEverywhere handle =>
      exact exec_of (.forgetEverywhere handle) (discard_snd _)
        (forgetPeerEverywhere_effects trivial trivial handle)
  | reverify nickOrHandle fp =>
      exact exec_of (.reverify nickOrHandle fp) (discard_snd _)
        (reverifyPeer_effects trivial trivial nickOrHandle fp)
  | rotate chan =>
      exact exec_of (.rotate chan) rfl (markOutgoingPendingRotation_effects chan)
  | drain => exact drainQueues_quiet.moved.effects
  | configure config rules cache networks =>
      exact .single (.networks networks trivial (.still rfl rfl rfl (.inl rfl)) rfl)
  | restart =>
      exact Quiet.effects ⟨⟨fun _ member => absurd member (Table.not_mem_empty _),
        fun _ member => absurd member (Table.not_mem_empty _), le_rfl, fun clear => clear⟩, rfl⟩
  | advance now instant => exact Quiet.effects ⟨.still rfl rfl rfl (.inl rfl), rfl⟩
  | faults schedule => exact .single (.rescheduled trivial rfl rfl rfl)
  | reorder pending =>
      have kept : (w.manager.reordered pending).keyring = w.manager.keyring ∧
          (w.manager.reordered pending).identity = w.manager.identity ∧
          (w.manager.reordered pending).pendingInbound = w.manager.pendingInbound := by
        unfold E2eManager.reordered
        split <;> exact ⟨rfl, rfl, rfl⟩
      refine Quiet.effects ⟨⟨reordered_pending w.manager pending,
        fun _ member => kept.2.2 ▸ member, le_rfl, fun clear => clear⟩, ?_⟩
      change World.core { w with manager := w.manager.reordered pending } = w.core
      simp only [World.core, kept.1, kept.2.1]

end Machine

end Repartee.E2e
