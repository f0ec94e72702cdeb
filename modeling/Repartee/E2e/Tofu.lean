import Repartee.E2e.Symbolic
import Repartee.E2e.Writes.Ops

/-!
Trust on first use: a handle belongs to one identity key, and every session and every request
kept under a handle is of the identity it belongs to.
-/

namespace Repartee.E2e

open Text Lib

section Invariant

/-- No two identities are on record at one handle. -/
def SoleHolders (kr : Keyring) : Prop :=
  ∀ p ∈ kr.peers, ∀ q ∈ kr.peers, ∀ handle,
    p.lastHandle = some handle → q.lastHandle = some handle → p.fingerprint = q.fingerprint

structure Tofu (P : Platform) (w : World) : Prop where
  holders : SoleHolders w.manager.keyring
  sessions : ∀ row ∈ w.manager.keyring.incoming,
    Bound w.manager.keyring row.session.handle row.session.fingerprint
  requests : ∀ e ∈ w.manager.pendingInbound,
    Bound w.manager.keyring e.1.1 (fingerprint P e.2.req.pubkey)

/-- A peer row that takes no handle from another identity and moves none of its own. -/
def Settles (kr : Keyring) (rec : PeerRecord) : Prop :=
  ∃ handle, rec.lastHandle = some handle ∧
    (∀ p ∈ kr.peers, p.lastHandle = some handle → p.fingerprint = rec.fingerprint) ∧
      ∀ p ∈ kr.peers, p.fingerprint = rec.fingerprint → p.lastHandle = some handle

theorem upsertPeer_cases (kr : Keyring) (rec p : PeerRecord)
    (member : p ∈ (kr.upsertPeer rec).peers) :
    (p ∈ kr.peers ∧ p.fingerprint ≠ rec.fingerprint) ∨
      (p.fingerprint = rec.fingerprint ∧ p.lastHandle = rec.lastHandle) := by
  rcases (kr.mem_upsertPeer rec p).mp member with kept | ⟨old, -, same, rfl⟩ | ⟨rfl, -⟩
  · exact Or.inl kept
  · exact Or.inr ⟨same, rfl⟩
  · exact Or.inr ⟨rfl, rfl⟩

theorem upsertPeer_bound_other (kr : Keyring) (rec : PeerRecord) (handle : Str) (fp : Fingerprint)
    (bound : Bound kr handle fp) (other : fp ≠ rec.fingerprint) :
    Bound (kr.upsertPeer rec) handle fp := by
  obtain ⟨p, member, rfl, here⟩ := bound
  exact ⟨p, (kr.mem_upsertPeer rec p).mpr (Or.inl ⟨member, other⟩), rfl, here⟩

theorem Settles.holders (kr : Keyring) (rec : PeerRecord) (settles : Settles kr rec)
    (holders : SoleHolders kr) : SoleHolders (kr.upsertPeer rec) := by
  obtain ⟨h, at_h, mine, -⟩ := settles
  intro p inP q inQ handle here there
  rcases upsertPeer_cases kr rec p inP with ⟨oldP, otherP⟩ | ⟨sameP, newP⟩
  · rcases upsertPeer_cases kr rec q inQ with ⟨oldQ, -⟩ | ⟨sameQ, newQ⟩
    · exact holders p oldP q oldQ handle here there
    · rw [newQ, at_h, ← here] at there
      exact absurd (mine p oldP there.symm) otherP
  · rcases upsertPeer_cases kr rec q inQ with ⟨oldQ, otherQ⟩ | ⟨sameQ, -⟩
    · rw [newP, at_h, ← there] at here
      exact absurd (mine q oldQ here.symm) otherQ
    · exact sameP.trans sameQ.symm

theorem Settles.bound (kr : Keyring) (rec : PeerRecord) (settles : Settles kr rec) (handle : Str)
    (fp : Fingerprint) (bound : Bound kr handle fp) : Bound (kr.upsertPeer rec) handle fp := by
  by_cases same : fp = rec.fingerprint
  · obtain ⟨h, at_h, -, home⟩ := settles
    obtain ⟨p, member, rfl, here⟩ := bound
    have there : rec.lastHandle = some handle :=
      at_h.trans ((home p member same).symm.trans here)
    exact same ▸ upsertPeer_bound kr rec handle there
  · exact upsertPeer_bound_other kr rec handle fp bound same

theorem getPeerByHandle_isSome (kr : Keyring) (handle : Str) (p : PeerRecord) (member : p ∈ kr.peers)
    (here : p.lastHandle = some handle) : ∃ q, kr.getPeerByHandle handle = some q := by
  have found : p ∈ kr.peers.rows.filter fun rec => rec.lastHandle = some handle :=
    List.mem_filter.mpr ⟨member, by simpa using here⟩
  unfold Keyring.getPeerByHandle
  cases rows : kr.peers.rows.filter fun rec => rec.lastHandle = some handle with
  | nil => rw [rows] at found; cases found
  | cons first rest =>
      unfold Keyring.latestSeen
      cases Keyring.latestSeen rest with
      | none => exact ⟨first, rfl⟩
      | some best => by_cases later : best.lastSeen ≤ first.lastSeen <;> simp [later]

theorem latestSeen_mem (recs : List PeerRecord) (p : PeerRecord)
    (latest : Keyring.latestSeen recs = some p) : p ∈ recs := by
  induction recs with
  | nil => cases latest
  | cons first rest ih =>
      unfold Keyring.latestSeen at latest
      cases found : Keyring.latestSeen rest with
      | none =>
          simp only [found, Option.some.injEq] at latest
          exact latest ▸ List.mem_cons_self
      | some best =>
          simp only [found] at latest
          split at latest
          · exact Option.some.inj latest ▸ List.mem_cons_self
          · rw [← Option.some.inj latest] at ih ⊢
            exact List.mem_cons_of_mem _ (ih found)

theorem getPeerByHandle_eq_some (kr : Keyring) (handle : Str) (p : PeerRecord)
    (found : kr.getPeerByHandle handle = some p) : p ∈ kr.peers ∧ p.lastHandle = some handle := by
  have member := List.mem_filter.mp (latestSeen_mem _ p found)
  exact ⟨member.1, by simpa using member.2⟩

/-- An accepted classification settles the peer row it leads to. -/
theorem classify_settles (kr : Keyring) (fp : Fingerprint) (handle : Str) (rec : PeerRecord)
    (holders : SoleHolders kr) (claims : Claims handle fp kr rec) : Settles kr rec := by
  obtain ⟨rfl, here, accepted⟩ := claims
  refine ⟨handle, here, ?_⟩
  unfold Keyring.classify at accepted
  split at accepted
  · rename_i peer found
    obtain ⟨member, same⟩ := (Table.find?_eq_some _ _ _).mp found
    split at accepted
    · cases accepted
    · split at accepted
      · cases accepted
      · rename_i held
        have home := not_not.mp held
        refine ⟨fun p inP there => ?_, fun p inP ofKey => ?_⟩
        · exact (holders p inP peer member handle there home).trans same
        · rw [Table.mem_eq _ p peer inP member (ofKey.trans same.symm)]
          exact home
  · rename_i missing
    have absent := (Table.find?_eq_none _ _).mp missing
    split at accepted
    · cases accepted
    · rename_i nobody
      refine ⟨fun p inP there => ?_, fun p inP ofKey => absurd ofKey (absent p inP)⟩
      obtain ⟨q, found⟩ := getPeerByHandle_isSome kr handle p inP there
      rw [nobody] at found
      cases found

theorem bound_settles (kr : Keyring) (fp : Fingerprint) (handle : Str) (rec : PeerRecord)
    (holders : SoleHolders kr) (bound : Bound kr handle fp) (ofKey : rec.fingerprint = fp)
    (here : rec.lastHandle = some handle) : Settles kr rec := by
  subst ofKey
  obtain ⟨peer, member, same, home⟩ := bound
  refine ⟨handle, here, fun p inP there => ?_, fun p inP ofKey => ?_⟩
  · exact (holders p inP peer member handle there home).trans same
  · rw [Table.mem_eq _ p peer inP member (ofKey.trans same.symm)]
    exact home

theorem bound_congr (kr kr' : Keyring) (handle : Str) (fp : Fingerprint)
    (same : kr'.peers = kr.peers) : Bound kr' handle fp ↔ Bound kr handle fp := by
  unfold Bound
  rw [same]

theorem soleHolders_congr (kr kr' : Keyring) (same : kr'.peers = kr.peers) :
    SoleHolders kr' ↔ SoleHolders kr := by
  unfold SoleHolders
  rw [same]

end Invariant

section Handshakes

variable {P : Platform} {L : License} {w w' : World}

/-- What a license must say of the sessions, peers and requests it allows. -/
structure License.Binds (P : Platform) (L : License) : Prop where
  install : ∀ kr s, L.install kr s ∨ L.placeholder kr s → Bound kr s.handle s.fingerprint
  upsert : ∀ kr rec, SoleHolders kr → L.upsert kr rec → Settles kr rec
  request : ∀ kr h c req, L.request kr h c req → Bound kr h (fingerprint P req.pubkey)
  moves : ¬L.moves

theorem Effect.holders (effect : Effect P L w w') (binds : L.Binds P)
    (holders : SoleHolders w.manager.keyring) : SoleHolders w'.manager.keyring := by
  rcases effect.peers_cases with same | ⟨rec, licensed, stored⟩ | moves
  · exact (soleHolders_congr _ _ same).mpr holders
  · exact (soleHolders_congr _ _ stored).mpr
      ((binds.upsert _ rec holders licensed).holders _ rec holders)
  · exact absurd moves binds.moves

theorem Effect.bound (effect : Effect P L w w') (binds : L.Binds P)
    (holders : SoleHolders w.manager.keyring) (handle : Str) (fp : Fingerprint)
    (bound : Bound w.manager.keyring handle fp) : Bound w'.manager.keyring handle fp := by
  rcases effect.peers_cases with same | ⟨rec, licensed, stored⟩ | moves
  · exact (bound_congr _ _ _ _ same).mpr bound
  · exact (bound_congr _ _ _ _ stored).mpr
      ((binds.upsert _ rec holders licensed).bound _ rec handle fp bound)
  · exact absurd moves binds.moves

theorem setStatus_identity (h c : Str) (status : TrustStatus) (row : IncomingRow) :
    (IncomingRow.setStatus h c status row).session.handle = row.session.handle ∧
      (IncomingRow.setStatus h c status row).session.fingerprint = row.session.fingerprint := by
  unfold IncomingRow.setStatus
  split <;> exact ⟨rfl, rfl⟩

/-- Every session a write leaves was of the identity at its handle when the write was made. -/
theorem Effect.session_bound (effect : Effect P L w w') (binds : L.Binds P)
    (before : ∀ row ∈ w.manager.keyring.incoming,
      Bound w.manager.keyring row.session.handle row.session.fingerprint) :
    ∀ row ∈ w'.manager.keyring.incoming,
      Bound w.manager.keyring row.session.handle row.session.fingerprint := by
  rcases effect.incoming_cases with same | ⟨now, s, kr, licensed, strict, stored⟩ |
    ⟨h, c, status, -, stored⟩ | ⟨-, fewer⟩
  · intro row member
    replace member : row ∈ w'.core.incoming := member
    rw [same] at member
    exact before row member
  · intro row member
    replace member : row ∈ kr.incoming := stored ▸ member
    rw [(Keyring.installIncomingSessionStrict_eq_ok _ now s kr strict).1] at member
    rcases (Table.mem_replace _ _ _).mp member with ⟨kept, -⟩ | rfl
    · exact before row kept
    · exact binds.install _ s licensed
  · intro row member
    replace member : row ∈ (w.manager.keyring.updateIncomingStatus h c status).incoming :=
      stored ▸ member
    obtain ⟨old, kept, rfl⟩ := (Keyring.mem_updateIncomingStatus _ _ _ _ _).mp member
    obtain ⟨sameHandle, sameFp⟩ := setStatus_identity h c status old
    rw [sameHandle, sameFp]
    exact before old kept
  · exact fun row member => before row (fewer row member)

theorem Effect.request_bound (effect : Effect P L w w') (binds : L.Binds P)
    (before : ∀ e ∈ w.manager.pendingInbound,
      Bound w.manager.keyring e.1.1 (fingerprint P e.2.req.pubkey)) :
    ∀ e ∈ w'.manager.pendingInbound,
      Bound w.manager.keyring e.1.1 (fingerprint P e.2.req.pubkey) := by
  rcases effect.inbound_cases with fewer | ⟨handle, channel, entry, licensed, added, -⟩
  · exact fun e member => before e (fewer e member)
  · intro e member
    rcases added e member with kept | rfl
    · exact before e kept
    · exact binds.request _ handle channel entry.req licensed

theorem Effect.tofu (effect : Effect P L w w') (binds : L.Binds P) (before : Tofu P w) :
    Tofu P w' where
  holders := effect.holders binds before.holders
  sessions row member := effect.bound binds before.holders _ _
    (effect.session_bound binds before.sessions row member)
  requests e member := effect.bound binds before.holders _ _
    (effect.request_bound binds before.requests e member)

theorem nothing_binds (P : Platform) : License.nothing.Binds P :=
  ⟨fun _ _ never => never.elim False.elim False.elim, fun _ _ _ never => never.elim,
    fun _ _ _ _ never => never.elim, fun never => never⟩

theorem Tofu.quiet (before : Tofu P w) (quiet : Quiet w w') : Tofu P w' :=
  (Effect.quiet quiet).tofu (nothing_binds P) before

theorem Effects.tofu (effects : Effects P L w w') (binds : L.Binds P) (before : Tofu P w) :
    Tofu P w' := by
  induction effects with
  | refl => exact before
  | tail _ effect ih => exact effect.tofu binds ih

/-- The request an accept answers came from the identity at its handle. -/
theorem cachedRequest_bound (handle channel : Str) (entry : PendingInboundKeyReq)
    (cached : cachedRequest w handle channel = some entry) (before : Tofu P w) :
    Bound w.manager.keyring handle (fingerprint P entry.req.pubkey) := by
  have pruned := (Map.get?_eq_some _ _ _).mp cached
  exact before.requests _ ((Map.mem_retain _ _ _).mp pruned).1

theorem consents_settle (handle channel : Str) (kr : Keyring) (rec : PeerRecord)
    (before : Tofu P w) (same : kr.peers = w.core.peers) (holders : SoleHolders kr)
    (consents : Consents P w handle channel rec) : Settles kr rec := by
  obtain ⟨entry, cached, ofKey, here⟩ := consents
  have bound := cachedRequest_bound handle channel entry cached before
  exact bound_settles kr _ handle rec holders ((bound_congr _ _ _ _ same).mpr bound) ofKey here

/-- The operations that move peers between handles: every other one binds by its license. -/
def Op.moves : Op → Prop
  | .forgetEverywhere _ => True
  | .reverify _ _ => True
  | _ => False

theorem license_binds (op : Op) (still : ¬op.moves) (before : Tofu P w) :
    (license P w op).Binds P := by
  cases op with
  | forgetEverywhere handle => exact absurd trivial still
  | reverify nickOrHandle fp => exact absurd trivial still
  | keyreq handle nick req =>
      refine ⟨?_, fun kr rec holders claims => classify_settles kr _ handle rec holders claims, ?_,
        fun never => never⟩
      · rintro kr s (never | ⟨bound, t, rfl⟩)
        · exact never.elim
        · exact bound
      · rintro kr h c r ⟨bound, rfl, rfl, rfl⟩
        exact bound
  | keyrsp handle rsp =>
      refine ⟨?_, fun kr rec holders claims => classify_settles kr _ handle rec holders claims,
        fun _ _ _ _ never => never.elim, fun never => never⟩
      rintro kr s (⟨bound, sk, t, -, rfl⟩ | never)
      · exact bound
      · exact never.elim
  | rekey handle msg =>
      refine ⟨?_, fun _ _ _ never => never.elim, fun _ _ _ _ never => never.elim, fun never => never⟩
      rintro kr s (⟨bound, sk, t, -, rfl⟩ | never)
      · exact bound
      · exact never.elim
  | acceptPending handle channel =>
      exact ⟨fun _ _ never => never.elim False.elim False.elim, fun kr rec holders consents =>
        consents_settle handle channel kr rec before consents.1 holders consents.2,
        fun _ _ _ _ never => never.elim, fun never => never⟩
  | accept handle chan own =>
      exact ⟨fun _ _ never => never.elim False.elim False.elim, fun kr rec holders consents =>
        consents_settle handle chan kr rec before consents.1 holders consents.2,
        fun _ _ _ _ never => never.elim, fun never => never⟩
  | _ =>
      exact ⟨fun _ _ never => never.elim False.elim False.elim,
        fun _ _ _ never => never.elim, fun _ _ _ _ never => never.elim, fun never => never⟩

end Handshakes

section Moves

variable {P : Platform} {w w' : World} {α : Type}

/-- Nothing stays filed under the handles that go; the peers stay as they are. -/
structure Vacates (gone : Str → Prop) (w w' : World) : Prop where
  clear : w'.env.faults = []
  peers : w'.manager.keyring.peers = w.manager.keyring.peers
  sessions : ∀ row ∈ w'.manager.keyring.incoming,
    row ∈ w.manager.keyring.incoming ∧ ¬gone row.session.handle
  requests : ∀ e ∈ w'.manager.pendingInbound, e ∈ w.manager.pendingInbound ∧ ¬gone e.1.1

theorem Vacates.trans {v : World} {gone gone' : Str → Prop} (first : Vacates gone w v)
    (second : Vacates gone' v w') : Vacates (fun h => gone h ∨ gone' h) w w' where
  clear := second.clear
  peers := second.peers.trans first.peers
  sessions row member := by
    obtain ⟨kept, left⟩ := second.sessions row member
    exact ⟨(first.sessions row kept).1, not_or.mpr ⟨(first.sessions row kept).2, left⟩⟩
  requests e member := by
    obtain ⟨kept, left⟩ := second.requests e member
    exact ⟨(first.requests e kept).1, not_or.mpr ⟨(first.requests e kept).2, left⟩⟩

/-- Only the peer at the handle leaves it; the sessions and the requests are untouched. -/
structure Evicts (handle : Str) (w w' : World) : Prop where
  clear : w'.env.faults = []
  holders : SoleHolders w'.manager.keyring
  bound : ∀ other fp, other ≠ handle → Bound w.manager.keyring other fp →
    Bound w'.manager.keyring other fp
  incoming : w'.manager.keyring.incoming = w.manager.keyring.incoming
  pendingInbound : w'.manager.pendingInbound = w.manager.pendingInbound

theorem Evicts.refl (handle : Str) (clear : w.env.faults = [])
    (holders : SoleHolders w.manager.keyring) : Evicts handle w w :=
  ⟨clear, holders, fun _ _ _ bound => bound, rfl, rfl⟩

/-- A handle whose peer left and whose sessions and requests are gone. -/
theorem Tofu.vacated {v : World} {gone : Str → Prop} (handle : Str) (evicts : Evicts handle w v)
    (vacates : Vacates gone v w') (included : gone handle) (before : Tofu P w) : Tofu P w' := by
  refine ⟨(soleHolders_congr _ _ vacates.peers).mpr evicts.holders, ?_, ?_⟩
  · intro row member
    obtain ⟨kept, left⟩ := vacates.sessions row member
    rw [evicts.incoming] at kept
    exact (bound_congr _ _ _ _ vacates.peers).mpr
      (evicts.bound _ _ (fun same => left (same ▸ included)) (before.sessions row kept))
  · intro e member
    obtain ⟨kept, left⟩ := vacates.requests e member
    rw [evicts.pendingInbound] at kept
    exact (bound_congr _ _ _ _ vacates.peers).mpr
      (evicts.bound _ _ (fun same => left (same ▸ included)) (before.requests e kept))

/-- Clearing a handle's sessions, recipients and pending state, whatever is done with the
counts. -/
theorem after_vacate (handle : Str) (rest : Nat → Nat → Nat → Action α) {Q : α → World → Prop}
    {E : E2eError → World → Prop} (clear : w.env.faults = [])
    (after : ∀ s r p w', Vacates (· = handle) w w' → Prog.After w' (rest s r p) Q E) :
    Prog.After w (do
      let sessions ← executeGet (·.deleteIncomingSessionsForHandle handle)
      let recipients ← executeGet (·.deleteOutgoingRecipientsForHandle handle)
      let pending ← clearPendingStateForHandle handle
      rest sessions recipients pending) Q E := by
  refine (Prog.after_bind _ _).mpr (after_executeGet _ clear ?_)
  refine (Prog.after_bind _ _).mpr (after_executeGet _ clear ?_)
  refine (Prog.after_bind _ _).mpr ((Prog.after_update _).mpr (after _ _ _ _ ⟨clear, rfl, ?_, ?_⟩))
  · intro row member
    simpa using (Table.mem_delete _ _ _).mp member
  · intro e member
    obtain ⟨kept, other⟩ := (Map.mem_retain _ _ _).mp member
    exact ⟨kept, by simpa using other⟩

theorem clearHandleState_vacates (handle : Str) (clear : w.env.faults = []) :
    Prog.After w (clearHandleState handle) (fun _ w' => Vacates (· = handle) w w') fun _ _ => False :=
  after_vacate handle (fun _ _ _ => pure ()) clear fun _ _ _ _ vacates => vacates

theorem mem_erase_other (kr : Keyring) (fp : Fingerprint) (p : PeerRecord) :
    p ∈ (kr.deletePeerByFingerprint fp).peers ↔ p ∈ kr.peers ∧ p.fingerprint ≠ fp :=
  Table.mem_erase _ _ _

/-- Deleting the peer at a handle takes nobody else's. -/
theorem deletePeer_evicts (handle : Str) (peer : PeerRecord) (member : peer ∈ w.manager.keyring.peers)
    (here : ∀ other, peer.lastHandle = some other → other = handle) (clear : w.env.faults = [])
    (holders : SoleHolders w.manager.keyring) :
    Evicts handle w (w.setKeyring (w.manager.keyring.deletePeerByFingerprint peer.fingerprint)) := by
  refine ⟨clear, ?_, ?_, rfl, rfl⟩
  · intro p inP q inQ
    exact holders p ((mem_erase_other _ _ _).mp inP).1 q ((mem_erase_other _ _ _).mp inQ).1
  · rintro other fp elsewhere ⟨p, inP, ofKey, at_other⟩
    refine ⟨p, (mem_erase_other _ _ _).mpr ⟨inP, fun same => elsewhere ?_⟩, ofKey, at_other⟩
    rw [Table.mem_eq _ p peer inP member same] at at_other
    exact here other at_other

/-- A peer that is between handles keeps its record but not the handle. -/
theorem unbindPeer_evicts (handle : Str) (peer : PeerRecord) (member : peer ∈ w.manager.keyring.peers)
    (here : peer.lastHandle = some handle) (clear : w.env.faults = [])
    (holders : SoleHolders w.manager.keyring) :
    Evicts handle w
      (w.setKeyring (w.manager.keyring.upsertPeer { peer with lastHandle := none })) := by
  refine ⟨clear, ?_, ?_, rfl, rfl⟩
  · intro p inP q inQ other at_p at_q
    rcases upsertPeer_cases _ _ p inP with ⟨oldP, -⟩ | ⟨-, away⟩
    · rcases upsertPeer_cases _ _ q inQ with ⟨oldQ, -⟩ | ⟨-, away⟩
      · exact holders p oldP q oldQ other at_p at_q
      · rw [away] at at_q
        cases at_q
    · rw [away] at at_p
      cases at_p
  · intro other fp elsewhere bound
    refine upsertPeer_bound_other _ _ other fp bound fun same => elsewhere ?_
    obtain ⟨p, inP, ofKey, at_other⟩ := bound
    rw [Table.mem_eq _ p peer inP member (ofKey.trans same), here] at at_other
    exact (Option.some.inj at_other).symm

theorem deletePeerAt_evicts (handle : Str) (clear : w.env.faults = [])
    (holders : SoleHolders w.manager.keyring) :
    Prog.After w (deletePeerAt handle) (fun _ w' => Evicts handle w w') fun _ _ => False := by
  unfold deletePeerAt
  refine (Prog.after_bind _ _).mpr (after_query _ clear ?_)
  split
  · exact (Prog.after_pure _).mpr (.refl handle clear holders)
  · rename_i peer found
    obtain ⟨member, here⟩ := getPeerByHandle_eq_some _ _ _ found
    refine (Prog.after_bind _ _).mpr (after_execute _ clear ((Prog.after_pure _).mpr ?_))
    refine deletePeer_evicts handle peer member (fun other there => ?_) clear holders
    exact Option.some.inj (there.symm.trans here)

theorem evictReplacedIdentity_evicts (oldFp : Fingerprint) (handle : Str)
    (clear : w.env.faults = []) (holders : SoleHolders w.manager.keyring) :
    Prog.After w (evictReplacedIdentity oldFp handle) (fun _ w' => Evicts handle w w')
      fun _ _ => False := by
  unfold evictReplacedIdentity
  refine (Prog.after_bind _ _).mpr (after_query _ clear ?_)
  split
  · exact (Prog.after_pure _).mpr (.refl handle clear holders)
  · rename_i peer found
    obtain ⟨member, ofKey⟩ := (Table.find?_eq_some _ _ _).mp found
    refine (Prog.after_ite _ _ _).mpr ⟨fun _ => .refl handle clear holders, fun held => ?_⟩
    have here := not_not.mp held
    refine (Prog.after_bind _ _).mpr ((Prog.after_read _).mpr ((Prog.after_ite _ _ _).mpr ⟨?_, ?_⟩))
    · intro _
      exact after_execute _ clear (unbindPeer_evicts handle peer member here clear holders)
    · intro _
      refine after_execute _ clear ?_
      rw [← ofKey]
      refine deletePeer_evicts handle peer member (fun other there => ?_) clear holders
      exact Option.some.inj (there.symm.trans here)

theorem forgetPeerEverywhere_tofu (handle : Str) (clear : w.env.faults = []) (before : Tofu P w) :
    Prog.After w (forgetPeerEverywhere handle) (fun _ w' => Tofu P w') fun _ w' => Tofu P w' := by
  unfold forgetPeerEverywhere
  refine (Prog.after_bind _ _).mpr ((deletePeerAt_evicts handle clear before.holders).mono ?_
    fun _ _ never => never.elim)
  intro peers v evicts
  refine after_vacate handle _ evicts.clear fun s r p w' vacates => ?_
  have vacated := before.vacated handle evicts vacates rfl
  exact vacated.quiet (clearTrustNoticesForHandle_quiet handle).moved

theorem purgeHandle_tofu (handle : Str) (resolved : List PendingTrustNotice)
    (clear : w.env.faults = []) (before : Tofu P w) :
    Prog.After w (purgeHandle handle resolved) (fun _ w' => Tofu P w') fun _ w' => Tofu P w' := by
  unfold purgeHandle
  refine (Prog.after_bind _ _).mpr ((deletePeerAt_evicts handle clear before.holders).mono ?_
    fun _ _ never => never.elim)
  intro peers v evicts
  refine after_vacate handle _ evicts.clear fun s r p w' vacates => ?_
  have vacated := before.vacated handle evicts vacates rfl
  have after := vacated.quiet (dropTrustNotices_quiet resolved).moved
  refine (Prog.after_bind _ _).mpr ((Prog.after_change _).mpr ?_)
  exact (Prog.after_ite _ _ _).mpr ⟨fun _ => after, fun _ => after⟩

theorem clearFormerHandle_vacates (current : Option Str) (handle : Str)
    (clear : w.env.faults = []) :
    Prog.After w (clearFormerHandle current handle)
      (fun _ w' => Vacates (fun h => current = some h ∧ h ≠ handle) w w') fun _ _ => False := by
  unfold clearFormerHandle
  cases current with
  | none =>
      refine (Prog.after_pure _).mpr ⟨clear, rfl, fun row member => ⟨member, ?_⟩,
        fun e member => ⟨member, ?_⟩⟩ <;> exact fun gone => nomatch gone.1
  | some former =>
      refine (Prog.after_ite _ _ _).mpr ⟨fun moved => ?_, fun stays => ?_⟩
      · refine (clearHandleState_vacates former clear).mono ?_ fun _ _ never => never
        intro _ w' vacates
        refine ⟨vacates.clear, vacates.peers, fun row member => ?_, fun e member => ?_⟩
        · obtain ⟨kept, left⟩ := vacates.sessions row member
          exact ⟨kept, fun gone => left (Option.some.inj gone.1).symm⟩
        · obtain ⟨kept, left⟩ := vacates.requests e member
          exact ⟨kept, fun gone => left (Option.some.inj gone.1).symm⟩
      · have home := not_not.mp stays
        refine (Prog.after_pure _).mpr ⟨clear, rfl, fun row member => ⟨member, ?_⟩,
          fun e member => ⟨member, ?_⟩⟩ <;>
          exact fun gone => gone.2 ((Option.some.inj gone.1).symm.trans home)

/-- Nothing is filed under the handle, nor for the identity. -/
structure Unused (P : Platform) (handle : Str) (fp : Fingerprint) (w : World) : Prop where
  sessions : ∀ row ∈ w.manager.keyring.incoming,
    row.session.handle ≠ handle ∧ row.session.fingerprint ≠ fp
  requests : ∀ e ∈ w.manager.pendingInbound,
    e.1.1 ≠ handle ∧ fingerprint P e.2.req.pubkey ≠ fp

/-- Once its handle and the one it comes from are clear, an identity is used nowhere. -/
theorem Tofu.unused (handle : Str) (fp : Fingerprint) (current : Option Str)
    (vacates : Vacates (fun h => h = handle ∨ (current = some h ∧ h ≠ handle)) w w')
    (binding : ∀ p ∈ w.manager.keyring.peers, p.fingerprint = fp → p.lastHandle = current)
    (before : Tofu P w) : Unused P handle fp w' := by
  have away (h : Str) (fp' : Fingerprint) (bound : Bound w.manager.keyring h fp')
      (left : ¬(h = handle ∨ (current = some h ∧ h ≠ handle))) : h ≠ handle ∧ fp' ≠ fp := by
    obtain ⟨elsewhere, moved⟩ := not_or.mp left
    refine ⟨elsewhere, fun same => moved ⟨?_, elsewhere⟩⟩
    obtain ⟨p, member, ofKey, here⟩ := bound
    exact (binding p member (ofKey.trans same)).symm.trans here
  refine ⟨fun row member => ?_, fun e member => ?_⟩
  · obtain ⟨kept, left⟩ := vacates.sessions row member
    exact away _ _ (before.sessions row kept) left
  · obtain ⟨kept, left⟩ := vacates.requests e member
    exact away _ _ (before.requests e kept) left

/-- Whoever the identity displaces is at the handle no longer; the rest stay where they were. -/
theorem settled_other (kr : Keyring) (rec p : PeerRecord) (handle : Str)
    (member : p ∈ ((kr.upsertPeer rec).detachOtherPeersFromHandle handle rec.fingerprint).peers)
    (other : p.fingerprint ≠ rec.fingerprint) :
    p.lastHandle ≠ some handle ∧ ∃ old ∈ kr.peers, old.fingerprint = p.fingerprint ∧
      ∀ h, p.lastHandle = some h → old.lastHandle = some h := by
  obtain ⟨q, inQ, rfl⟩ := (Keyring.mem_detachOtherPeersFromHandle _ _ _ _).mp member
  rw [PeerRecord.detachFrom_fingerprint] at other ⊢
  rcases upsertPeer_cases kr rec q inQ with ⟨old, -⟩ | ⟨same, -⟩
  · unfold PeerRecord.detachFrom
    split
    · exact ⟨fun here => (nomatch here), q, old, rfl, fun h here => nomatch here⟩
    · rename_i stays
      exact ⟨fun here => stays ⟨here, other⟩, q, old, rfl, fun h here => here⟩
  · exact absurd same other

theorem settled_self (kr : Keyring) (rec p : PeerRecord) (handle : Str)
    (here : rec.lastHandle = some handle)
    (member : p ∈ ((kr.upsertPeer rec).detachOtherPeersFromHandle handle rec.fingerprint).peers)
    (ofKey : p.fingerprint = rec.fingerprint) : p.lastHandle = some handle := by
  obtain ⟨q, inQ, rfl⟩ := (Keyring.mem_detachOtherPeersFromHandle _ _ _ _).mp member
  rw [PeerRecord.detachFrom_fingerprint] at ofKey
  rw [PeerRecord.detachFrom, if_neg fun both => both.2 ofKey]
  rcases upsertPeer_cases kr rec q inQ with ⟨-, other⟩ | ⟨-, new⟩
  · exact absurd ofKey other
  · exact new.trans here

theorem settled_holders (kr : Keyring) (rec : PeerRecord) (handle : Str)
    (here : rec.lastHandle = some handle) (holders : SoleHolders kr) :
    SoleHolders ((kr.upsertPeer rec).detachOtherPeersFromHandle handle rec.fingerprint) := by
  intro p inP q inQ h at_p at_q
  by_cases sameP : p.fingerprint = rec.fingerprint
  · have home := settled_self kr rec p handle here inP sameP
    by_cases sameQ : q.fingerprint = rec.fingerprint
    · exact sameP.trans sameQ.symm
    · exact absurd (at_q.trans (at_p.symm.trans home)) (settled_other kr rec q handle inQ sameQ).1
  · obtain ⟨leftP, oldP, inOldP, sameOldP, wasP⟩ := settled_other kr rec p handle inP sameP
    by_cases sameQ : q.fingerprint = rec.fingerprint
    · have home := settled_self kr rec q handle here inQ sameQ
      exact absurd (at_p.trans (at_q.symm.trans home)) leftP
    · obtain ⟨-, oldQ, inOldQ, sameOldQ, wasQ⟩ := settled_other kr rec q handle inQ sameQ
      rw [← sameOldP, ← sameOldQ]
      exact holders oldP inOldP oldQ inOldQ h (wasP h at_p) (wasQ h at_q)

theorem settled_bound (kr : Keyring) (rec : PeerRecord) (handle other : Str) (fp : Fingerprint)
    (elsewhere : other ≠ handle) (another : fp ≠ rec.fingerprint) (bound : Bound kr other fp) :
    Bound ((kr.upsertPeer rec).detachOtherPeersFromHandle handle rec.fingerprint) other fp := by
  obtain ⟨p, member, ofKey, there⟩ := upsertPeer_bound_other kr rec other fp bound another
  refine ⟨p, (Keyring.mem_detachOtherPeersFromHandle _ _ _ _).mpr
    ⟨p, member, if_neg fun both => ?_⟩, ofKey, there⟩
  exact elsewhere (Option.some.inj (there.symm.trans both.1))

theorem settlePeer_tofu (rec : PeerRecord) (handle : Str) (candidates : List PendingTrustNotice)
    (outcome : ReverifyOutcome) (here : rec.lastHandle = some handle) (clear : w.env.faults = [])
    (unused : Unused P handle rec.fingerprint w) (before : Tofu P w) :
    Prog.After w (do
      execute (·.upsertPeer rec)
      execute (·.detachOtherPeersFromHandle handle rec.fingerprint)
      let _ ← clearTrustNoticesForHandle handle
      dropTrustNotices candidates
      return outcome) (fun _ w' => Tofu P w') fun _ w' => Tofu P w' := by
  refine (Prog.after_bind _ _).mpr (after_execute _ clear ?_)
  refine (Prog.after_bind _ _).mpr (after_execute _ clear ?_)
  have settled : Tofu P (w.setKeyring ((w.manager.keyring.upsertPeer
      rec).detachOtherPeersFromHandle handle rec.fingerprint)) := by
    refine ⟨settled_holders _ rec handle here before.holders, fun row member => ?_,
      fun e member => ?_⟩
    · obtain ⟨elsewhere, another⟩ := unused.sessions row member
      exact settled_bound _ rec handle _ _ elsewhere another (before.sessions row member)
    · obtain ⟨elsewhere, another⟩ := unused.requests e member
      exact settled_bound _ rec handle _ _ elsewhere another (before.requests e member)
  exact settled.quiet ⟨.still rfl rfl rfl (.inl rfl), rfl⟩

theorem getPeerByFingerprint_only (kr : Keyring) (fp : Fingerprint) (p : PeerRecord)
    (member : p ∈ kr.peers) (ofKey : p.fingerprint = fp) :
    p.lastHandle = (kr.getPeerByFingerprint fp).bind PeerRecord.lastHandle := by
  have found : kr.getPeerByFingerprint fp = some p := (Table.find?_eq_some _ _ _).mpr ⟨member, ofKey⟩
  rw [found]
  rfl

theorem applyRebind_tofu (candidates : List PendingTrustNotice) (oldHandle newHandle : Str)
    (fp : Fingerprint) (clear : w.env.faults = []) (before : Tofu P w) :
    Prog.After w (applyRebind candidates oldHandle newHandle fp) (fun _ w' => Tofu P w')
      fun _ w' => Tofu P w' := by
  unfold applyRebind
  refine (Prog.after_bind _ _).mpr (after_query _ clear ?_)
  split
  · exact before.quiet (dropTrustNotices_quiet candidates).moved
  · rename_i peer found
    refine (Prog.after_bind _ _).mpr ((clearHandleState_vacates newHandle clear).mono ?_
      fun _ _ never => never.elim)
    intro _ v first
    refine (Prog.after_bind _ _).mpr ((clearFormerHandle_vacates _ _ first.clear).mono ?_
      fun _ _ never => never.elim)
    intro _ u second
    have vacates := first.trans second
    have unused := Tofu.unused newHandle fp peer.lastHandle vacates (fun p member ofKey => by
      rw [getPeerByFingerprint_only _ fp p member ofKey, found]
      rfl) before
    exact settlePeer_tofu _ newHandle candidates _ rfl vacates.clear unused
      (before.vacated newHandle (.refl newHandle clear before.holders) vacates (Or.inl rfl))

theorem applyInstall_tofu (candidates : List PendingTrustNotice) (handle : Str)
    (oldFp newFp : Fingerprint) (pubkey : Bytes) (clear : w.env.faults = []) (before : Tofu P w) :
    Prog.After w (applyInstall candidates handle oldFp newFp pubkey) (fun _ w' => Tofu P w')
      fun _ w' => Tofu P w' := by
  unfold applyInstall
  refine (Prog.after_bind _ _).mpr ((evictReplacedIdentity_evicts oldFp handle clear
    before.holders).mono ?_ fun _ _ never => never.elim)
  intro _ v evicts
  refine (Prog.after_bind _ _).mpr ((clearHandleState_vacates handle evicts.clear).mono ?_
    fun _ _ never => never.elim)
  intro _ u first
  have cleared := before.vacated handle evicts first rfl
  have idle : Vacates (· = handle) u u := ⟨first.clear, rfl,
    fun row member => ⟨member, (first.sessions row member).2⟩,
    fun e member => ⟨member, (first.requests e member).2⟩⟩
  refine (Prog.after_bind _ _).mpr ((Prog.after_bind _ _).mpr (after_query _ first.clear ?_))
  refine (Prog.after_pure _).mpr ?_
  refine (Prog.after_bind _ _).mpr ((clearFormerHandle_vacates _ _ first.clear).mono ?_
    fun _ _ never => never.elim)
  intro _ x second
  have vacates := idle.trans second
  have unused := Tofu.unused handle newFp _ vacates
    (fun p member ofKey => getPeerByFingerprint_only _ newFp p member ofKey) cleared
  exact settlePeer_tofu _ handle candidates _ rfl vacates.clear unused
    (cleared.vacated handle (.refl handle first.clear cleared.holders) vacates (Or.inl rfl))

theorem applyConsents_tofu (nickOrHandle : Str) (candidates : List PendingTrustNotice)
    (clear : w.env.faults = []) (before : Tofu P w) :
    Prog.After w (applyConsents nickOrHandle candidates) (fun _ w' => Tofu P w')
      fun _ w' => Tofu P w' := by
  unfold applyConsents
  split
  · exact purgeHandle_tofu _ _ clear before
  · exact applyRebind_tofu _ _ _ _ clear before
  · exact applyInstall_tofu _ _ _ _ _ clear before
  · exact before

theorem reverifyPeer_tofu (nickOrHandle : Str) (fp : Option Str) (clear : w.env.faults = [])
    (before : Tofu P w) :
    Prog.After w (reverifyPeer nickOrHandle fp) (fun _ w' => Tofu P w') fun _ w' => Tofu P w' := by
  unfold reverifyPeer
  refine (Prog.after_bind _ _).mpr ((Prog.after_read _).mpr ?_)
  cases fp with
  | none => exact applyConsents_tofu _ _ clear before
  | some text =>
      exact (Prog.after_ite _ _ _).mpr ⟨fun _ => before, fun _ =>
        applyConsents_tofu _ _ clear before⟩

end Moves

section Runs

variable {P : Platform} {w : World}

/-- The database answers while peers are moved between handles. Every other operation may fail
anywhere. -/
def Undisturbed (w : World) (op : Op) : Prop := op.moves → w.env.faults = []

theorem exec_tofu (op : Op) (before : Tofu P w) (undisturbed : Undisturbed w op) :
    Tofu P (exec P w op) := by
  cases op with
  | forgetEverywhere handle =>
      have moved := (forgetPeerEverywhere_tofu handle (undisturbed trivial) before).reaches
      rwa [← discard_snd] at moved
  | reverify nickOrHandle fp =>
      have moved := (reverifyPeer_tofu nickOrHandle fp (undisturbed trivial) before).reaches
      rwa [← discard_snd] at moved
  | _ => exact (exec_effects P w _).tofu (license_binds _ id before) before

theorem fresh_tofu (identity : Bytes) (tolerance : Int) : Tofu P (World.fresh identity tolerance) where
  holders p member := absurd member (Table.not_mem_empty p)
  sessions row member := absurd member (Table.not_mem_empty row)
  requests e member := absurd member (Table.not_mem_empty e)

/-- After any run from an empty keyring a handle is at most one peer's, and every session is of
the identity its handle belongs to. -/
theorem handle_belongs_to_one_identity (P : Platform) (identity : Bytes) (tolerance : Int)
    (ops : List Op) (undisturbed : Along Undisturbed (exec P) (World.fresh identity tolerance) ops) :
    let kr := (runFrom (exec P) (World.fresh identity tolerance) ops).manager.keyring
    (∀ p ∈ kr.peers, ∀ q ∈ kr.peers, ∀ handle, p.lastHandle = some handle →
      q.lastHandle = some handle → p = q) ∧
      (∀ row ∈ kr.incoming, ∃ p ∈ kr.peers, p.fingerprint = row.session.fingerprint ∧
        p.lastHandle = some row.session.handle) ∧
      ∀ row ∈ kr.incoming, ∀ p ∈ kr.peers, p.lastHandle = some row.session.handle →
        p.fingerprint = row.session.fingerprint := by
  intro kr
  have tofu : Tofu P (runFrom (exec P) (World.fresh identity tolerance) ops) :=
    undisturbed.invariant (fun w op before step => exec_tofu op before step)
      (fresh_tofu identity tolerance)
  refine ⟨fun p inP q inQ handle at_p at_q => ?_, tofu.sessions, fun row member p inP here => ?_⟩
  · exact Table.mem_eq _ p q inP inQ (tofu.holders p inP q inQ handle at_p at_q)
  · obtain ⟨q, inQ, ofKey, there⟩ := tofu.sessions row member
    exact (tofu.holders p inP q inQ _ here there).trans ofKey

/-- Bob asks to talk, and the user forgets and reverifies somebody else. -/
def bobAmongOthers : List Op :=
  [.configure (roomIn .normal) .empty .empty .empty,
    .keyreq bobHandle none (requestBy .symbolic bobSeed room (List.replicate 32 9)
      (List.replicate 16 1)),
    .forgetEverywhere "eve@host".toList,
    .reverify "eve@host".toList none]

theorem handle_belongs_to_one_identity_bob :
    let kr := (runFrom (exec .symbolic) (World.fresh aliceSeed 300) bobAmongOthers).manager.keyring
    (∃ row ∈ kr.incoming.rows, row.session.handle = bobHandle) ∧
      ∀ row ∈ kr.incoming, ∀ p ∈ kr.peers, p.lastHandle = some row.session.handle →
        p.fingerprint = row.session.fingerprint :=
  ⟨by decide +kernel, (handle_belongs_to_one_identity .symbolic aliceSeed 300 bobAmongOthers
    ⟨fun never => never.elim, fun never => never.elim, fun _ => by decide +kernel,
      fun _ => by decide +kernel, trivial⟩).2.2⟩

end Runs

end Repartee.E2e
