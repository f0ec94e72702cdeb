import Repartee.E2e.Symbolic
import Repartee.E2e.Writes.Ops

/-!
What a revocation or a refusal of a peer is worth against the messages that peer sends later.
-/

namespace Repartee.E2e

open Text Lib

section Invariant

theorem IncomingRow.matches_iff (handle channel : Str) (row : IncomingRow) :
    IncomingRow.matches handle channel row = true ↔
      row.session.handle = handle ∧ Covers channel row.session.channel := by
  simp [IncomingRow.matches, Covers]

theorem OutgoingRecipient.matches_iff (channel handle : Str) (r : OutgoingRecipient) :
    OutgoingRecipient.matches channel handle r = true ↔
      r.handle = handle ∧ Covers channel r.channel := by
  simp [OutgoingRecipient.matches, Covers]

/-- The peer's session in the own context is not trusted, and the peer is on record in the other
context only where it was when the decision fell. -/
structure ShutOut (handle own peerChan : Str) (recorded : List (Str × Str)) (w : World) : Prop where
  session : ∀ row ∈ w.core.incoming, IncomingRow.matches handle own row = true →
    row.session.status ≠ .trusted
  recipient : ∀ r ∈ w.core.recipients, OutgoingRecipient.matches peerChan handle r = true →
    r.key ∈ recorded

/-- What a license must not allow. -/
structure License.ShutsOut (L : License) (handle own peerChan : Str) : Prop where
  install : ∀ kr s, L.install kr s → s.handle = handle → Covers own s.channel → False
  placeholder : ∀ kr s, L.placeholder kr s → s.status = .pending
  status : ∀ kr h c, L.status kr h c .trusted → h ≠ handle
  record : ∀ c, L.record handle c → ¬Covers peerChan c

variable {P : Platform} {L : License} {w w' : World} {handle own peerChan : Str}
  {recorded : List (Str × Str)}

theorem setStatus_handle (h c : Str) (status : TrustStatus) (row : IncomingRow) :
    (IncomingRow.setStatus h c status row).session.handle = row.session.handle ∧
      (IncomingRow.setStatus h c status row).session.channel = row.session.channel := by
  unfold IncomingRow.setStatus
  split <;> exact ⟨rfl, rfl⟩

theorem setStatus_untrusted (h c : Str) (status : TrustStatus) (row : IncomingRow)
    (other : status = .trusted → row.session.handle ≠ h) (before : row.session.status ≠ .trusted) :
    (IncomingRow.setStatus h c status row).session.status ≠ .trusted := by
  unfold IncomingRow.setStatus
  split
  · rename_i filed
    intro trusted
    exact other trusted ((IncomingRow.matches_iff h c row).mp filed).1
  · exact before

theorem Effect.shutsOut_session (effect : Effect P L w w') (shuts : L.ShutsOut handle own peerChan)
    (before : ∀ row ∈ w.core.incoming, IncomingRow.matches handle own row = true →
      row.session.status ≠ .trusted) :
    ∀ row ∈ w'.core.incoming, IncomingRow.matches handle own row = true →
      row.session.status ≠ .trusted := by
  rcases effect.incoming_cases with same | ⟨now, s, kr, licensed, strict, stored⟩ |
    ⟨h, c, status, licensed, stored⟩ | ⟨-, fewer⟩
  · exact same ▸ before
  · rw [stored]
    intro row member filed
    rw [(Keyring.installIncomingSessionStrict_eq_ok _ now s kr strict).1] at member
    rcases (Table.mem_replace _ _ _).mp member with ⟨kept, -⟩ | rfl
    · exact before row kept filed
    · obtain ⟨here, covered⟩ := (IncomingRow.matches_iff _ _ _).mp filed
      rcases licensed with session | request
      · exact (shuts.install _ s session here covered).elim
      · intro trusted
        rw [shuts.placeholder _ s request] at trusted
        cases trusted
  · rw [stored]
    intro row member filed
    obtain ⟨old, kept, rfl⟩ := (Keyring.mem_updateIncomingStatus _ _ _ _ _).mp member
    have same := setStatus_handle h c status old
    have filedBefore : IncomingRow.matches handle own old = true := by
      rw [IncomingRow.matches_iff, same.1, same.2] at filed
      exact (IncomingRow.matches_iff _ _ _).mpr filed
    refine setStatus_untrusted h c status old (fun trusted here => ?_) (before old kept filedBefore)
    subst trusted
    exact shuts.status _ _ _ licensed
      (here.symm.trans ((IncomingRow.matches_iff _ _ _).mp filedBefore).1)
  · exact fun row member => before row (fewer row member)

theorem Effect.shutsOut_recipient (effect : Effect P L w w')
    (shuts : L.ShutsOut handle own peerChan)
    (before : ∀ r ∈ w.core.recipients, OutgoingRecipient.matches peerChan handle r = true →
      r.key ∈ recorded) :
    ∀ r ∈ w'.core.recipients, OutgoingRecipient.matches peerChan handle r = true →
      r.key ∈ recorded := by
  rcases effect.recipients_cases with fewer | ⟨c, h, fp, t, licensed, stored⟩
  · exact fun r member => before r (fewer r member)
  · rw [stored]
    intro r member filed
    rcases (Keyring.mem_recordOutgoingRecipient _ _ _ _ _ _).mp member with
      ⟨kept, -⟩ | ⟨old, kept, -, rfl⟩ | ⟨rfl, -⟩
    · exact before r kept filed
    · exact before old kept filed
    · obtain ⟨here, covered⟩ := (OutgoingRecipient.matches_iff _ _ _).mp filed
      exact (shuts.record c (here ▸ licensed) covered).elim

theorem Effects.shutsOut (effects : Effects P L w w') (shuts : L.ShutsOut handle own peerChan)
    (before : ShutOut handle own peerChan recorded w) :
    ShutOut handle own peerChan recorded w' := by
  induction effects with
  | refl => exact before
  | tail _ effect ih =>
      exact ⟨effect.shutsOut_session shuts ih.session, effect.shutsOut_recipient shuts ih.recipient⟩

end Invariant

section Runs

/-- The steps a revocation holds against: no message of the peer for the context is taken or
served, and the user decides nothing in the peer's favour. -/
def RespectsRevocation (P : Platform) (handle own peerChan : Str) (w : World) : Op → Prop
  | .keyreq h _ req => h = handle → Covers peerChan req.channel → ¬Served P w h req
  | .keyrsp h rsp => h = handle → Covers own rsp.channel → ∀ sk, ¬Answered P w h rsp sk
  | .rekey h msg => h = handle → Covers own msg.channel → ∀ sk, ¬Rekeyed P w h msg sk
  | .unrevoke h _ => h ≠ handle
  | .accept h _ _ => h ≠ handle
  | .acceptPending h _ => h ≠ handle
  | _ => True

variable {P : Platform} {w : World} {handle own peerChan : Str} {recorded : List (Str × Str)}

theorem license_shutsOut (op : Op) (respects : RespectsRevocation P handle own peerChan w op) :
    (license P w op).ShutsOut handle own peerChan := by
  cases op with
  | keyreq h nick req =>
      refine ⟨fun _ _ never => never.elim, ?_, fun _ _ _ never => never.elim, ?_⟩
      · rintro kr s ⟨-, t, rfl⟩
        rfl
      · rintro c ⟨here, rfl, served⟩ covered
        exact respects here.symm covered served
  | keyrsp h rsp =>
      refine ⟨?_, fun _ _ never => never.elim, fun _ _ _ never => never.elim,
        fun _ never => never.elim⟩
      rintro kr s ⟨-, sk, t, answered, rfl⟩ here covered
      exact respects here covered sk answered
  | rekey h msg =>
      refine ⟨?_, fun _ _ never => never.elim, fun _ _ _ never => never.elim,
        fun _ never => never.elim⟩
      rintro kr s ⟨-, sk, t, rekeyed, rfl⟩ here covered
      exact respects here covered sk rekeyed
  | acceptPending h c =>
      refine ⟨fun _ _ never => never.elim, fun _ _ never => never.elim,
        fun _ _ _ never => never.elim, ?_⟩
      rintro c' ⟨here, -⟩
      exact absurd here.symm respects
  | accept h chan ownContext =>
      refine ⟨fun _ _ never => never.elim, fun _ _ never => never.elim, ?_, ?_⟩
      · rintro kr h' c ⟨-, rfl, -⟩
        exact respects
      · rintro c' ⟨here, -⟩
        exact absurd here.symm respects
  | unrevoke h c =>
      refine ⟨fun _ _ never => never.elim, fun _ _ never => never.elim, ?_, fun _ never => never.elim⟩
      rintro kr h' c' ⟨-, rfl, -⟩
      exact respects
  | decline h c =>
      refine ⟨fun _ _ never => never.elim, fun _ _ never => never.elim, ?_, fun _ never => never.elim⟩
      rintro kr h' c' ⟨-, -, -, different⟩
      cases different
  | revoke h c c' =>
      refine ⟨fun _ _ never => never.elim, fun _ _ never => never.elim, ?_, fun _ never => never.elim⟩
      rintro kr h' c'' ⟨-, -, -, different⟩
      cases different
  | _ =>
      exact ⟨fun _ _ never => never.elim, fun _ _ never => never.elim,
        fun _ _ _ never => never.elim, fun _ never => never.elim⟩

theorem runFrom_shutOut (ops : List Op) (before : ShutOut handle own peerChan recorded w)
    (respects : Along (RespectsRevocation P handle own peerChan) (exec P) w ops) :
    ShutOut handle own peerChan recorded (runFrom (exec P) w ops) :=
  respects.invariant
    (fun v op held step => (exec_effects P v op).shutsOut (license_shutsOut op step) held) before

/-- The commands that turn a peer away in a context, with the contexts the peer stays on record
in: a refusal leaves the recipients alone. -/
inductive TurnsAway (w : World) (handle own peerChan : Str) : Op → List (Str × Str) → Prop
  | revoke : TurnsAway w handle own peerChan (.revoke handle peerChan own) []
  | decline (same : peerChan = own) : TurnsAway w handle own peerChan (.decline handle own)
      (w.core.recipients.rows.map OutgoingRecipient.key)

theorem updateIncomingStatus_revoked (kr : Keyring) (handle own : Str) :
    ∀ row ∈ (kr.updateIncomingStatus handle own .revoked).incoming,
      IncomingRow.matches handle own row = true → row.session.status ≠ .trusted := by
  intro row member filed
  obtain ⟨old, -, rfl⟩ := (Keyring.mem_updateIncomingStatus _ _ _ _ _).mp member
  have same := setStatus_handle handle own .revoked old
  rw [IncomingRow.matches_iff, same.1, same.2, ← IncomingRow.matches_iff] at filed
  unfold IncomingRow.setStatus
  rw [if_pos filed]
  exact fun trusted => by cases trusted

theorem turnsAway_shutOut (command : Op) (turns : TurnsAway w handle own peerChan command recorded)
    (done : (command.act P w).1 = .ok ()) :
    ShutOut handle own peerChan recorded (exec P w command) := by
  cases turns with
  | revoke =>
      have writes : Prog.Ensures (Effects P (license P w (.revoke handle peerChan own))) w _ _ :=
        e2eRevoke_effects handle peerChan own ⟨rfl, rfl, rfl, rfl⟩
      have stored := (writes.result (Prod.ext done rfl)).2
      refine ⟨fun row member => ?_, fun r member filed => ?_⟩
      · change row ∈ (exec P w (.revoke handle peerChan own)).manager.keyring.incoming at member
        rw [exec, Op.act, stored] at member
        exact updateIncomingStatus_revoked _ handle own row member
      · change r ∈ (exec P w (.revoke handle peerChan own)).manager.keyring.recipients at member
        rw [exec, Op.act, stored] at member
        have outside := ((Table.mem_delete _ _ _).mp member).2
        rw [filed] at outside
        cases outside
  | decline same =>
      subst same
      have writes : Prog.Ensures (Effects P (license P w (.decline handle peerChan))) w _ _ :=
        updateIncomingStatus_effects handle peerChan .revoked ⟨rfl, rfl, rfl, rfl⟩
      have stored := (writes.result (Prod.ext done rfl)).2
      refine ⟨fun row member => ?_, fun r member filed => ?_⟩
      · change row ∈ (exec P w (.decline handle peerChan)).manager.keyring.incoming at member
        rw [exec, Op.act, e2eDecline, stored] at member
        exact updateIncomingStatus_revoked _ handle peerChan row member
      · change r ∈ (exec P w (.decline handle peerChan)).manager.keyring.recipients at member
        rw [exec, Op.act, e2eDecline, stored] at member
        exact List.mem_map_of_mem member

/-- Once a peer is turned away in a context, its session there is never trusted again and it is
not put on record for our key again, for as long as every step respects the decision. -/
theorem turned_away_stays_out (P : Platform) (w : World) (handle own peerChan : Str)
    (command : Op) (recorded : List (Str × Str)) (ops : List Op)
    (turns : TurnsAway w handle own peerChan command recorded)
    (done : (command.act P w).1 = .ok ())
    (respects : Along (RespectsRevocation P handle own peerChan) (exec P) (exec P w command) ops) :
    (∀ row ∈ (runFrom (exec P) (exec P w command) ops).manager.keyring.incoming,
      IncomingRow.matches handle own row = true → row.session.status ≠ .trusted) ∧
      ∀ r ∈ (runFrom (exec P) (exec P w command) ops).manager.keyring.recipients,
        OutgoingRecipient.matches peerChan handle r = true → r.key ∈ recorded := by
  have out := runFrom_shutOut ops (turnsAway_shutOut command turns done) respects
  exact ⟨out.session, out.recipient⟩

end Runs

section Defect

def bobsRequest : KeyReq :=
  requestBy .symbolic bobSeed room (List.replicate 32 9) (List.replicate 16 1)

/-- Bob's first session, by the response that answers our request. -/
def bobEstablished : World :=
  runFrom (exec .symbolic) (World.fresh aliceSeed 300)
    [.configure (roomIn .autoAccept) .empty .empty .empty, .handshake room (some bobHandle),
      .keyrsp bobHandle
        (bobsResponse .symbolic (List.replicate 32 5) (List.replicate keyLen 3) 1)]

def bobsRekey : KeyRekey :=
  rekeyBy .symbolic bobSeed aliceSeed room (List.replicate 32 6) (List.replicate 32 4)
    (List.replicate 24 2) (List.replicate 16 2)

/-- After the revocation a rekey from Bob trusts his session again, and a request of his puts
him back on record for our key. -/
theorem revoked_peer_returns :
    let revoked := exec .symbolic bobEstablished (.revoke bobHandle room room)
    (∀ row ∈ revoked.manager.keyring.incoming.rows, row.session.status = .revoked) ∧
      (∃ row ∈ (exec .symbolic revoked (.rekey bobHandle bobsRekey)).manager.keyring.incoming.rows,
        IncomingRow.matches bobHandle room row = true ∧ row.session.status = .trusted) ∧
        ∃ r ∈ (exec .symbolic revoked (.keyreq bobHandle none
          bobsRequest)).manager.keyring.recipients.rows,
          OutgoingRecipient.matches room bobHandle r = true := by
  decide +kernel

/-- What goes on in the room without a handshake. -/
def quietSteps : List Op :=
  [.send room "hello".toList, .receive bobHandle room "hello".toList, .rotate room]

theorem turned_away_stays_out_quietly :
    let kr := (runFrom (exec .symbolic) (exec .symbolic bobEstablished
      (.revoke bobHandle room room)) quietSteps).manager.keyring
    (∃ row ∈ kr.incoming.rows, IncomingRow.matches bobHandle room row = true) ∧
      ∀ row ∈ kr.incoming, IncomingRow.matches bobHandle room row = true →
        row.session.status ≠ .trusted :=
  ⟨by decide +kernel, (turned_away_stays_out .symbolic bobEstablished bobHandle room room
    (.revoke bobHandle room room) [] quietSteps .revoke (by decide +kernel)
    ⟨trivial, trivial, trivial, trivial⟩).1⟩

end Defect

end Repartee.E2e
