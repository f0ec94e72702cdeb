import Repartee.E2e.Writes.Messages
import Repartee.E2e.Machine
import Repartee.E2e.Symbolic

/-!
What a response does to the pending handshakes: it uses up the one it answers and no other, and a
session is filed only for such an answer.
-/

namespace Repartee.E2e

open Text Lib

section Steady

/-- Neither the pending handshakes nor the sessions of others change, nor the clock. -/
structure Steady (w w' : World) : Prop where
  pending : w'.manager.pending = w.manager.pending
  incoming : w'.manager.keyring.incoming = w.manager.keyring.incoming
  now : w'.env.now = w.env.now

instance : IsPreorder World Steady where
  refl _ := ⟨rfl, rfl, rfl⟩
  trans _ _ _ first second := ⟨second.pending.trans first.pending,
    second.incoming.trans first.incoming, second.now.trans first.now⟩

theorem Reads.steady {w w' : World} (reads : Reads w w') : Steady w w' where
  pending := congrArg E2eManager.pending reads.manager
  incoming := congrArg (fun m => m.keyring.incoming) reads.manager
  now := reads.now

variable {P : Platform} {w : World}

theorem recordTrustChange_steady (notice : PendingTrustNotice) :
    Prog.Ensures Steady w (recordTrustChange notice) fun _ _ => True :=
  Prog.ensures_change _ ⟨rfl, rfl, rfl⟩ trivial

/-- The sender is written down, or refused with a warning; what it answered was kept before. -/
theorem tofuUpsertOnKeyrsp_steady (handle : Str) (rsp : KeyRsp) (fp : Fingerprint) (now : Int) :
    Prog.Ensures Steady w (tofuUpsertOnKeyrsp handle rsp fp now) fun _ _ =>
      (w.manager.keyring.classify fp handle).accepted = true := by
  unfold tofuUpsertOnKeyrsp
  have asked : Prog.Ensures Steady w (classifyPeerChange fp handle) fun change _ =>
      change = w.manager.keyring.classify fp handle :=
    (classifyPeerChange_reads fp handle).mono (fun _ reads => reads.steady) fun _ _ _ same => same
  apply asked.bind
  intro change v _ same
  rw [← same]
  apply Prog.ensures_ite
  · intro accepted
    exact ensures_execute _ ⟨rfl, rfl, rfl⟩ ⟨rfl, rfl, rfl⟩ accepted
  · intro _
    exact (recordTrustChange_steady _).bind fun _ _ _ _ => Prog.ensures_fail _

/-- The pending handshakes stay, and of the sessions only this one is filed. -/
structure Files (s : IncomingSession) (w w' : World) : Prop where
  pending : w'.manager.pending = w.manager.pending
  incoming : ∀ row ∈ w'.manager.keyring.incoming,
    row ∈ w.manager.keyring.incoming ∨ row.session = s

theorem Steady.files {w w' : World} (s : IncomingSession) (steady : Steady w w') :
    Files s w w' where
  pending := steady.pending
  incoming row member := Or.inl (by rwa [steady.incoming] at member)

theorem Files.steady {v w' : World} {s : IncomingSession} (files : Files s w v)
    (steady : Steady v w') : Files s w w' where
  pending := steady.pending.trans files.pending
  incoming row member := files.incoming row (by rwa [steady.incoming] at member)

theorem installFromKeyrsp_files (handle : Str) (rsp : KeyRsp) (s : IncomingSession) :
    Prog.After w (installFromKeyrsp handle rsp s) (fun _ w' => Files s w w')
      fun _ w' => Files s w w' := by
  have strict : Prog.Ensures (Files s) w (installIncomingSessionStrict s) fun _ _ => True := by
    apply ensures_transact
    · exact ⟨rfl, fun _ member => Or.inl member⟩
    · intro _ kr answer
      cases installed : w.manager.keyring.installIncomingSessionStrict w.env.now s with
      | error e => simp [installed, Except.map] at answer
      | ok kr' =>
          simp only [installed, Except.map, Except.ok.injEq, Prod.mk.injEq, true_and] at answer
          subst answer
          have written := (Keyring.installIncomingSessionStrict_eq_ok _ _ _ _ installed).1
          refine ⟨⟨rfl, ?_⟩, trivial⟩
          intro row member
          have inside : row ∈ kr'.incoming := member
          rw [written] at inside
          rcases (Table.mem_replace _ _ _).mp inside with ⟨before, -⟩ | new
          · exact Or.inl before
          · exact Or.inr (by rw [new])
  unfold installFromKeyrsp
  apply (Prog.after_bind _ _).mpr
  apply Prog.After.mono (Prog.ensures_attempt strict)
  · intro result v ⟨filed, _⟩
    cases result with
    | ok done => exact filed
    | error e =>
        apply (Prog.after_ite _ _ _).mpr
        constructor
        · intro _
          have warned : Prog.Ensures Steady v (do
              let existing ← query (·.getIncomingSession handle rsp.channel)
              let existingFp :=
                (existing.map IncomingSession.fingerprint).getD (List.replicate 16 0)
              recordTrustChange ⟨handle, rsp.channel,
                .fingerprintChanged handle existingFp s.fingerprint, some rsp.pubkey⟩
              (Prog.fail e : Action Unit)) fun _ _ => True := by
            apply ((query_reads _).mono (fun _ reads => reads.steady) fun _ _ _ same => same).bind
            intro existing v' _ _
            apply (recordTrustChange_steady _).bind
            intro _ _ _ _
            exact Prog.ensures_fail _
          exact Prog.After.mono warned (fun _ _ stop => filed.steady stop.1)
            fun _ _ stop => filed.steady stop
        · intro _
          exact filed
  · intro e v filed
    exact filed

end Steady

section Replies

variable {P : Platform} {w : World}

/-- The response answers the pending handshake: it names its channel and its secret opens it. -/
def Opens (P : Platform) (rsp : KeyRsp) (entry : (Str × Bytes) × PendingHandshake)
    (sk : SessionKey) : Prop :=
  entry.1.1 = rsp.channel ∧ unwrapKeyrsp P rsp entry.2.ephX25519Secret = some sk

def Authentic (P : Platform) (rsp : KeyRsp) : Prop :=
  verify P rsp.pubkey (signedKeyrspPayload (wireContext rsp.channel) rsp.pubkey rsp.ephemeralPub
    rsp.wrapNonce rsp.wrapCt rsp.nonce) rsp.sig = .ok ()

/-- The pending handshakes after a response: all of them, all live ones, or all live ones but the
one it answers. -/
inductive LeavesPending (P : Platform) (rsp : KeyRsp) (w w' : World) : Prop where
  | untouched (same : w'.manager.pending = w.manager.pending)
  | pruned (same : w'.manager.pending = (pruneExpiredPending w).2.manager.pending)
      (unanswered : ∀ entry sk, Live w entry → ¬Opens P rsp entry sk)
  | took (entry : (Str × Bytes) × PendingHandshake) (sk : SessionKey) (live : Live w entry)
      (authentic : Authentic P rsp) (opens : Opens P rsp entry sk)
      (same : w'.manager.pending = (pruneExpiredPending w).2.manager.pending.erase entry.1)

theorem mem_pruned (entry : (Str × Bytes) × PendingHandshake) :
    entry ∈ (pruneExpiredPending w).2.manager.pending ↔ Live w entry := by
  have kept := Map.mem_retain w.manager.pending
    (fun _ ph => decide (w.env.now - ph.createdAt ≤ pendingKeyreqTtlSecs)) entry
  rw [decide_eq_true_eq] at kept
  exact kept

theorem matchPending_eq_none (rsp : KeyRsp) (entries : List ((Str × Bytes) × PendingHandshake))
    (none : matchPending P rsp entries = none) (entry : (Str × Bytes) × PendingHandshake)
    (member : entry ∈ entries) (sk : SessionKey) : ¬Opens P rsp entry sk := by
  intro opens
  have missed := List.findSome?_eq_none_iff.mp none entry member
  rw [if_pos opens.1, opens.2] at missed
  cases missed

/-- The first live handshake the response opens is taken out; when none is, only the expired ones
are gone. -/
theorem consume_after (rsp : KeyRsp) :
    Prog.After w (consumeMatchingPendingForKeyrsp P rsp)
      (fun sk w' => ∃ entry, Live w entry ∧ Opens P rsp entry sk ∧
        w'.manager.pending = (pruneExpiredPending w).2.manager.pending.erase entry.1 ∧
        w'.manager.keyring = w.manager.keyring ∧ w'.env = w.env)
      (fun _ w' => w' = (pruneExpiredPending w).2 ∧
        ∀ entry sk, Live w entry → ¬Opens P rsp entry sk) := by
  unfold consumeMatchingPendingForKeyrsp
  apply (Prog.after_bind _ _).mpr
  show Prog.After (pruneExpiredPending w).2 _ _ _
  apply (Prog.after_bind _ _).mpr
  show Prog.After (pruneExpiredPending w).2 _ _ _
  apply (Prog.after_bind _ _).mpr
  apply (Prog.after_ensure _ _).mpr
  constructor
  · intro _
    cases found : matchPending P rsp (pruneExpiredPending w).2.manager.pending.rows with
    | none =>
        apply (Prog.after_fail _).mpr
        refine ⟨rfl, ?_⟩
        intro entry sk live
        exact matchPending_eq_none rsp _ found entry ((mem_pruned entry).mpr live) sk
    | some hit =>
        obtain ⟨sk, key⟩ := hit
        obtain ⟨entry, member, rfl, here, unwraps⟩ := matchPending_eq_some rsp _ sk key found
        exact ⟨entry, (mem_pruned entry).mp member, ⟨here, unwraps⟩, rfl, rfl, rfl⟩
  · intro none
    refine ⟨rfl, ?_⟩
    intro entry sk live opens
    have some : ((pruneExpiredPending w).2.manager.pending.rows.any
        fun entry => decide (entry.1.1 = rsp.channel)) = true :=
      List.any_eq_true.mpr ⟨entry, (mem_pruned entry).mpr live, decide_eq_true opens.1⟩
    rw [none] at some
    cases some

/-- What a response did: what is left of the pending handshakes, and the session filed, if any. -/
structure Replied (P : Platform) (handle : Str) (rsp : KeyRsp) (w w' : World) : Prop where
  pending : LeavesPending P rsp w w'
  incoming : ∀ row ∈ w'.manager.keyring.incoming, row ∈ w.manager.keyring.incoming ∨
    ∃ entry sk, Live w entry ∧ Opens P rsp entry sk ∧ entry ∉ w'.manager.pending ∧
      Authentic P rsp ∧ (w.manager.keyring.classify (fingerprint P rsp.pubkey) handle).accepted ∧
      row.session = ⟨handle, rsp.channel, fingerprint P rsp.pubkey, sk, .trusted, w.env.now⟩

theorem handleKeyrsp_replied (handle : Str) (rsp : KeyRsp) :
    Prog.After w (handleKeyrsp P handle rsp) (fun _ w' => Replied P handle rsp w w' ∧
        ∃ entry sk, Live w entry ∧ Opens P rsp entry sk ∧ entry ∉ w'.manager.pending)
      fun _ w' => Replied P handle rsp w w' := by
  unfold handleKeyrsp
  apply (Prog.after_bind _ _).mpr
  apply (Prog.after_lift _).mpr
  constructor
  swap
  · intro e refused
    exact ⟨.untouched rfl, fun row member => Or.inl member⟩
  intro _ authentic
  apply (Prog.after_bind _ _).mpr
  apply Prog.After.mono (consume_after rsp)
  swap
  · rintro e v ⟨rfl, unanswered⟩
    exact ⟨.pruned rfl unanswered, fun row member => Or.inl member⟩
  rintro sk v ⟨entry, live, opens, left, keyring, env⟩
  have taken {w' : World} (kept : w'.manager.pending = v.manager.pending) :
      LeavesPending P rsp w w' ∧ entry ∉ w'.manager.pending := by
    constructor
    · exact .took entry sk live authentic opens (kept.trans left)
    · rw [kept, left]
      intro member
      exact ((Table.mem_erase _ _ _).mp member).2 rfl
  apply (Prog.after_bind _ _).mpr
  apply (Prog.after_read _).mpr
  apply (Prog.after_bind _ _).mpr
  apply Prog.After.mono (tofuUpsertOnKeyrsp_steady handle rsp (fingerprint P rsp.pubkey) v.env.now)
  · rintro _ u ⟨steady, accepted⟩
    rw [keyring] at accepted
    have before : u.manager.keyring.incoming = w.manager.keyring.incoming :=
      steady.incoming.trans (by rw [keyring])
    have filed {w' : World} (files : Files ⟨handle, rsp.channel, fingerprint P rsp.pubkey, sk,
        .trusted, v.env.now⟩ u w') : Replied P handle rsp w w' ∧
          ∃ entry sk, Live w entry ∧ Opens P rsp entry sk ∧ entry ∉ w'.manager.pending := by
      obtain ⟨leaves, gone⟩ := taken (files.pending.trans steady.pending)
      refine ⟨⟨leaves, ?_⟩, entry, sk, live, opens, gone⟩
      intro row member
      rcases files.incoming row member with old | new
      · exact Or.inl (before ▸ old)
      · refine Or.inr ⟨entry, sk, live, opens, gone, authentic, accepted, ?_⟩
        rw [new, env]
    exact Prog.After.mono (installFromKeyrsp_files handle rsp _) (fun _ _ files => filed files)
      fun _ _ files => (filed files).1
  · intro e u steady
    refine ⟨(taken steady.pending).1, ?_⟩
    intro row member
    rw [steady.incoming, keyring] at member
    exact Or.inl member

/-- The outcome of a program meets what holds behind it. -/
theorem after_outcome {α : Type} {m : Action α} {Q : α → World → Prop} {E : E2eError → World → Prop}
    (after : Prog.After w m Q E) : (∃ a, (m w).1 = .ok a ∧ Q a (m w).2) ∨
      ∃ e, (m w).1 = .error e ∧ E e (m w).2 := by
  unfold Prog.After at after
  rcases outcome : m w with ⟨result, w'⟩
  rw [outcome] at after
  cases result with
  | ok a => exact Or.inl ⟨a, rfl, after⟩
  | error e => exact Or.inr ⟨e, rfl, after⟩

theorem replied (handle : Str) (rsp : KeyRsp) :
    Replied P handle rsp w (handleKeyrsp P handle rsp w).2 := by
  rcases after_outcome (handleKeyrsp_replied (P := P) (w := w) handle rsp) with
    ⟨a, -, done, -⟩ | ⟨e, -, done⟩
  · exact done
  · exact done

/-- A live handshake that is gone after a response was answered by it, and is the only one gone. -/
theorem gone_answered {handle : Str} {rsp : KeyRsp} {w' : World}
    (reply : Replied P handle rsp w w') (entry : (Str × Bytes) × PendingHandshake)
    (live : Live w entry) (gone : entry ∉ w'.manager.pending) :
    ∃ sk, Authentic P rsp ∧ Opens P rsp entry sk ∧
      w'.manager.pending = (pruneExpiredPending w).2.manager.pending.erase entry.1 := by
  cases reply.pending with
  | untouched same =>
      rw [same] at gone
      exact absurd live.1 gone
  | pruned same unanswered =>
      rw [same] at gone
      exact absurd ((mem_pruned entry).mpr live) gone
  | took other sk live' authentic opens same =>
      have held := (mem_pruned entry).mpr live
      have heldOther := (mem_pruned other).mpr live'
      have keys : entry.1 = other.1 := by
        by_contra differ
        apply gone
        rw [same]
        exact (Table.mem_erase _ _ _).mpr ⟨held, differ⟩
      have entries : entry = other := Table.mem_eq _ _ _ held heldOther keys
      subst entries
      exact ⟨sk, authentic, opens, same⟩

/-- A response, the passing of time, or a fault to come; a response finds the handshake unexpired
and does not answer it. -/
def Spares (P : Platform) (entry : (Str × Bytes) × PendingHandshake) (w : World) : Op → Prop
  | .keyrsp _ rsp => w.env.now - entry.2.createdAt ≤ pendingKeyreqTtlSecs ∧
      ¬(Authentic P rsp ∧ ∃ sk, Opens P rsp entry sk)
  | .advance _ _ => True
  | .faults _ => True
  | _ => False

theorem spared_exec (entry : (Str × Bytes) × PendingHandshake) (w : World) (op : Op)
    (held : entry ∈ w.manager.pending) (spares : Spares P entry w op) :
    entry ∈ (exec P w op).manager.pending := by
  cases op with
  | keyrsp handle rsp =>
      obtain ⟨fresh, unanswered⟩ := spares
      by_contra gone
      obtain ⟨sk, authentic, opens, -⟩ :=
        gone_answered (replied handle rsp) entry ⟨held, fresh⟩ gone
      exact unanswered ⟨authentic, sk, opens⟩
  | advance now instant => exact held
  | faults schedule => exact held
  | _ => cases spares

/-- A session is filed only when a live handshake of the response's channel, whoever it was
addressed to, opens the response, which is then used up; it is filed for the sender under the key
that signed, when that key is new there or the known one. A response that is not signed by its key,
or that no live handshake answers, is refused and leaves every live one. Any response takes at most
the one it answers, so a handshake waits through all responses that do not. -/
theorem keyrsp_answers_live_handshake (P : Platform) (w : World) (handle : Str) (rsp : KeyRsp) :
    (∀ row ∈ (handleKeyrsp P handle rsp w).2.manager.keyring.incoming,
      row ∈ w.manager.keyring.incoming ∨ ∃ entry sk, Live w entry ∧ Opens P rsp entry sk ∧
        entry ∉ (handleKeyrsp P handle rsp w).2.manager.pending ∧ Authentic P rsp ∧
        (w.manager.keyring.classify (fingerprint P rsp.pubkey) handle).accepted ∧
        row.session = ⟨handle, rsp.channel, fingerprint P rsp.pubkey, sk, .trusted, w.env.now⟩) ∧
    ((¬Authentic P rsp ∨ ∀ entry sk, Live w entry → ¬Opens P rsp entry sk) →
      (∃ e, (handleKeyrsp P handle rsp w).1 = .error e) ∧
        ∀ entry, Live w entry → entry ∈ (handleKeyrsp P handle rsp w).2.manager.pending) ∧
    (∀ entry other, Live w entry → Live w other →
      entry ∉ (handleKeyrsp P handle rsp w).2.manager.pending →
      other ∉ (handleKeyrsp P handle rsp w).2.manager.pending →
      entry = other ∧ ∃ sk, Opens P rsp entry sk) ∧
    ∀ (ops : List Op), ∀ entry ∈ w.manager.pending, Along (Spares P entry) (exec P) w ops →
      entry ∈ (runFrom (exec P) w ops).manager.pending := by
  have reply := replied (P := P) (w := w) handle rsp
  refine ⟨reply.incoming, ?_, ?_, ?_⟩
  · intro unanswered
    have kept : ∀ entry, Live w entry →
        entry ∈ (handleKeyrsp P handle rsp w).2.manager.pending := by
      intro entry live
      by_contra gone
      obtain ⟨sk, authentic, opens, -⟩ := gone_answered reply entry live gone
      rcases unanswered with forged | none
      · exact forged authentic
      · exact none entry sk live opens
    refine ⟨?_, kept⟩
    rcases after_outcome (handleKeyrsp_replied (P := P) (w := w) handle rsp) with
      ⟨a, -, -, entry, sk, live, -, gone⟩ | ⟨e, refused, -⟩
    · exact absurd (kept entry live) gone
    · exact ⟨e, refused⟩
  · intro entry other live live' gone gone'
    obtain ⟨sk, -, opens, same⟩ := gone_answered reply entry live gone
    refine ⟨?_, sk, opens⟩
    have held := (mem_pruned other).mpr live'
    by_contra differ
    apply gone'
    rw [same]
    refine (Table.mem_erase _ _ _).mpr ⟨held, ?_⟩
    intro keys
    exact differ (Table.mem_eq _ _ _ ((mem_pruned entry).mpr live) held keys.symm)
  · intro ops entry held along
    exact along.invariant (fun w op inside spares => spared_exec entry w op inside spares) held

/-- A request addressed to Bob is pending. -/
def bobAsked : World :=
  runFrom (exec .symbolic) (World.fresh aliceSeed 300) [.handshake room (some bobHandle)]

def eveHandle : Str := "eve@host".toList

def openingReply : KeyRsp :=
  bobsResponse .symbolic (List.replicate 32 5) (List.replicate keyLen 3) 1

theorem openingReply_files :
    ∃ row ∈ (handleKeyrsp .symbolic eveHandle openingReply bobAsked).2.manager.keyring.incoming.rows,
      row ∉ bobAsked.manager.keyring.incoming.rows := by
  decide +kernel

theorem bobAsked_addressed : ∀ entry ∈ bobAsked.manager.pending.rows,
    ¬(entry.2.peerHandle = none ∨ entry.2.peerHandle = some eveHandle) := by
  decide +kernel

/-- Whoever opens a request addressed to Bob answers it under a handle of their own. -/
theorem reply_of_another_handle_is_taken :
    ¬∀ (P : Platform) (identity : Bytes) (ops : List Op) (handle : Str) (rsp : KeyRsp),
      let w := runFrom (exec P) (World.fresh identity 300) ops
      ∀ row ∈ (handleKeyrsp P handle rsp w).2.manager.keyring.incoming,
        row ∈ w.manager.keyring.incoming ∨ ∃ entry, Live w entry ∧ (∃ sk, Opens P rsp entry sk) ∧
          (entry.2.peerHandle = none ∨ entry.2.peerHandle = some handle) := by
  intro addressed
  obtain ⟨row, member, new⟩ := openingReply_files
  have asked := addressed .symbolic aliceSeed [.handshake room (some bobHandle)] eveHandle
    openingReply row member
  rcases asked with old | ⟨entry, live, -, mine⟩
  · exact new old
  · exact bobAsked_addressed entry live.1 mine

end Replies

end Repartee.E2e
