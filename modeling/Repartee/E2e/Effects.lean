import Repartee.E2e.Machine

/-!
What an operation can do to the rows, the secrets and the record of a run, one write at a time.
Every invariant of the machine is read off these writes instead of off the programs.
-/

namespace Repartee.E2e

open Text Lib

/-- The part of a world the writes are about. -/
structure Core where
  identity : Bytes
  peers : Table PeerRecord.fingerprint
  incoming : Table IncomingRow.key
  outgoing : Table OutgoingSession.channel
  recipients : Table OutgoingRecipient.key
  seenRekeys : Table (id : SeenRekey → SeenRekey)
  networks : Table (id : Str → Str)
  signed : List HandshakeMsg
  generated : List (Str × SessionKey)

def World.core (w : World) : Core :=
  { identity := w.manager.identity
    peers := w.manager.keyring.peers
    incoming := w.manager.keyring.incoming
    outgoing := w.manager.keyring.outgoing
    recipients := w.manager.keyring.recipients
    seenRekeys := w.manager.keyring.seenRekeys
    networks := w.manager.keyring.configuredNetworks
    signed := w.ledger.signed
    generated := w.ledger.generated }

/-- Random draws and scheduled faults are used up, and handshakes and requests in flight may be
given up, nothing else. -/
structure Ages (w w' : World) : Prop where
  pending : ∀ e ∈ w'.manager.pending, e ∈ w.manager.pending
  inbound : ∀ e ∈ w'.manager.pendingInbound, e ∈ w.manager.pendingInbound
  draws : w.env.draws ≤ w'.env.draws
  faults : w.env.faults = [] → w'.env.faults = []

structure Quiet (w w' : World) : Prop extends Ages w w' where
  core : w'.core = w.core

/-- Nothing is written at all: only the fault schedule advances. -/
structure Reads (w w' : World) : Prop where
  manager : w'.manager = w.manager
  ledger : w'.ledger = w.ledger
  draws : w'.env.draws = w.env.draws
  now : w'.env.now = w.env.now
  faults : w.env.faults = [] → w'.env.faults = []

instance : IsPreorder World Reads where
  refl _ := ⟨rfl, rfl, rfl, rfl, fun clear => clear⟩
  trans _ _ _ first second :=
    ⟨second.manager.trans first.manager, second.ledger.trans first.ledger,
      second.draws.trans first.draws, second.now.trans first.now,
      fun clear => second.faults (first.faults clear)⟩

/-- Nothing in flight is given up. -/
theorem Ages.still {w w' : World} (pending : w'.manager.pending = w.manager.pending)
    (inbound : w'.manager.pendingInbound = w.manager.pendingInbound)
    (draws : w'.env.draws = w.env.draws)
    (faults : w'.env.faults = w.env.faults ∨ w'.env.faults = w.env.faults.tail) : Ages w w' := by
  refine ⟨fun e member => pending ▸ member, fun e member => inbound ▸ member, draws.ge, ?_⟩
  intro clear
  rcases faults with same | ticked
  · exact same.trans clear
  · rw [ticked, clear, List.tail_nil]

theorem Ages.refl (w : World) : Ages w w := .still rfl rfl rfl (Or.inl rfl)

instance : IsPreorder World Ages where
  refl := Ages.refl
  trans _ _ _ first second :=
    ⟨fun e member => first.pending e (second.pending e member),
      fun e member => first.inbound e (second.inbound e member), first.draws.trans second.draws,
      fun clear => second.faults (first.faults clear)⟩

instance : IsPreorder World Quiet where
  refl w := ⟨Ages.refl w, rfl⟩
  trans _ _ _ first second :=
    ⟨trans_of Ages first.toAges second.toAges, second.core.trans first.core⟩

theorem Reads.quiet {w w' : World} (reads : Reads w w') : Quiet w w' where
  pending e member := by rwa [reads.manager] at member
  inbound e member := by rwa [reads.manager] at member
  draws := reads.draws.ge
  faults := reads.faults
  core := by simp only [World.core, reads.manager, reads.ledger]

/-- What an operation may write into the keyring it finds: the trusted sessions it may install
and the placeholders, the status changes, the recipients, the consumed nonces, the peers, the
requests it may leave for the user, and whether it may drop sessions, move peers, set the
networks or the faults to come. -/
structure License where
  install : Keyring → IncomingSession → Prop
  placeholder : Keyring → IncomingSession → Prop
  status : Keyring → Str → Str → TrustStatus → Prop
  record : Str → Str → Prop
  seen : SeenRekey → Prop
  upsert : Keyring → PeerRecord → Prop
  request : Keyring → Str → Str → KeyReq → Prop
  drops : Prop
  moves : Prop
  networks : Prop
  faults : Prop

def License.nothing : License :=
  { install := fun _ _ => False
    placeholder := fun _ _ => False
    status := fun _ _ _ _ => False
    record := fun _ _ => False
    seen := fun _ => False
    upsert := fun _ _ => False
    request := fun _ _ _ _ => False
    drops := False
    moves := False
    networks := False
    faults := False }

/-- A stored outgoing key a message for the wire context can carry. -/
def Stored (w : World) (sk : SessionKey) (context : Str → Prop) : Prop :=
  ∃ row ∈ w.manager.keyring.outgoing, row.sk = sk ∧ context row.channel

/-- The ephemeral key and the nonces of a message of ours are drawn for it. -/
structure Minted (P : Platform) (ephPub wrapNonce nonce : Bytes) : Prop where
  ephPub : ∃ secret, ephPub = P.xPublic secret
  wrapNonce : ∃ n, wrapNonce = P.random n nonceLen
  nonce : ∃ n, nonce = P.random n 16

inductive Effect (P : Platform) (L : License) : World → World → Prop
  | quiet {w w' : World} (quiet : Quiet w w') : Effect P L w w'
  | opened {w w' : World} (channel : Str) (peer : Option Str) (nonce : Bytes) (n : Nat) (t : Int)
      (fresh : w.env.draws ≤ n) (used : n < w'.env.draws)
      (pending : ∀ e ∈ w'.manager.pending, e ∈ w.manager.pending ∨
        e = ((channel, nonce), ⟨channel, peer, P.random n 32, t⟩))
      (inbound : ∀ e ∈ w'.manager.pendingInbound, e ∈ w.manager.pendingInbound)
      (faults : w.env.faults = [] → w'.env.faults = [])
      (core : w'.core = w.core) : Effect P L w w'
  | requested {w w' : World} (handle channel : Str) (entry : PendingInboundKeyReq)
      (licensed : L.request w.manager.keyring handle channel entry.req)
      (inbound : ∀ e ∈ w'.manager.pendingInbound, e ∈ w.manager.pendingInbound ∨
        e = ((handle, channel), entry))
      (pending : ∀ e ∈ w'.manager.pending, e ∈ w.manager.pending)
      (draws : w.env.draws ≤ w'.env.draws) (faults : w.env.faults = [] → w'.env.faults = [])
      (core : w'.core = w.core) : Effect P L w w'
  | rescheduled {w w' : World} (licensed : L.faults) (manager : w'.manager = w.manager)
      (draws : w'.env.draws = w.env.draws) (core : w'.core = w.core) : Effect P L w w'
  | upserted {w w' : World} (rec : PeerRecord) (licensed : L.upsert w.manager.keyring rec)
      (ages : Ages w w') (core : w'.core =
        { w.core with peers := (w.manager.keyring.upsertPeer rec).peers }) : Effect P L w w'
  | peersMoved {w w' : World} (peers : Table PeerRecord.fingerprint) (licensed : L.moves)
      (ages : Ages w w') (core : w'.core = { w.core with peers := peers }) : Effect P L w w'
  | signedReq {w w' : World} (req : KeyReq) (ages : Ages w w')
      (core : w'.core = { w.core with signed := w.core.signed ++ [.req req] }) : Effect P L w w'
  | signedRsp {w w' : World} (rsp : KeyRsp) (channel : Str) (sk wrapKey info : Bytes)
      (wire : rsp.channel = wireContext channel) (own : rsp.pubkey = P.verifyingKey w.core.identity)
      (minted : Minted P rsp.ephemeralPub rsp.wrapNonce rsp.nonce)
      (wraps : P.aeadEncrypt wrapKey rsp.wrapNonce info sk = .ok rsp.wrapCt)
      (stored : Stored w sk fun c => c = channel ∨ c = wireContext channel) (ages : Ages w w')
      (core : w'.core = { w.core with signed := w.core.signed ++ [.rsp rsp] }) : Effect P L w w'
  | signedRekey {w w' : World} (rekey : KeyRekey) (channel : Str) (sk wrapKey info : Bytes)
      (wire : rekey.channel = wireContext channel)
      (own : rekey.pubkey = P.verifyingKey w.core.identity)
      (minted : Minted P rekey.ephPub rekey.wrapNonce rekey.nonce)
      (wraps : P.aeadEncrypt wrapKey rekey.wrapNonce info sk = .ok rekey.wrapCt)
      (stored : Stored w sk fun c => c = channel) (ages : Ages w w')
      (core : w'.core = { w.core with signed := w.core.signed ++ [.rekey rekey] }) :
      Effect P L w w'
  | generated {w w' : World} (channel : Str) (n : Nat) (ages : Ages w w')
      (core : w'.core =
        { w.core with generated := w.core.generated ++ [(channel, P.random n keyLen)] }) :
      Effect P L w w'
  | stored {w w' : World} (channel : Str) (sk : SessionKey) (t : Int)
      (known : (channel, sk) ∈ w.core.generated) (ages : Ages w w')
      (core : w'.core =
        { w.core with outgoing := w.core.outgoing.replace ⟨channel, sk, t, false⟩ }) :
      Effect P L w w'
  | flagged {w w' : World} (flag : Bool) (channel : Str) (ages : Ages w w')
      (core : w'.core = { w.core with
        outgoing := (w.manager.keyring.setPendingRotation flag channel).outgoing }) :
      Effect P L w w'
  | recorded {w w' : World} (channel handle : Str) (fp : Fingerprint) (t : Int)
      (licensed : L.record handle channel) (ages : Ages w w')
      (core : w'.core = { w.core with
        recipients := (w.manager.keyring.recordOutgoingRecipient channel handle fp t).recipients }) :
      Effect P L w w'
  | recipientsDropped {w w' : World} (recipients : Table OutgoingRecipient.key)
      (fewer : ∀ r ∈ recipients, r ∈ w.core.recipients) (ages : Ages w w')
      (core : w'.core = { w.core with recipients := recipients }) : Effect P L w w'
  | installed {w w' : World} (now : Int) (s : IncomingSession) (kr : Keyring)
      (licensed : L.install w.manager.keyring s ∨ L.placeholder w.manager.keyring s)
      (strict : w.manager.keyring.installIncomingSessionStrict now s = .ok kr) (ages : Ages w w')
      (core : w'.core = { w.core with incoming := kr.incoming }) : Effect P L w w'
  | status {w w' : World} (handle channel : Str) (status : TrustStatus)
      (licensed : L.status w.manager.keyring handle channel status) (ages : Ages w w')
      (core : w'.core = { w.core with
        incoming := (w.manager.keyring.updateIncomingStatus handle channel status).incoming }) :
      Effect P L w w'
  | sessionsDropped {w w' : World} (incoming : Table IncomingRow.key) (licensed : L.drops)
      (fewer : ∀ row ∈ incoming, row ∈ w.core.incoming) (ages : Ages w w')
      (core : w'.core = { w.core with incoming := incoming }) : Effect P L w w'
  | seen {w w' : World} (row : SeenRekey) (licensed : L.seen row) (ages : Ages w w')
      (core : w'.core = { w.core with seenRekeys := w.core.seenRekeys.insertOrIgnore row }) :
      Effect P L w w'
  | networks {w w' : World} (networks : Table (id : Str → Str)) (licensed : L.networks)
      (ages : Ages w w') (core : w'.core = { w.core with networks := networks }) : Effect P L w w'

/-- Any number of writes, one after the other. -/
abbrev Effects (P : Platform) (L : License) : World → World → Prop :=
  Relation.ReflTransGen (Effect P L)

variable {P : Platform} {L : License} {w : World}

theorem Quiet.effects {w w' : World} (quiet : Quiet w w') : Effects P L w w' :=
  .single (.quiet quiet)

theorem Reads.effects {w w' : World} (reads : Reads w w') : Effects P L w w' :=
  reads.quiet.effects

section Inversion

variable {w' : World}

/-- What a write can do to the session rows. -/
theorem Effect.incoming_cases (effect : Effect P L w w') :
    w'.core.incoming = w.core.incoming ∨
      (∃ now s kr, (L.install w.manager.keyring s ∨ L.placeholder w.manager.keyring s) ∧
        w.manager.keyring.installIncomingSessionStrict now s = .ok kr ∧
          w'.core.incoming = kr.incoming) ∨
      (∃ handle channel status, L.status w.manager.keyring handle channel status ∧
        w'.core.incoming =
          (w.manager.keyring.updateIncomingStatus handle channel status).incoming) ∨
      (L.drops ∧ ∀ row ∈ w'.core.incoming, row ∈ w.core.incoming) := by
  cases effect with
  | quiet quiet => exact Or.inl (congrArg Core.incoming quiet.core)
  | installed now s kr licensed strict ages core =>
      exact Or.inr (Or.inl ⟨now, s, kr, licensed, strict, congrArg Core.incoming core⟩)
  | status handle channel status licensed ages core =>
      exact Or.inr (Or.inr (Or.inl ⟨handle, channel, status, licensed, congrArg Core.incoming core⟩))
  | sessionsDropped incoming licensed fewer ages core =>
      refine Or.inr (Or.inr (Or.inr ⟨licensed, ?_⟩))
      rw [core]
      exact fewer
  | _ =>
      rename_i core
      refine Or.inl ?_
      rw [core]

/-- What a write can do to the recipients of our keys. -/
theorem Effect.recipients_cases (effect : Effect P L w w') :
    (∀ r ∈ w'.core.recipients, r ∈ w.core.recipients) ∨
      ∃ channel handle fp t, L.record handle channel ∧ w'.core.recipients =
        (w.manager.keyring.recordOutgoingRecipient channel handle fp t).recipients := by
  cases effect with
  | quiet quiet => exact Or.inl fun r member => by rwa [quiet.core] at member
  | recorded channel handle fp t licensed ages core =>
      exact Or.inr ⟨channel, handle, fp, t, licensed, congrArg Core.recipients core⟩
  | recipientsDropped recipients fewer ages core =>
      refine Or.inl ?_
      rw [core]
      exact fewer
  | _ =>
      rename_i core
      exact Or.inl fun r member => by rwa [core] at member

/-- What a write can do to the peers. -/
theorem Effect.peers_cases (effect : Effect P L w w') :
    w'.core.peers = w.core.peers ∨
      (∃ rec, L.upsert w.manager.keyring rec ∧
        w'.core.peers = (w.manager.keyring.upsertPeer rec).peers) ∨ L.moves := by
  cases effect with
  | quiet quiet => exact Or.inl (congrArg Core.peers quiet.core)
  | upserted rec licensed ages core =>
      exact Or.inr (Or.inl ⟨rec, licensed, congrArg Core.peers core⟩)
  | peersMoved peers licensed ages core => exact Or.inr (Or.inr licensed)
  | _ =>
      rename_i core
      refine Or.inl ?_
      rw [core]

/-- What a write can do to the requests that wait for the user. -/
theorem Effect.inbound_cases (effect : Effect P L w w') :
    (∀ e ∈ w'.manager.pendingInbound, e ∈ w.manager.pendingInbound) ∨
      ∃ handle channel entry, L.request w.manager.keyring handle channel entry.req ∧
        (∀ e ∈ w'.manager.pendingInbound, e ∈ w.manager.pendingInbound ∨
          e = ((handle, channel), entry)) ∧ w'.core = w.core := by
  cases effect with
  | quiet quiet => exact Or.inl quiet.inbound
  | opened _ _ _ _ _ _ _ _ inbound _ _ => exact Or.inl inbound
  | requested handle channel entry licensed inbound _ _ _ core =>
      exact Or.inr ⟨handle, channel, entry, licensed, inbound, core⟩
  | rescheduled licensed manager draws core => exact Or.inl fun e member => manager ▸ member
  | _ =>
      rename_i ages _
      exact Or.inl ages.inbound

theorem Effect.faults_clear (effect : Effect P L w w') (kept : ¬L.faults)
    (clear : w.env.faults = []) : w'.env.faults = [] := by
  cases effect with
  | quiet quiet => exact quiet.faults clear
  | opened _ _ _ _ _ _ _ _ _ faults _ => exact faults clear
  | requested _ _ _ _ _ _ _ faults _ => exact faults clear
  | rescheduled licensed => exact absurd licensed kept
  | _ =>
      rename_i ages _
      exact ages.faults clear

theorem Effects.faults_clear (effects : Effects P L w w') (kept : ¬L.faults)
    (clear : w.env.faults = []) : w'.env.faults = [] := by
  induction effects with
  | refl => exact clear
  | tail _ effect ih => exact effect.faults_clear kept ih

/-- A consumed nonce stays on record. -/
theorem Effect.seen_mono (effect : Effect P L w w') (row : SeenRekey)
    (held : row ∈ w.core.seenRekeys) : row ∈ w'.core.seenRekeys := by
  cases effect with
  | quiet quiet => exact quiet.core ▸ held
  | seen added licensed ages core =>
      rw [core]
      exact (Table.mem_insertOrIgnore _ _ _).mpr (Or.inl held)
  | _ =>
      rename_i core
      rw [core]
      exact held

theorem Effects.seen_mono (effects : Effects P L w w') (row : SeenRekey)
    (held : row ∈ w.core.seenRekeys) : row ∈ w'.core.seenRekeys := by
  induction effects with
  | refl => exact held
  | tail _ effect ih => exact effect.seen_mono row ih

end Inversion

theorem tick_reads (w : World) : Reads w w.tick :=
  ⟨rfl, rfl, rfl, rfl, fun clear => congrArg List.tail clear⟩

section Rules

variable {α : Type} {R : World → World → Prop} {Post : α → World → Prop}

theorem ensures_transact (f : Env → Keyring → Except E2eError (α × Keyring)) (idle : R w w.tick)
    (answer : ∀ a kr, f w.env w.manager.keyring = .ok (a, kr) →
      R w (w.tick.setKeyring kr) ∧ Post a (w.tick.setKeyring kr)) :
    Prog.Ensures R w (transact f) Post := by
  unfold Prog.Ensures Prog.After transact
  split
  · rename_i outcome
    split at outcome
    · simp at outcome
    · split at outcome
      · rename_i found
        simp only [Prod.mk.injEq, Except.ok.injEq] at outcome
        obtain ⟨rfl, rfl⟩ := outcome
        exact answer _ _ found
      · simp at outcome
  · rename_i outcome
    split at outcome
    · simp only [Prod.mk.injEq] at outcome
      exact outcome.2 ▸ idle
    · split at outcome
      · simp at outcome
      · simp only [Prod.mk.injEq] at outcome
        exact outcome.2 ▸ idle

theorem ensures_query (f : Keyring → α) (idle : R w w.tick)
    (post : Post (f w.manager.keyring) w.tick) : Prog.Ensures R w (query f) Post := by
  refine ensures_transact _ idle fun a kr answer => ?_
  cases answer
  exact ⟨idle, post⟩

theorem ensures_execute (f : Keyring → Keyring) {Post : Unit → World → Prop} (idle : R w w.tick)
    (write : R w (w.tick.setKeyring (f w.manager.keyring)))
    (post : Post () (w.tick.setKeyring (f w.manager.keyring))) :
    Prog.Ensures R w (execute f) Post := by
  refine ensures_transact _ idle fun a kr answer => ?_
  cases answer
  exact ⟨write, post⟩

theorem ensures_executeGet (f : Keyring → α × Keyring) (idle : R w w.tick)
    (write : R w (w.tick.setKeyring (f w.manager.keyring).2))
    (post : Post (f w.manager.keyring).1 (w.tick.setKeyring (f w.manager.keyring).2)) :
    Prog.Ensures R w (executeGet f) Post := by
  refine ensures_transact _ idle fun a kr answer => ?_
  simp only [Except.ok.injEq] at answer
  rw [answer] at write post
  exact ⟨write, post⟩

theorem query_reads (f : Keyring → α) :
    Prog.Ensures Reads w (query f) fun a _ => a = f w.manager.keyring :=
  ensures_query f (tick_reads w) rfl

theorem query_effects (f : Keyring → α) :
    Prog.Ensures (Effects P L) w (query f) fun a w' => a = f w.manager.keyring ∧ Reads w w' :=
  ensures_query f (tick_reads w).effects ⟨rfl, tick_reads w⟩

theorem draw_quiet (length : Nat) : Prog.Ensures Quiet w (draw P length) fun a w' =>
    a = P.random w.env.draws length ∧ w'.manager = w.manager ∧ w'.ledger = w.ledger ∧
      w'.env.draws = w.env.draws + 1 := by
  refine Prog.ensures_update _ ⟨⟨?_, ?_, ?_, ?_⟩, rfl⟩ ⟨rfl, rfl, rfl, rfl⟩
  · exact fun _ member => member
  · exact fun _ member => member
  · exact Nat.le_succ _
  · exact fun clear => clear

theorem aeadSeal_quiet (key aad plaintext : Bytes) :
    Prog.Ensures Quiet w (aeadSeal P key aad plaintext) fun a _ =>
      P.aeadEncrypt key a.1 aad plaintext = .ok a.2 ∧ ∃ n, a.1 = P.random n nonceLen := by
  unfold aeadSeal
  refine (draw_quiet nonceLen).bind fun nonce w' _ drawn => ?_
  refine Prog.ensures_lift_bind _ fun ct outcome => Prog.ensures_pure _ ⟨?_, _, drawn.1⟩
  exact (mapError_eq_ok _ _ _).mp outcome

end Rules

section Reliable

variable {α : Type} {Q : α → World → Prop} {E : E2eError → World → Prop}

theorem tick_reliable (clear : w.env.faults = []) : w.tick = w := by
  have same : w.env.faults.tail = w.env.faults := by rw [clear, List.tail_nil]
  unfold World.tick
  rw [same]

/-- Where no fault is to come, a keyring call answers. -/
theorem transact_reliable (f : Env → Keyring → Except E2eError (α × Keyring))
    (clear : w.env.faults = []) :
    transact f w = match f w.env w.manager.keyring with
      | .ok (a, kr) => (.ok a, w.setKeyring kr)
      | .error e => (.error e, w) := by
  cases outcome : f w.env w.manager.keyring with
  | ok answer => simp [transact, clear, tick_reliable clear, outcome]
  | error e => simp [transact, clear, tick_reliable clear, outcome]

theorem after_query (f : Keyring → α) (clear : w.env.faults = [])
    (post : Q (f w.manager.keyring) w) : Prog.After w (query f) Q E := by
  unfold Prog.After query
  rwa [transact_reliable _ clear]

theorem after_execute (f : Keyring → Keyring) {Q : Unit → World → Prop}
    (clear : w.env.faults = []) (post : Q () (w.setKeyring (f w.manager.keyring))) :
    Prog.After w (execute f) Q E := by
  unfold Prog.After execute
  rwa [transact_reliable _ clear]

theorem after_executeGet (f : Keyring → α × Keyring) (clear : w.env.faults = [])
    (post : Q (f w.manager.keyring).1 (w.setKeyring (f w.manager.keyring).2)) :
    Prog.After w (executeGet f) Q E := by
  unfold Prog.After executeGet
  rwa [transact_reliable _ clear]

end Reliable

end Repartee.E2e
