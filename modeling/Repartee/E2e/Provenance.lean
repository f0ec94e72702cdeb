import Repartee.E2e.Symbolic
import Repartee.E2e.Writes.Ops

/-!
Several clients and an adversary who carries every message between them: which keys a client can
come to hold under the identity of another.
-/

namespace Repartee.E2e

open Text Lib

section Honest

/-- The envelope wraps a key its signer generated, for a context that stands in the scope. -/
structure Wraps (P : Platform) (core : Core) (scope : Str → Str → Prop) (e : Envelope) : Prop where
  own : e.pubkey = P.verifyingKey core.identity
  minted : Minted P e.ephPub e.wrapNonce e.nonce
  wraps : ∃ context filed sk, e.channel = wireContext context ∧ scope context filed ∧
    (filed, sk) ∈ core.generated ∧ ∃ key info, P.aeadEncrypt key e.wrapNonce info sk = .ok e.wrapCt

def Carries (P : Platform) (core : Core) : HandshakeMsg → Prop
  | .req _ => True
  | .rsp m => Wraps P core Covers m.envelope
  | .rekey m => Wraps P core (fun context filed => filed = context) m.envelope

/-- What a client's own code keeps true of its keys and of what it signs, whatever reaches it. -/
structure Honest (P : Platform) (core : Core) : Prop where
  drawn : ∀ e ∈ core.generated, ∃ n, e.2 = P.random n keyLen
  outgoing : ∀ row ∈ core.outgoing, (row.channel, row.sk) ∈ core.generated
  signed : ∀ msg ∈ core.signed, Carries P core msg

variable {P : Platform} {L : License} {w w' : World}

theorem Wraps.mono {core core' : Core} {scope : Str → Str → Prop} {e : Envelope}
    (wraps : Wraps P core scope e) (identity : core'.identity = core.identity)
    (generated : ∀ k ∈ core.generated, k ∈ core'.generated) : Wraps P core' scope e := by
  obtain ⟨own, minted, context, filed, sk, wire, filedIn, known, sealed⟩ := wraps
  exact ⟨identity ▸ own, minted, context, filed, sk, wire, filedIn, generated _ known, sealed⟩

theorem Carries.mono {core core' : Core} (msg : HandshakeMsg) (carries : Carries P core msg)
    (identity : core'.identity = core.identity)
    (generated : ∀ k ∈ core.generated, k ∈ core'.generated) : Carries P core' msg := by
  cases msg with
  | req m => trivial
  | rsp m => exact Wraps.mono carries identity generated
  | rekey m => exact Wraps.mono carries identity generated

theorem Honest.sign {core : Core} (honest : Honest P core) (msg : HandshakeMsg)
    (carries : Carries P core msg) : Honest P { core with signed := core.signed ++ [msg] } := by
  refine ⟨honest.drawn, honest.outgoing, fun m member => ?_⟩
  have held : Carries P core m := by
    rcases List.mem_append.mp member with old | new
    · exact honest.signed m old
    · rw [List.mem_singleton.mp new]
      exact carries
  exact held.mono m rfl fun _ known => known

theorem Honest.generate {core : Core} (honest : Honest P core) (channel : Str) (n : Nat) :
    Honest P { core with generated := core.generated ++ [(channel, P.random n keyLen)] } := by
  refine ⟨fun e member => ?_, fun row member => ?_, fun msg member => ?_⟩
  · rcases List.mem_append.mp member with old | new
    · exact honest.drawn e old
    · rw [List.mem_singleton.mp new]
      exact ⟨n, rfl⟩
  · exact List.mem_append_left _ (honest.outgoing row member)
  · exact (honest.signed msg member).mono msg rfl fun _ known => List.mem_append_left _ known

theorem Honest.keep {core core' : Core} (honest : Honest P core)
    (identity : core'.identity = core.identity) (generated : core'.generated = core.generated)
    (signed : core'.signed = core.signed)
    (outgoing : ∀ row ∈ core'.outgoing, (row.channel, row.sk) ∈ core.generated) :
    Honest P core' := by
  refine ⟨?_, ?_, fun msg member => ?_⟩
  · rw [generated]
    exact honest.drawn
  · rw [generated]
    exact outgoing
  · rw [signed] at member
    exact (honest.signed msg member).mono msg identity fun _ known => generated ▸ known

theorem Stored.generated (honest : Honest P w.core) (sk : SessionKey) (context : Str → Prop)
    (stored : Stored w sk context) : ∃ filed, (filed, sk) ∈ w.core.generated ∧ context filed := by
  obtain ⟨row, member, rfl, here⟩ := stored
  exact ⟨row.channel, honest.outgoing row member, here⟩

theorem Effect.honest (effect : Effect P L w w') (honest : Honest P w.core) : Honest P w'.core := by
  cases effect with
  | quiet quiet => exact quiet.core ▸ honest
  | signedReq req ages core =>
      rw [core]
      exact honest.sign (.req req) trivial
  | signedRsp rsp channel sk wrapKey info wire own minted wraps stored ages core =>
      rw [core]
      obtain ⟨filed, known, covered⟩ := stored.generated honest
      exact honest.sign (.rsp rsp)
        ⟨own, minted, channel, filed, sk, wire, covered, known, wrapKey, info, wraps⟩
  | signedRekey rekey channel sk wrapKey info wire own minted wraps stored ages core =>
      rw [core]
      obtain ⟨filed, known, same⟩ := stored.generated honest
      exact honest.sign (.rekey rekey)
        ⟨own, minted, channel, filed, sk, wire, same, known, wrapKey, info, wraps⟩
  | generated channel n ages core =>
      rw [core]
      exact honest.generate channel n
  | stored channel sk t known ages core =>
      rw [core]
      refine honest.keep rfl rfl rfl fun row member => ?_
      rcases (Table.mem_replace _ _ _).mp member with ⟨old, -⟩ | rfl
      · exact honest.outgoing row old
      · exact known
  | flagged flag channel ages core =>
      rw [core]
      refine honest.keep rfl rfl rfl fun row member => ?_
      obtain ⟨old, held, rfl⟩ := (Keyring.mem_setPendingRotation _ _ _ _).mp member
      rw [OutgoingSession.flag_channel, OutgoingSession.flag_sk]
      exact honest.outgoing old held
  | _ =>
      rename_i core
      rw [core]
      exact honest.keep rfl rfl rfl honest.outgoing

theorem Effects.honest (effects : Effects P L w w') (honest : Honest P w.core) :
    Honest P w'.core := by
  induction effects with
  | refl => exact honest
  | tail _ effect ih => exact effect.honest ih

theorem fresh_honest (identity : Bytes) (tolerance : Int) :
    Honest P (World.fresh identity tolerance).core :=
  ⟨fun _ member => absurd member List.not_mem_nil,
    fun row member => absurd member (Table.not_mem_empty row),
    fun _ member => absurd member List.not_mem_nil⟩

end Honest

section Network

variable {ι : Type} [DecidableEq ι]

/-- One client acts. What it receives is the adversary's choice: anything it has seen before,
anywhere, any number of times, or anything it makes up. -/
def netStep (P : Platform) (net : ι → World) (step : ι × Op) : ι → World :=
  Function.update net step.1 (exec P (net step.1) step.2)

/-- The key, the signed bytes and the signature a delivered message is checked by. -/
def Op.signature : Op → Option (Bytes × Bytes × Bytes)
  | .keyreq _ _ m => some (m.pubkey,
      signedKeyreqPayload (wireContext m.channel) m.pubkey m.ephX25519 m.nonce, m.sig)
  | .keyrsp _ m => some (m.pubkey, signedKeyrspPayload (wireContext m.channel) m.pubkey
      m.ephemeralPub m.wrapNonce m.wrapCt m.nonce, m.sig)
  | .rekey _ m => some (m.pubkey, signedKeyrekeyPayload (wireContext m.channel) m.pubkey m.ephPub
      m.wrapNonce m.wrapCt m.nonce, m.sig)
  | _ => none

/-- The fixed-length fields of a delivered message are what its parser leaves. -/
def Op.WellFormed : Op → Prop
  | .keyrsp _ m => m.envelope.WellFormed
  | .rekey _ m => m.envelope.WellFormed
  | _ => True

/-- What the adversary cannot do: bring a signature that verifies under a key with the
fingerprint of a client, on bytes that client has not signed. -/
def Unforged (P : Platform) (net : ι → World) (step : ι × Op) : Prop :=
  step.2.WellFormed ∧ ∀ pubkey payload sig, step.2.signature = some (pubkey, payload, sig) →
    verify P pubkey payload sig = .ok () → ∀ b,
      fingerprint P pubkey = fingerprint P (P.verifyingKey (net b).manager.identity) →
        ∃ msg ∈ (net b).ledger.signed, msg.payload = payload

/-- The row an accepted message installs its session in. -/
def Op.installs : Op → Option (Str × Str)
  | .keyrsp handle m => some (handle, m.channel)
  | .rekey handle m => some (handle, m.channel)
  | _ => none

/-- The condition on a response: its wire name does not itself look like a scoped context. A rekey
needs none. -/
def PlainResponse : Op → Prop
  | .keyrsp _ m => contextNetSeparator ∉ wireContext m.channel
  | _ => True

variable {P : Platform} {net : ι → World}

theorem netStep_honest (step : ι × Op) (honest : ∀ i, Honest P (net i).core) :
    ∀ i, Honest P (netStep P net step i).core := by
  intro i
  unfold netStep
  by_cases here : i = step.1
  · rw [here, Function.update_self]
    exact (exec_effects P (net step.1) step.2).honest (honest step.1)
  · rw [Function.update_of_ne here]
    exact honest i

theorem runFrom_honest (steps : List (ι × Op)) (honest : ∀ i, Honest P (net i).core) :
    ∀ i, Honest P (runFrom (netStep P) net steps i).core :=
  runFrom_invariant (fun net => ∀ i, Honest P (net i).core)
    (fun _ step held => netStep_honest step held) net steps honest

theorem unwrapKeyrsp_opened (rsp : KeyRsp) (secret : Bytes) (sk : SessionKey)
    (unwraps : unwrapKeyrsp P rsp secret = some sk) :
    ∃ key info, P.aeadDecrypt key rsp.wrapNonce info rsp.wrapCt = .ok sk ∧ sk.length = keyLen := by
  unfold unwrapKeyrsp decrypt at unwraps
  simp only at unwraps
  split at unwraps
  · rename_i text opened
    split at unwraps
    · rename_i length
      cases unwraps
      exact ⟨_, _, (mapError_eq_ok _ _ _).mp opened, length⟩
    · cases unwraps
  · cases unwraps

theorem unwrapRekey_opened (identity : Bytes) (rekey : KeyRekey) (sk : SessionKey)
    (unwraps : unwrapRekey P identity rekey = .ok sk) :
    ∃ key info, P.aeadDecrypt key rekey.wrapNonce info rekey.wrapCt = .ok sk ∧
      sk.length = keyLen := by
  unfold unwrapRekey decrypt at unwraps
  simp only at unwraps
  split at unwraps
  · cases unwraps
  · rename_i text opened
    split at unwraps
    · rename_i length
      cases unwraps
      exact ⟨_, _, (mapError_eq_ok _ _ _).mp opened, length⟩
    · cases unwraps

/-- An envelope with the payload of one that wraps a key of ours, and which opens, opens to that
key. -/
theorem Wraps.opened {core : Core} {scope : Str → Str → Prop} (kind : Str) (mine seen : Envelope)
    (sized : P.Sized) (authenticates : P.Authenticates) (honest : Honest P core)
    (wraps : Wraps P core scope mine) (formed : seen.WellFormed)
    (same : utf8 kind ++ utf8 mine.channel ++ [colon] ++ mine.pubkey ++ [colon] ++ mine.ephPub ++
        [colon] ++ mine.wrapNonce ++ [colon] ++ mine.wrapCt ++ [colon] ++ mine.nonce =
      utf8 kind ++ utf8 seen.channel ++ [colon] ++ seen.pubkey ++ [colon] ++ seen.ephPub ++
        [colon] ++ seen.wrapNonce ++ [colon] ++ seen.wrapCt ++ [colon] ++ seen.nonce)
    (key info : Bytes) (sk : SessionKey)
    (opens : P.aeadDecrypt key seen.wrapNonce info seen.wrapCt = .ok sk)
    (length : sk.length = keyLen) :
    ∃ context filed, seen.channel = wireContext context ∧ scope context filed ∧
      (filed, sk) ∈ core.generated := by
  obtain ⟨own, ⟨⟨secret, ephPub⟩, ⟨n, wrapNonce⟩, ⟨k, nonce⟩⟩, context, filed, sk', wire, covered,
    known, key', info', sealed⟩ := wraps
  obtain ⟨d, (drawn : sk' = P.random d keyLen)⟩ := honest.drawn _ known
  have mineFormed : mine.WellFormed :=
    ⟨own ▸ sized.verifyingKey _, ephPub ▸ sized.xPublic _, wrapNonce ▸ sized.random _ _,
      nonce ▸ sized.random _ _⟩
  have wrapped : mine.wrapCt.length = seen.wrapCt.length := by
    rw [sized.sealed sealed, sized.opened opens, length, drawn, sized.random]
  have equal : mine = seen := payload_inj kind mine seen mineFormed formed wrapped same
  subst equal
  have keys : sk = sk' := authenticates sealed opens
  exact ⟨context, filed, wire, covered, keys ▸ known⟩

theorem Honest.signed_response {core : Core} (honest : Honest P core) (e : Envelope)
    (signed : ∃ msg ∈ core.signed, msg.payload = signedKeyrspPayload e.channel e.pubkey e.ephPub
      e.wrapNonce e.wrapCt e.nonce) :
    ∃ m : KeyRsp, Wraps P core Covers m.envelope ∧
      (HandshakeMsg.rsp m).payload = signedKeyrspPayload e.channel e.pubkey e.ephPub
        e.wrapNonce e.wrapCt e.nonce := by
  obtain ⟨msg, member, same⟩ := signed
  cases msg with
  | rsp m => exact ⟨m, honest.signed _ member, same⟩
  | req m =>
      simp only [HandshakeMsg.payload, signedKeyreqPayload, signedKeyrspPayload,
        List.append_assoc] at same
      exact absurd same.symm (kinds_differ _ _).1
  | rekey m =>
      simp only [HandshakeMsg.payload, signedKeyrekeyPayload, signedKeyrspPayload,
        List.append_assoc] at same
      exact absurd same.symm (kinds_differ _ _).2.1

theorem Honest.signed_rekey {core : Core} (honest : Honest P core) (e : Envelope)
    (signed : ∃ msg ∈ core.signed, msg.payload = signedKeyrekeyPayload e.channel e.pubkey e.ephPub
      e.wrapNonce e.wrapCt e.nonce) :
    ∃ m : KeyRekey, Wraps P core (fun context filed => filed = context) m.envelope ∧
      (HandshakeMsg.rekey m).payload = signedKeyrekeyPayload e.channel e.pubkey e.ephPub
        e.wrapNonce e.wrapCt e.nonce := by
  obtain ⟨msg, member, same⟩ := signed
  cases msg with
  | rekey m => exact ⟨m, honest.signed _ member, same⟩
  | req m =>
      simp only [HandshakeMsg.payload, signedKeyreqPayload, signedKeyrekeyPayload,
        List.append_assoc] at same
      exact absurd same.symm (kinds_differ _ _).2.2
  | rsp m =>
      simp only [HandshakeMsg.payload, signedKeyrspPayload, signedKeyrekeyPayload,
        List.append_assoc] at same
      exact absurd same (kinds_differ _ _).2.1

omit [DecidableEq ι] in
theorem answered_generated (a b : ι) (handle : Str) (m : KeyRsp) (sk : SessionKey)
    (sized : P.Sized) (authenticates : P.Authenticates) (honest : Honest P (net b).core)
    (unforged : Unforged P net (a, .keyrsp handle m))
    (plain : contextNetSeparator ∉ wireContext m.channel)
    (answered : Answered P (net a) handle m sk)
    (peer : fingerprint P m.pubkey = fingerprint P (P.verifyingKey (net b).manager.identity)) :
    ∃ filed, (filed, sk) ∈ (net b).ledger.generated ∧
      wireContext filed = wireContext m.channel := by
  obtain ⟨formed, authored⟩ := unforged
  let seen : Envelope := { m.envelope with channel := wireContext m.channel }
  obtain ⟨mine, wraps, same⟩ := honest.signed_response seen
    (authored m.pubkey _ m.sig rfl answered.authentic b peer)
  obtain ⟨entry, -, -, unwraps⟩ := answered.opens
  obtain ⟨key, info, opens, length⟩ := unwrapKeyrsp_opened m _ sk unwraps
  have seenFormed : seen.WellFormed := ⟨formed.pubkey, formed.ephPub, formed.wrapNonce, formed.nonce⟩
  obtain ⟨context, filed, wire, covers, known⟩ := wraps.opened "KEYRSP:".toList mine.envelope seen
    sized authenticates honest seenFormed same key info sk opens length
  have wireIs : wireContext m.channel = wireContext context := wire
  refine ⟨filed, known, ?_⟩
  rw [wireIs] at plain ⊢
  exact covers.wireContext_eq context filed plain

omit [DecidableEq ι] in
theorem rekeyed_generated (a b : ι) (handle : Str) (m : KeyRekey) (sk : SessionKey)
    (sized : P.Sized) (authenticates : P.Authenticates) (honest : Honest P (net b).core)
    (unforged : Unforged P net (a, .rekey handle m)) (rekeyed : Rekeyed P (net a) handle m sk)
    (peer : fingerprint P m.pubkey = fingerprint P (P.verifyingKey (net b).manager.identity)) :
    ∃ filed, (filed, sk) ∈ (net b).ledger.generated ∧
      wireContext filed = wireContext m.channel := by
  obtain ⟨formed, authored⟩ := unforged
  let seen : Envelope := { m.envelope with channel := wireContext m.channel }
  obtain ⟨mine, wraps, same⟩ := honest.signed_rekey seen
    (authored m.pubkey _ m.sig rfl rekeyed.authentic b peer)
  obtain ⟨key, info, opens, length⟩ := unwrapRekey_opened _ m sk rekeyed.unwraps
  have seenFormed : seen.WellFormed := ⟨formed.pubkey, formed.ephPub, formed.wrapNonce, formed.nonce⟩
  obtain ⟨context, filed, wire, rfl, known⟩ := wraps.opened "REKEY:".toList mine.envelope seen
    sized authenticates honest seenFormed same key info sk opens length
  exact ⟨filed, known, wire.symm⟩

/-- The states the clients can reach together, from empty keyrings. -/
def Reachable (P : Platform) (net : ι → World) : Prop :=
  ∃ (identity : ι → Bytes) (tolerance : ι → Int) (steps : List (ι × Op)),
    net = runFrom (netStep P) (fun i => World.fresh (identity i) (tolerance i)) steps

theorem Reachable.honest (reachable : Reachable P net) (i : ι) : Honest P (net i).core := by
  obtain ⟨identity, tolerance, steps, rfl⟩ := reachable
  exact runFrom_honest steps (fun i => fresh_honest (identity i) (tolerance i)) i

end Network

section Defect

def aliceHandle : Str := "alice@host".toList
def mallorySeed : Bytes := List.replicate 32 13
def malloryHandle : Str := "mallory@host".toList

/-- The context of a room whose name on the wire spells the context Bob's room is stored under. -/
def lookalike : Str := scopedContext "net".toList room

def asRequest : HandshakeMsg → Option Op
  | .req m => some (.keyreq aliceHandle none
      { m with channel := scopedContext "net".toList m.channel })
  | _ => none

def asResponse : HandshakeMsg → Option Op
  | .rsp m => some (.keyrsp bobHandle { m with channel := scopedContext "net".toList m.channel })
  | _ => none

/-- Carries the first message of a kind that a client signed to the other one. -/
def delivered (sender : World) (kind : HandshakeMsg → Option Op) : Op :=
  (sender.ledger.signed.findSome? kind).getD .drain

/-- Alice is the client at true and Bob the one at false, both on the one network. -/
def twoClients : Bool → World := fun i => World.fresh (if i then aliceSeed else bobSeed) 300

/-- Bob has a key for his room, and Mallory makes Alice ask for the lookalike. -/
def lookalikeAsked : List (Bool × Op) :=
  [(false, .configure (roomIn .autoAccept) .empty .empty .empty),
    (false, .send room "hello".toList),
    (true, .configure (roomIn .autoAccept) .empty .empty .empty),
    (true, .keyreq malloryHandle none
      (requestBy .compact mallorySeed lookalike (List.replicate 32 9) (List.replicate 16 1)))]

/-- Alice asks for the room itself. -/
def roomAsked : List (Bool × Op) :=
  [(false, .configure (roomIn .autoAccept) .empty .empty .empty),
    (true, .handshake room (some bobHandle))]

def roomServed : Bool → World :=
  let asked := runFrom (netStep .compact) twoClients roomAsked
  netStep .compact asked (false, delivered (asked true) asRequest)

def roomAnswer : Op := delivered (roomServed false) asResponse

theorem roomServed_reachable : Reachable .compact roomServed := by
  refine ⟨fun i => if i then aliceSeed else bobSeed, fun _ => 300, roomAsked ++
    [(false, delivered (runFrom (netStep .compact) twoClients roomAsked true) asRequest)], ?_⟩
  rw [runFrom_append]
  rfl

theorem roomAnswer_unforged : Unforged .compact roomServed (true, roomAnswer) := by
  refine ⟨?_, fun pubkey payload sig same _ b peer => ?_⟩
  · have formed : ∃ m : KeyRsp, roomAnswer = .keyrsp bobHandle m ∧ m.envelope.pubkey.length = 32 ∧
        m.envelope.ephPub.length = 32 ∧ m.envelope.wrapNonce.length = nonceLen ∧
          m.envelope.nonce.length = 16 := ⟨_, rfl, by decide +kernel⟩
    obtain ⟨m, answer, pubkey, ephPub, wrapNonce, nonce⟩ := formed
    exact answer ▸ ⟨pubkey, ephPub, wrapNonce, nonce⟩
  · cases b with
    | false =>
        have signed : ∃ msg ∈ (roomServed false).ledger.signed,
            some msg.payload = roomAnswer.signature.map (·.2.1) := by decide +kernel
        obtain ⟨msg, member, payloadIs⟩ := signed
        change roomAnswer.signature = _ at same
        rw [same] at payloadIs
        exact ⟨msg, member, Option.some.inj payloadIs⟩
    | true =>
        have other : roomAnswer.signature.map (fun s => fingerprint .compact s.1) ≠
            some (fingerprint .compact (Platform.compact.verifyingKey
              (roomServed true).manager.identity)) := by decide +kernel
        change roomAnswer.signature = _ at same
        rw [same] at other
        exact absurd (congrArg some peer) other

end Defect

end Repartee.E2e
