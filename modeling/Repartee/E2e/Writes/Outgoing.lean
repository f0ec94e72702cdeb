import Repartee.E2e.Effects

/-!
The writes of the outgoing side: a key is generated, stored, distributed and used.
-/

namespace Repartee.E2e

open Text Lib

/-- Moving along a relation while a part of the world stays as it is. -/
def Keeping {β : Type} (R : World → World → Prop) (f : World → β) (w w' : World) : Prop :=
  R w w' ∧ f w' = f w

instance {β : Type} (R : World → World → Prop) (f : World → β) [IsPreorder World R] :
    IsPreorder World (Keeping R f) where
  refl w := ⟨refl_of R w, rfl⟩
  trans _ _ _ first second := ⟨trans_of R first.1 second.1, second.2.trans first.2⟩

variable {P : Platform} {L : License} {w : World} {α : Type}

theorem quiet_keeping {w' : World} {β : Type} (f : Core → β) (quiet : Quiet w w') :
    Keeping (Effects P L) (fun v => f v.core) w w' :=
  ⟨quiet.effects, congrArg f quiet.core⟩

theorem quietly {m : Action α} {Post : α → World → Prop} (quiet : Prog.Ensures Quiet w m Post) :
    Prog.Ensures (Effects P L) w m fun a w' => Post a w' ∧ Quiet w w' :=
  quiet.mono (fun _ moved => moved.effects) fun _ _ moved post => ⟨post, moved⟩

theorem quietly_keeping {β : Type} (f : Core → β) {m : Action α} {Post : α → World → Prop}
    (quiet : Prog.Ensures Quiet w m Post) :
    Prog.Ensures (Keeping (Effects P L) fun v => f v.core) w m fun a w' =>
      Post a w' ∧ Quiet w w' :=
  quiet.mono (fun _ moved => quiet_keeping f moved) fun _ _ moved post => ⟨post, moved⟩

theorem reading {m : Action α} {Post : α → World → Prop} (reads : Prog.Ensures Reads w m Post) :
    Prog.Ensures Quiet w m fun a w' => Post a w' ∧ Reads w w' :=
  reads.mono (fun _ moved => moved.quiet) fun _ _ moved post => ⟨post, moved⟩

theorem ageing {m : Action α} {Post : α → World → Prop} (quiet : Prog.Ensures Quiet w m Post) :
    Prog.Ensures Ages w m Post :=
  quiet.mono (fun _ moved => moved.toAges) fun _ _ _ post => post

theorem Stored.congr {w w' : World} {sk : SessionKey} {context : Str → Prop}
    (stored : Stored w sk context) (same : w'.core.outgoing = w.core.outgoing) :
    Stored w' sk context := by
  obtain ⟨row, member, key, filed⟩ := stored
  have outgoing : w'.manager.keyring.outgoing = w.manager.keyring.outgoing := same
  exact ⟨row, outgoing ▸ member, key, filed⟩

section Rotation

theorem getOutgoingSession_stored (channel : Str) (sess : OutgoingSession)
    (found : w.manager.keyring.getOutgoingSession channel = some sess) :
    Stored w sess.sk fun c => c = channel ∨ c = wireContext channel := by
  unfold Keyring.getOutgoingSession Keyring.getOutgoingSessionExact at found
  split at found
  · rename_i row here
    cases found
    obtain ⟨member, keyed⟩ := (Table.find?_eq_some _ _ _).mp here
    exact ⟨sess, member, rfl, Or.inl keyed⟩
  · obtain ⟨wire, fallback, here⟩ := Option.bind_eq_some_iff.mp found
    obtain ⟨member, keyed⟩ := (Table.find?_eq_some _ _ _).mp here
    exact ⟨sess, member, rfl, Or.inr (keyed.trans (Keyring.legacyFallback_eq _ _ _ fallback))⟩

theorem buildRekeyForPeer_effects (channel : Str) (peer : PeerRecord) (sk : SessionKey)
    (stored : Stored w sk fun c => c = channel) :
    Prog.Ensures (Keeping (Effects P L) fun v => v.core.outgoing) w
      (buildRekeyForPeer P channel peer sk) fun _ _ => True := by
  unfold buildRekeyForPeer
  refine (quietly_keeping Core.outgoing (draw_quiet 32)).bind fun ephSk v₁ moved₁ _ => ?_
  refine Prog.ensures_lift_bind _ fun peerPub _ => ?_
  refine (quietly_keeping Core.outgoing (aeadSeal_quiet _ _ _)).bind fun wrap v₃ moved₃ sealed => ?_
  refine (quietly_keeping Core.outgoing (draw_quiet 16)).bind fun nonce v₄ moved₄ drawn => ?_
  have held := ((stored.congr moved₁.2).congr moved₃.2).congr moved₄.2
  exact ⟨⟨.single (.signedRekey _ channel sk _ _ rfl rfl ⟨⟨_, rfl⟩, sealed.1.2, _, drawn.1.1⟩
    sealed.1.1 held (.still rfl rfl rfl (.inl rfl)) rfl), rfl⟩, trivial⟩

theorem queueRekey_quiet (channel handle : Str) (rekey : KeyRekey) :
    Prog.Ensures Quiet w (queueRekey P channel handle rekey) fun _ _ => True :=
  ⟨⟨.still rfl rfl rfl (.inl rfl), rfl⟩, trivial⟩

theorem distributeTo_effects (channel : Str) (fresh : SessionKey) (recipient : Str × Fingerprint)
    (stored : Stored w fresh fun c => c = channel) :
    Prog.Ensures (Keeping (Effects P L) fun v => v.core.outgoing) w
      (distributeTo P channel fresh recipient) fun _ v => Stored v fresh fun c => c = channel := by
  suffices moves : Prog.Ensures (Keeping (Effects P L) fun v => v.core.outgoing) w
      (distributeTo P channel fresh recipient) fun _ _ => True from
    moves.post fun _ _ moved _ => stored.congr moved.2
  unfold distributeTo
  refine (quietly_keeping Core.outgoing (reading (query_reads _))).bind fun found v₁ moved₁ _ => ?_
  cases found with
  | none => exact Prog.ensures_pure _ trivial
  | some peer =>
      refine (Prog.ensures_attempt (buildRekeyForPeer_effects channel peer fresh
        (stored.congr moved₁.2))).bind fun result v₂ _ _ => ?_
      cases result with
      | ok rekey =>
          exact (quietly_keeping Core.outgoing (queueRekey_quiet _ _ _)).post
            fun _ _ _ _ => trivial
      | error e => exact Prog.ensures_pure _ trivial

theorem distribute_effects (channel : Str) (fresh : SessionKey)
    (stored : Stored w fresh fun c => c = channel) :
    Prog.Ensures (Effects P L) w (distribute P channel fresh) fun _ v =>
      Stored v fresh fun c => c = channel := by
  unfold distribute
  refine (query_effects _).bind fun recipients v₁ _ read => ?_
  refine Prog.ensures_each (fun v => Stored v fresh fun c => c = channel) recipients
    (fun recipient _ v _ held => ?_) (stored.congr (congrArg Core.outgoing read.2.quiet.core))
  exact (distributeTo_effects channel fresh recipient held).mono (fun _ moved => moved.1)
    fun _ _ _ post => post

theorem generateOutgoingKey_effects (channel : Str) :
    Prog.Ensures (Effects P L) w (generateOutgoingKey P channel) fun sk v =>
      Stored v sk fun c => c = channel := by
  unfold generateOutgoingKey
  refine (query_effects _).bind fun again v₁ _ _ => ?_
  refine (quietly (draw_quiet keyLen)).bind fun fresh v₂ _ drawn => ?_
  obtain ⟨⟨rfl, -⟩, -⟩ := drawn
  refine Prog.ensures_bind (fun _ v => (channel, P.random v₁.env.draws keyLen) ∈
    v.core.generated) ⟨.single (.generated channel v₁.env.draws ?_ rfl), ?_⟩
    fun _ v₃ _ known => ?_
  · exact .still rfl rfl rfl (.inl rfl)
  · simp [World.core]
  refine Prog.ensures_read_bind _ ?_
  refine Prog.ensures_bind (fun _ v => Stored v (P.random v₁.env.draws keyLen)
    fun c => c = channel) (ensures_execute _ (tick_reads v₃).effects ?_ ?_) fun _ v₄ _ held => ?_
  · exact .single (.stored channel _ v₃.env.now known (.still rfl rfl rfl (.inr rfl)) rfl)
  · exact ⟨⟨channel, _, v₃.env.now, false⟩, by simp [World.setKeyring, Keyring.setOutgoingSession],
      rfl, rfl⟩
  refine (Prog.ensures_onlyIf _ (fun _ => distribute_effects channel _ held) fun _ => held).bind
    fun _ v₅ _ held => Prog.ensures_pure _ held

theorem getOrGenerateOutgoingKey_effects (channel : Str) :
    Prog.Ensures (Effects P L) w (getOrGenerateOutgoingKey P channel) fun sk v =>
      Stored v sk fun c => c = channel ∨ c = wireContext channel := by
  unfold getOrGenerateOutgoingKey
  refine (query_effects _).bind fun found v₁ _ read => ?_
  have generated : Prog.Ensures (Effects P L) v₁ (generateOutgoingKey P channel) fun sk v =>
      Stored v sk fun c => c = channel ∨ c = wireContext channel := by
    refine (generateOutgoingKey_effects channel).post fun sk v _ held => ?_
    obtain ⟨row, member, key, filed⟩ := held
    exact ⟨row, member, key, Or.inl filed⟩
  cases found with
  | none => exact generated
  | some sess =>
      refine Prog.ensures_ite (fun _ => generated) fun _ => Prog.ensures_pure _ ?_
      exact Stored.congr (getOutgoingSession_stored channel sess read.1.symm)
        (congrArg Core.outgoing read.2.quiet.core)

end Rotation

section Encrypt

theorem encryptChunk_quiet (sk : SessionKey) (channel : Str) (msgid : Bytes) (ts : Int)
    (total part : Nat) (plain : Str) :
    Prog.Ensures Quiet w (encryptChunk P sk channel msgid ts total part plain) fun _ _ => True := by
  unfold encryptChunk
  refine (aeadSeal_quiet _ _ _).bind fun sealed v _ _ => ?_
  exact Prog.ensures_lift _ fun _ _ => trivial

theorem encryptOutgoing_effects (channel plaintext : Str) :
    Prog.Ensures (Effects P L) w (encryptOutgoing P channel plaintext) fun _ _ => True := by
  unfold encryptOutgoing
  refine (getOrGenerateOutgoingKey_effects channel).bind fun sk v₁ _ _ => ?_
  refine Prog.ensures_lift_bind _ fun chunks _ => ?_
  refine Prog.ensures_guard_bind _ _ fun _ => Prog.ensures_guard_bind _ _ fun _ => ?_
  refine (quietly (draw_quiet 8)).bind fun msgid v₂ _ _ => Prog.ensures_read_bind _ ?_
  refine (Prog.ensures_collect (fun _ => True) _ (fun a _ v _ _ => ?_) trivial).post
    fun _ _ _ _ => trivial
  exact (quietly (encryptChunk_quiet _ _ _ _ _ _ _)).post fun _ _ _ _ => trivial

theorem encryptOutgoingCtcp_effects (channel frame : Str) :
    Prog.Ensures (Effects P L) w (encryptOutgoingCtcp P channel frame) fun _ _ => True := by
  unfold encryptOutgoingCtcp
  refine Prog.ensures_ite (fun _ => encryptOutgoing_effects channel frame) fun _ => ?_
  split
  · exact Prog.ensures_fail _
  · refine Prog.ensures_lift_bind _ fun pieces _ => ?_
    refine (Prog.ensures_collect (fun _ => True) _ (fun a _ v _ _ => ?_) trivial).bind
      fun _ _ _ _ => Prog.ensures_pure _ trivial
    exact encryptOutgoing_effects _ _

end Encrypt

end Repartee.E2e
