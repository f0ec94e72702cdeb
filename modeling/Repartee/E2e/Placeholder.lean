import Repartee.E2e.Symbolic
import Repartee.E2e.Writes.Ops

/-!
The zero-filled placeholder of an unanswered request. A row that holds it becomes trusted when a
decision for the user flips the row's status without looking at its key.
-/

namespace Repartee.E2e

open Text Lib

section Invariant

/-- A trusted row, and a superseded key, hold a key some handshake agreed on. -/
structure IncomingRow.Genuine (row : IncomingRow) : Prop where
  trusted : row.session.status = .trusted → row.session.sk ≠ zeroKey
  superseded : ∀ prev, row.prev = some prev → prev.1 ≠ zeroKey

def NoTrustedPlaceholder (w : World) : Prop := ∀ row ∈ w.manager.keyring.incoming, row.Genuine

/-- The rows a status change is written to hold no placeholder. -/
def Agreed (incoming : Table IncomingRow.key) (handle channel : Str) : Prop :=
  ∀ row ∈ incoming, IncomingRow.matches handle channel row = true → row.session.sk ≠ zeroKey

/-- What a license must not allow. -/
structure License.Genuine (L : License) : Prop where
  install : ∀ kr s, L.install kr s → s.sk ≠ zeroKey
  placeholder : ∀ kr s, L.placeholder kr s → s.status = .pending
  status : ∀ kr handle channel, L.status kr handle channel .trusted →
    Agreed kr.incoming handle channel

variable {P : Platform} {L : License} {w w' : World}

theorem installed_genuine (kr installed : Keyring) (now : Int) (s : IncomingSession)
    (strict : kr.installIncomingSessionStrict now s = .ok installed)
    (key : s.status = .trusted → s.sk ≠ zeroKey) (before : ∀ row ∈ kr.incoming, row.Genuine) :
    ∀ row ∈ installed.incoming, row.Genuine := by
  intro row member
  rw [(kr.installIncomingSessionStrict_eq_ok now s installed strict).1] at member
  rcases (Table.mem_replace _ _ _).mp member with ⟨kept, -⟩ | rfl
  · exact before row kept
  · refine ⟨key, fun prev retained => ?_⟩
    obtain ⟨old, -, -, -, real, rfl⟩ := Keyring.supersededKey_eq_some _ _ _ _ retained
    exact real

theorem setStatus_genuine (handle channel : Str) (status : TrustStatus) (row : IncomingRow)
    (agreed : status = .trusted → IncomingRow.matches handle channel row = true →
      row.session.sk ≠ zeroKey) (before : row.Genuine) :
    (IncomingRow.setStatus handle channel status row).Genuine := by
  unfold IncomingRow.setStatus
  split
  · rename_i filed
    exact ⟨fun trusted => agreed trusted filed, before.superseded⟩
  · exact before

theorem Effect.genuine (effect : Effect P L w w') (genuine : L.Genuine)
    (before : ∀ row ∈ w.core.incoming, row.Genuine) : ∀ row ∈ w'.core.incoming, row.Genuine := by
  rcases effect.incoming_cases with same | ⟨now, s, kr, licensed, strict, stored⟩ |
    ⟨handle, channel, status, licensed, stored⟩ | ⟨-, fewer⟩
  · exact same ▸ before
  · rw [stored]
    refine installed_genuine _ _ now s strict (fun trusted => ?_) before
    rcases licensed with session | request
    · exact genuine.install _ s session
    · rw [genuine.placeholder _ s request] at trusted
      cases trusted
  · rw [stored]
    intro row member
    obtain ⟨old, kept, rfl⟩ := (Keyring.mem_updateIncomingStatus _ _ _ _ _).mp member
    refine setStatus_genuine handle channel status old (fun trusted filed => ?_) (before old kept)
    subst trusted
    exact genuine.status _ _ _ licensed old kept filed
  · exact fun row member => before row (fewer row member)

theorem Effects.genuine (effects : Effects P L w w') (genuine : L.Genuine)
    (before : NoTrustedPlaceholder w) : NoTrustedPlaceholder w' := by
  induction effects with
  | refl => exact before
  | tail _ effect ih => exact effect.genuine genuine ih

end Invariant

section Runs

/-- The steps that keep placeholders untrusted: no handshake message that is taken carries the
zero key, and no decision for the user is written to a row that holds it. -/
def KeepsPlaceholders (P : Platform) (w : World) : Op → Prop
  | .keyrsp handle rsp => ¬Answered P w handle rsp zeroKey
  | .rekey handle msg => ¬Rekeyed P w handle msg zeroKey
  | .accept handle chan own => ∀ context, own = some context →
      cachedRequest w handle chan = none → Retrusts w handle context →
        Agreed w.manager.keyring.incoming handle context
  | .unrevoke handle own => Agreed w.manager.keyring.incoming handle own
  | _ => True

variable {P : Platform} {w : World}

theorem license_genuine (op : Op) (keeps : KeepsPlaceholders P w op) :
    (license P w op).Genuine := by
  cases op with
  | keyreq handle nick req =>
      refine ⟨fun _ _ never => never.elim, ?_, fun _ _ _ never => never.elim⟩
      rintro kr s ⟨-, t, rfl⟩
      rfl
  | keyrsp handle rsp =>
      refine ⟨?_, fun _ _ never => never.elim, fun _ _ _ never => never.elim⟩
      rintro kr s ⟨-, sk, t, answered, rfl⟩ zero
      exact keeps (zero ▸ answered)
  | rekey handle msg =>
      refine ⟨?_, fun _ _ never => never.elim, fun _ _ _ never => never.elim⟩
      rintro kr s ⟨-, sk, t, rekeyed, rfl⟩ zero
      exact keeps (zero ▸ rekeyed)
  | accept handle chan own =>
      refine ⟨fun _ _ never => never.elim, fun _ _ never => never.elim, ?_⟩
      rintro kr h c ⟨found, rfl, ownIs, missing, retrusts, -⟩
      exact found ▸ keeps c ownIs missing retrusts
  | unrevoke handle own =>
      refine ⟨fun _ _ never => never.elim, fun _ _ never => never.elim, ?_⟩
      rintro kr h c ⟨found, rfl, rfl, -⟩
      exact found ▸ keeps
  | decline handle chan =>
      refine ⟨fun _ _ never => never.elim, fun _ _ never => never.elim, ?_⟩
      rintro kr h c ⟨-, -, -, different⟩
      cases different
  | revoke handle peerChan own =>
      refine ⟨fun _ _ never => never.elim, fun _ _ never => never.elim, ?_⟩
      rintro kr h c ⟨-, -, -, different⟩
      cases different
  | _ =>
      exact ⟨fun _ _ never => never.elim, fun _ _ never => never.elim,
        fun _ _ _ never => never.elim⟩

theorem exec_genuine (op : Op) (before : NoTrustedPlaceholder w) (keeps : KeepsPlaceholders P w op) :
    NoTrustedPlaceholder (exec P w op) :=
  (exec_effects P w op).genuine (license_genuine op keeps) before

/-- Text is authenticated under a key that is not the placeholder. -/
def AuthenticatedBy (P : Platform) (channel : Str) (wire : WireChunk) (text : Str) : Prop :=
  ∃ sk pt, sk ≠ zeroKey ∧
    decrypt P sk wire.nonce (buildAad (wireContext channel) wire.msgid wire.ts wire.part wire.total)
      wire.ciphertext = .ok pt ∧ utf8OrReject P pt = .plaintext text

theorem decryptUnder_authenticated (handle channel : Str) (wire : WireChunk)
    (sess : IncomingSession) (now : Int) (genuine : NoTrustedPlaceholder w)
    (key : sess.sk ≠ zeroKey) :
    Prog.Ensures Reads w (decryptUnder P handle channel wire sess now) fun outcome _ =>
      ∀ text, outcome = .plaintext text → AuthenticatedBy P channel wire text := by
  unfold decryptUnder
  simp only
  split
  · rename_i pt opened
    exact Prog.ensures_pure _ fun text same => ⟨sess.sk, pt, key, opened, same⟩
  · refine (query_reads _).bind fun found v _ foundIs => ?_
    cases found with
    | none => exact Prog.ensures_pure _ fun text same => by cases same
    | some held =>
        obtain ⟨prevSk, replacedAt⟩ := held
        refine Prog.ensures_ite (fun _ => ?_) fun _ =>
          Prog.ensures_pure _ fun text same => by cases same
        split
        · rename_i pt opened
          obtain ⟨row, member, retained, -⟩ :=
            Keyring.getIncomingPrevKey_eq_some _ _ _ _ foundIs.symm
          exact Prog.ensures_pure _ fun text same =>
            ⟨prevSk, pt, (genuine row member).superseded _ retained, opened, same⟩
        · exact Prog.ensures_pure _ fun text same => by cases same

theorem decryptIncoming_authenticated (handle channel line : Str) (wire : WireChunk)
    (parsed : WireChunk.parse P line = .ok (some wire)) (genuine : NoTrustedPlaceholder w) :
    Prog.Ensures Reads w (decryptIncoming P handle channel line) fun outcome _ =>
      ∀ text, outcome = .plaintext text → AuthenticatedBy P channel wire text := by
  unfold decryptIncoming
  rw [parsed]
  refine Prog.ensures_lift_bind _ fun chunk same => ?_
  cases same
  refine Prog.ensures_read_bind _ (Prog.ensures_read_bind _ ?_)
  refine Prog.ensures_ite (fun _ => Prog.ensures_pure _ fun text same => by cases same) fun _ => ?_
  refine (query_reads _).bind fun found v reads foundIs => ?_
  cases found with
  | none => exact Prog.ensures_pure _ fun text same => by cases same
  | some sess =>
      refine Prog.ensures_ite (fun _ => Prog.ensures_pure _ fun text same => by cases same)
        fun trusted => ?_
      obtain ⟨row, member, rfl, -⟩ := Keyring.getIncomingSession_eq_some _ _ _ _ foundIs.symm
      have kept : NoTrustedPlaceholder v := by
        unfold NoTrustedPlaceholder
        rw [reads.manager]
        exact genuine
      exact decryptUnder_authenticated handle channel wire row.session _ kept
        ((genuine row member).trusted (not_not.mp trusted))

/-- Along a run that starts on an empty keyring and keeps placeholders untrusted, no trusted
session holds the placeholder key and no ciphertext is authenticated under it. -/
theorem trusted_sessions_hold_agreed_keys (P : Platform) (identity : Bytes) (tolerance : Int)
    (ops : List Op)
    (keeps : Along (KeepsPlaceholders P) (exec P) (World.fresh identity tolerance) ops) :
    (∀ row ∈ (runFrom (exec P) (World.fresh identity tolerance) ops).manager.keyring.incoming,
      row.session.status = .trusted → row.session.sk ≠ zeroKey) ∧
      ∀ handle channel line wire text, WireChunk.parse P line = .ok (some wire) →
        (decryptIncoming P handle channel line
          (runFrom (exec P) (World.fresh identity tolerance) ops)).1 = .ok (.plaintext text) →
          AuthenticatedBy P channel wire text := by
  have genuine : NoTrustedPlaceholder (runFrom (exec P) (World.fresh identity tolerance) ops) :=
    keeps.invariant (fun w op before step => exec_genuine op before step)
      fun row member => absurd member (Table.not_mem_empty row)
  refine ⟨fun row member => (genuine row member).trusted, ?_⟩
  intro handle channel line wire text parsed outcome
  have promised := decryptIncoming_authenticated handle channel line wire parsed genuine
  exact (promised.result (Prod.ext outcome rfl)).2 text rfl

end Runs

section Defect

/-- Bob asks, the user declines, and then takes the decision back. -/
def declinedThenUnrevoked : List Op :=
  [.configure (roomIn .normal) .empty .empty .empty,
    .keyreq bobHandle none (requestBy .symbolic bobSeed room (List.replicate 32 9)
      (List.replicate 16 1)),
    .decline bobHandle room,
    .unrevoke bobHandle room]

def zeroKeyLine : Str :=
  lineUnder .symbolic zeroKey room "hi".toList (List.replicate 8 1)
    (List.replicate nonceLen 2) 0

theorem unrevoke_trusts_the_placeholder :
    let w := runFrom (exec .symbolic) (World.fresh aliceSeed 300) declinedThenUnrevoked
    (∃ row ∈ w.manager.keyring.incoming.rows,
      row.session.status = .trusted ∧ row.session.sk = zeroKey) ∧
      (decryptIncoming .symbolic bobHandle room zeroKeyLine w).1 =
        .ok (.plaintext "hi".toList) := by
  decide +kernel

/-- Declining and revoking a request leaves its placeholder as it should be. -/
theorem trusted_sessions_hold_agreed_keys_declined :
    let kr := (runFrom (exec .symbolic) (World.fresh aliceSeed 300)
      (declinedThenUnrevoked.take 3)).manager.keyring
    (∃ row ∈ kr.incoming.rows, row.session.status = .revoked) ∧
      ∀ row ∈ kr.incoming, row.session.status = .trusted → row.session.sk ≠ zeroKey :=
  ⟨by decide +kernel, (trusted_sessions_hold_agreed_keys .symbolic aliceSeed 300
    (declinedThenUnrevoked.take 3) ⟨trivial, trivial, trivial, trivial⟩).1⟩

end Defect

end Repartee.E2e
