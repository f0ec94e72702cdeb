import Repartee.Lib.Decode
import Repartee.E2e.Chunks
import Repartee.App.Gate

/-!
What ciphertext on the wire is: lines that carry sealed chunks. Encrypting a text gives nothing else.
-/

namespace Repartee.App

open Text Lib E2e

section Ciphertext

variable (P : Platform)

/-- A line that carries a chunk sealed under some key. -/
def IsCiphertextLine (line : Str) : Prop :=
  ∃ (chunk : WireChunk) (sk aad plain : Bytes),
    P.aeadEncrypt sk chunk.nonce aad plain = .ok chunk.ciphertext ∧ chunk.encode P = .ok line

/-- Whatever leaves is ciphertext: a refusal, or lines of sealed chunks. -/
def NoPlaintext (r : Except E2eRefusal (List Str × Str)) : Prop :=
  ∀ out, r = .ok out → ∀ line ∈ out.1, IsCiphertextLine P line

theorem wirePrefix_of_ciphertextLine (line : Str) (sealed : IsCiphertextLine P line) :
    ∃ rest, line = '+' :: rest := by
  obtain ⟨chunk, -, -, -, -, encoded⟩ := sealed
  unfold WireChunk.encode at encoded
  split at encoded
  · cases encoded
  · split at encoded
    · cases encoded
    · cases encoded
      exact ⟨_, rfl⟩

/-- Any step at all. -/
def Anyhow (_ _ : World) : Prop := True

instance : IsPreorder World Anyhow where
  refl _ := trivial
  trans _ _ _ _ _ := trivial

variable {P} {w : World}

theorem anyhow {α : Type} (m : Action α) : Prog.Ensures Anyhow w m fun _ _ => True := by
  unfold Prog.Ensures Prog.After
  split
  · exact ⟨trivial, trivial⟩
  · trivial

theorem encryptChunk_ciphertext (sk : SessionKey) (channel : Str) (msgid : Bytes) (ts : Int)
    (total part : Nat) (plain : Str) :
    Prog.Ensures Anyhow w (encryptChunk P sk channel msgid ts total part plain)
      fun line _ => IsCiphertextLine P line := by
  unfold encryptChunk
  have sealing : Prog.Ensures Anyhow w (aeadSeal P sk _ _) _ :=
    (keeps_seal sk (buildAad (wireContext channel) msgid ts part total) (utf8 plain)).mono
      (fun _ _ => trivial) fun _ _ _ sealed => sealed
  apply sealing.bind
  intro wrapped w' _ sealed
  apply Prog.ensures_lift
  intro line encoded
  exact ⟨⟨msgid, ts, part, total, wrapped.1, wrapped.2⟩, _, _, _, sealed.1, encoded⟩

theorem encryptOutgoing_ciphertext (channel text : Str) :
    Prog.Ensures Anyhow w (encryptOutgoing P channel text)
      fun lines _ => ∀ line ∈ lines, IsCiphertextLine P line := by
  unfold encryptOutgoing
  apply (anyhow _).bind
  intro sk w₁ _ _
  apply Prog.ensures_lift_bind
  intro chunks _
  apply Prog.ensures_guard_bind
  intro _
  apply Prog.ensures_guard_bind
  intro _
  apply (anyhow _).bind
  intro msgid w₂ _ _
  apply (anyhow _).bind
  intro ts w₃ _ _
  have each : Prog.Ensures Anyhow w₃
      (Prog.collect (fun piece : Nat × Str =>
        encryptChunk P sk channel msgid ts chunks.length piece.1 piece.2)
        ((List.range' 1 chunks.length).zip chunks))
      fun lines _ => List.Forall₂ (fun _ line => IsCiphertextLine P line)
        ((List.range' 1 chunks.length).zip chunks) lines ∧ True :=
    Prog.ensures_collect_each (fun _ => True) (fun (_ : Nat × Str) line => IsCiphertextLine P line)
      _ (fun piece _ w' _ _ => (encryptChunk_ciphertext sk channel msgid ts chunks.length piece.1
        piece.2).post fun _ _ _ sealed => ⟨sealed, trivial⟩) trivial
  apply each.post
  intro lines _ _ sealed line member
  obtain ⟨_, _, held⟩ := exists_of_forall₂ _ _ lines sealed.1 line member
  exact held

end Ciphertext

end Repartee.App
