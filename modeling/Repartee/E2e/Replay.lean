import Repartee.E2e.Symbolic
import Repartee.E2e.Writes.Ops

/-!
A handshake message that was accepted, delivered again: a rekey is stopped by the record of its
nonce, a response by the handshake it used up.
-/

namespace Repartee.E2e

open Text Lib

section Sessions

variable {P : Platform} {L : License} {w w' : World}

/-- A license under which no session row can be written. -/
structure License.LeavesSessions (L : License) : Prop where
  install : ∀ kr s, ¬L.install kr s
  placeholder : ∀ kr s, ¬L.placeholder kr s
  status : ∀ kr handle channel status, ¬L.status kr handle channel status
  drops : ¬L.drops

theorem Effect.leaves_sessions (effect : Effect P L w w') (leaves : L.LeavesSessions) :
    w'.core.incoming = w.core.incoming := by
  rcases effect.incoming_cases with same | ⟨now, s, kr, licensed, -, -⟩ |
    ⟨handle, channel, status, licensed, -⟩ | ⟨licensed, -⟩
  · exact same
  · exact absurd licensed (not_or.mpr ⟨leaves.install _ s, leaves.placeholder _ s⟩)
  · exact absurd licensed (leaves.status _ _ _ _)
  · exact absurd licensed leaves.drops

theorem Effects.leaves_sessions (effects : Effects P L w w') (leaves : L.LeavesSessions) :
    w'.core.incoming = w.core.incoming := by
  induction effects with
  | refl => rfl
  | tail _ effect ih => exact (effect.leaves_sessions leaves).trans ih

theorem runFrom_seen (ops : List Op) (row : SeenRekey) (held : row ∈ w.core.seenRekeys) :
    row ∈ (runFrom (exec P) w ops).core.seenRekeys :=
  runFrom_invariant (fun w => row ∈ w.core.seenRekeys)
    (fun w op held => (exec_effects P w op).seen_mono row held) w ops held

end Sessions

section Secrets

variable {P : Platform} {L : License} {w w' : World} {spent : Nat → Prop}

/-- Every pending handshake holds the secret of a draw of its own, and none that was spent. -/
structure Tracks (P : Platform) (spent : Nat → Prop) (w : World)
    (index : (Str × Bytes) × PendingHandshake → Nat) : Prop where
  used : ∀ n, spent n → n < w.env.draws
  drawn : ∀ e ∈ w.manager.pending, index e < w.env.draws
  secret : ∀ e ∈ w.manager.pending, e.2.ephX25519Secret = P.random (index e) 32
  unspent : ∀ e ∈ w.manager.pending, ¬spent (index e)
  apart : ∀ e ∈ w.manager.pending, ∀ e' ∈ w.manager.pending, index e = index e' → e = e'

def Tracked (P : Platform) (spent : Nat → Prop) (w : World) : Prop := ∃ index, Tracks P spent w index

theorem Tracked.mono (tracked : Tracked P spent w)
    (pending : ∀ e ∈ w'.manager.pending, e ∈ w.manager.pending)
    (draws : w.env.draws ≤ w'.env.draws) : Tracked P spent w' := by
  obtain ⟨index, tracks⟩ := tracked
  refine ⟨index, fun n gone => (tracks.used n gone).trans_le draws, ?_, ?_, ?_, ?_⟩
  · exact fun e member => (tracks.drawn e (pending e member)).trans_le draws
  · exact fun e member => tracks.secret e (pending e member)
  · exact fun e member => tracks.unspent e (pending e member)
  · exact fun e member e' member' => tracks.apart e (pending e member) e' (pending e' member')

/-- A new handshake takes a draw nobody has. -/
theorem Tracked.opened (tracked : Tracked P spent w) (entry : (Str × Bytes) × PendingHandshake)
    (n : Nat) (secret : entry.2.ephX25519Secret = P.random n 32) (fresh : w.env.draws ≤ n)
    (used : n < w'.env.draws)
    (pending : ∀ e ∈ w'.manager.pending, e ∈ w.manager.pending ∨ e = entry) :
    Tracked P spent w' := by
  obtain ⟨index, tracks⟩ := tracked
  have older (e) (member : e ∈ w'.manager.pending) (other : e ≠ entry) : e ∈ w.manager.pending :=
    (pending e member).resolve_right other
  have grown : w.env.draws ≤ w'.env.draws := fresh.trans used.le
  refine ⟨Function.update index entry n, fun k gone => (tracks.used k gone).trans_le grown,
    fun e member => ?_, fun e member => ?_, fun e member => ?_, fun e member e' member' => ?_⟩
  · by_cases new : e = entry
    · rw [new, Function.update_self]
      exact used
    · rw [Function.update_of_ne new]
      exact (tracks.drawn e (older e member new)).trans_le grown
  · by_cases new : e = entry
    · rw [new, Function.update_self]
      exact secret
    · rw [Function.update_of_ne new]
      exact tracks.secret e (older e member new)
  · by_cases new : e = entry
    · rw [new, Function.update_self]
      exact fun gone => absurd (tracks.used n gone) (not_lt.mpr fresh)
    · rw [Function.update_of_ne new]
      exact tracks.unspent e (older e member new)
  · by_cases new : e = entry
    · by_cases new' : e' = entry
      · exact fun _ => new.trans new'.symm
      · rw [new, Function.update_self, Function.update_of_ne new']
        intro same
        have early := tracks.drawn e' (older e' member' new')
        omega
    · by_cases new' : e' = entry
      · rw [new', Function.update_self, Function.update_of_ne new]
        intro same
        have early := tracks.drawn e (older e member new)
        omega
      · rw [Function.update_of_ne new, Function.update_of_ne new']
        exact tracks.apart e (older e member new) e' (older e' member' new')

theorem Effect.tracked (effect : Effect P L w w') (tracked : Tracked P spent w) :
    Tracked P spent w' := by
  cases effect with
  | quiet quiet => exact tracked.mono quiet.pending quiet.draws
  | opened channel peer nonce n t fresh used pending inbound faults core =>
      exact tracked.opened _ n rfl fresh used pending
  | requested handle channel entry licensed inbound pending draws faults core =>
      exact tracked.mono pending draws
  | rescheduled licensed manager draws core =>
      exact tracked.mono (fun e member => manager ▸ member) draws.ge
  | _ =>
      rename_i ages _
      exact tracked.mono ages.pending ages.draws

theorem Effects.tracked (effects : Effects P L w w') (tracked : Tracked P spent w) :
    Tracked P spent w' := by
  induction effects with
  | refl => exact tracked
  | tail _ effect ih => exact effect.tracked ih

theorem runFrom_tracked (ops : List Op) (tracked : Tracked P spent w) :
    Tracked P spent (runFrom (exec P) w ops) :=
  runFrom_invariant _ (fun w op held => (exec_effects P w op).tracked held) w ops tracked

theorem fresh_tracked (identity : Bytes) (tolerance : Int) :
    Tracked P (fun _ => False) (World.fresh identity tolerance) :=
  ⟨fun _ => 0, fun _ never => never.elim, fun e member => absurd member (Table.not_mem_empty e),
    fun e member => absurd member (Table.not_mem_empty e),
    fun e member => absurd member (Table.not_mem_empty e),
    fun e member => absurd member (Table.not_mem_empty e)⟩

/-- Giving up a handshake spends its draw. -/
theorem Tracked.spend (tracked : Tracked P (fun _ => False) w) (ages : Ages w w')
    (e : (Str × Bytes) × PendingHandshake) (member : e ∈ w.manager.pending)
    (gone : e ∉ w'.manager.pending) :
    ∃ n, e.2.ephX25519Secret = P.random n 32 ∧ Tracked P (fun k => k = n) w' := by
  obtain ⟨index, tracks⟩ := tracked
  refine ⟨index e, tracks.secret e member, index, ?_, ?_, ?_, ?_, ?_⟩
  · rintro n rfl
    exact (tracks.drawn e member).trans_le ages.draws
  · exact fun e' kept => (tracks.drawn e' (ages.pending e' kept)).trans_le ages.draws
  · exact fun e' kept => tracks.secret e' (ages.pending e' kept)
  · intro e' kept same
    exact gone (tracks.apart e' (ages.pending e' kept) e member same ▸ kept)
  · exact fun e' kept e'' kept' =>
      tracks.apart e' (ages.pending e' kept) e'' (ages.pending e'' kept')

end Secrets

section Redelivery

variable {P : Platform} {w : World}

/-- The same message again, from whatever handle it now comes. -/
inductive Redelivers : Op → Op → Prop
  | keyrsp (handle handle' : Str) (m : KeyRsp) : Redelivers (.keyrsp handle m) (.keyrsp handle' m)
  | rekey (handle handle' : Str) (m : KeyRekey) : Redelivers (.rekey handle m) (.rekey handle' m)

/-- The condition on a response: its ephemeral point contributes, that is, no two of the secrets
drawn so far share the same secret with it. A rekey needs none. -/
def Contributes (P : Platform) (w : World) : Op → Prop
  | .keyrsp _ m => ∀ i < w.env.draws, ∀ j < w.env.draws,
      P.diffieHellman (P.random i 32) m.ephemeralPub =
        P.diffieHellman (P.random j 32) m.ephemeralPub → i = j
  | _ => True

theorem unwrapKeyrsp_secret (commits : P.Commits) (derives : P.Derives) (m : KeyRsp)
    (secret secret' sk sk' : Bytes) (first : unwrapKeyrsp P m secret = some sk)
    (second : unwrapKeyrsp P m secret' = some sk') :
    P.diffieHellman secret m.ephemeralPub = P.diffieHellman secret' m.ephemeralPub := by
  have opened (s k : Bytes) (unwraps : unwrapKeyrsp P m s = some k) :
      P.aeadDecrypt (deriveWrapKey P s m.ephemeralPub (wrapInfo (wireContext m.channel)))
        m.wrapNonce (wrapInfo (wireContext m.channel)) m.wrapCt = .ok k := by
    unfold unwrapKeyrsp decrypt at unwraps
    simp only at unwraps
    split at unwraps
    · rename_i text found
      split at unwraps
      · cases unwraps
        exact (mapError_eq_ok _ _ _).mp found
      · cases unwraps
    · cases unwraps
  exact derives (commits (opened secret sk first) (opened secret' sk' second))

theorem keyrsp_replay (commits : P.Commits) (derives : P.Derives) (handle' : Str) (m : KeyRsp)
    (n : Nat) (sk : SessionKey) (spent : unwrapKeyrsp P m (P.random n 32) = some sk)
    (tracked : Tracked P (fun k => k = n) w) (contributes : Contributes P w (.keyrsp handle' m)) :
    (exec P w (.keyrsp handle' m)).core.incoming = w.core.incoming := by
  refine (exec_effects P w (.keyrsp handle' m)).leaves_sessions
    ⟨?_, fun _ _ never => never.elim, fun _ _ _ _ never => never.elim, fun never => never.elim⟩
  rintro kr s ⟨-, sk', t, answered, -⟩
  obtain ⟨e, ⟨member, -⟩, -, unwraps⟩ := answered.opens
  obtain ⟨index, tracks⟩ := tracked
  rw [tracks.secret e member] at unwraps
  have same := unwrapKeyrsp_secret commits derives m _ _ _ _ unwraps spent
  exact tracks.unspent e member
    (contributes _ (tracks.drawn e member) _ (tracks.used n rfl) same)

theorem rekey_replay (handle' : Str) (m : KeyRekey)
    (held : ⟨fingerprint P m.pubkey, m.channel, m.nonce⟩ ∈ w.core.seenRekeys) :
    (exec P w (.rekey handle' m)).core.incoming = w.core.incoming := by
  refine (exec_effects P w (.rekey handle' m)).leaves_sessions
    ⟨?_, fun _ _ never => never.elim, fun _ _ _ _ never => never.elim, fun never => never.elim⟩
  rintro kr s ⟨-, sk, t, rekeyed, -⟩
  exact rekeyed.fresh held

end Redelivery

section Defect

/-- A response whose ephemeral point is of low order: every secret opens it. -/
def lowOrderResponse (sk : SessionKey) : KeyRsp :=
  let point := List.replicate 32 0
  let wrapKey := deriveWrapKey .symbolic (Platform.symbolic.random 0 32) point
    (wrapInfo "#room".toList)
  responseBy .symbolic bobSeed room point wrapKey sk (List.replicate nonceLen 1)
    (List.replicate 16 1)

def firstKey : SessionKey := List.replicate keyLen 3
def secondKey : SessionKey := List.replicate keyLen 4

/-- Bob answers twice, and a third request of ours is pending. -/
def answeredTwice : List Op :=
  [.handshake room (some bobHandle), .keyrsp bobHandle (lowOrderResponse firstKey),
    .handshake room (some bobHandle), .keyrsp bobHandle (lowOrderResponse secondKey),
    .handshake room (some bobHandle)]

/-- A response with a point of Bob's own, between two requests of ours and a message. -/
def bobsAnswer : Op :=
  .keyrsp bobHandle (bobsResponse .symbolic (List.replicate 32 5) firstKey 1)

end Defect

end Repartee.E2e
