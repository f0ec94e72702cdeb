import Repartee.Text

/-!
Keyring contexts: the wire name of a conversation, alone or under the label of its network.
-/

namespace Repartee.E2e

open Text

def contextNetSeparator : Char := Char.ofNat 0x1F

def isChannelTarget (target : Str) : Bool :=
  match target with
  | c :: _ => c = '#' || c = '&' || c = '!' || c = '+'
  | [] => false

def contextKey (target peerHandle : Str) : Str :=
  if isChannelTarget target then target else '@' :: peerHandle

def scopedContext (network wire : Str) : Str := network ++ contextNetSeparator :: wire

def wireContext (context : Str) : Str :=
  match splitOnce contextNetSeparator context with
  | some (_, wire) => wire
  | none => context

def bouncerScopePrefix : Str := "bouncer:v1:".toList

def isLowerHex (c : Char) : Bool := ('0' ≤ c && c ≤ '9') || ('a' ≤ c && c ≤ 'f')

def isBouncerScope (scope : Str) : Bool :=
  let network := match splitOnce contextNetSeparator scope with
    | some (first, _) => first
    | none => scope
  match (stripPrefix bouncerScopePrefix network).bind (splitOnce ':') with
  | none => false
  | some (account, id) =>
      account.length = 64 && account.all isLowerHex &&
        (id = "control".toList || match parseU64 id with
          | .ok value => value > 0 && natText value = id
          | .error _ => false)

/-- The unscoped context a read falls back to, for a context that is scoped to a network. -/
def legacyWireFallback (channel : Str) : Option Str :=
  if isBouncerScope channel then none
  else
    let wire := wireContext channel
    if wire ≠ channel then some wire else none

/-- The context, or the unscoped one its rows may still be filed under. -/
def Covers (context filed : Str) : Prop := filed = context ∨ filed = wireContext context

theorem wireContext_scopedContext (network wire : Str) (label : contextNetSeparator ∉ network) :
    wireContext (scopedContext network wire) = wire := by
  simp [wireContext, scopedContext, splitOnce_append _ _ _ label]

theorem wireContext_unscoped (context : Str) (unscoped : contextNetSeparator ∉ context) :
    wireContext context = context := by
  rw [wireContext, (splitOnce_eq_none _ _).mpr unscoped]

/-- Where the wire name is free of the separator, both contexts name one wire conversation. -/
theorem Covers.wireContext_eq (context filed : Str) (covers : Covers context filed)
    (plain : contextNetSeparator ∉ wireContext context) : wireContext filed = wireContext context := by
  rcases covers with rfl | rfl
  · rfl
  · exact wireContext_unscoped _ plain

theorem scopedContext_ne (network wire : Str) : scopedContext network wire ≠ wire := by
  intro same
  have lengths := congrArg List.length same
  simp [scopedContext] at lengths
  omega

theorem scopedContext_inj (network a b : Str) :
    scopedContext network a = scopedContext network b ↔ a = b := by
  simp [scopedContext]

theorem separator_mem_scopedContext (network wire : Str) :
    contextNetSeparator ∈ scopedContext network wire := by
  simp [scopedContext]

end Repartee.E2e
