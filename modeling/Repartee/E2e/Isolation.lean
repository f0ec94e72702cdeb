import Repartee.E2e.Keyring

/-!
What the reads for a context of one network can tell about the rows of the others.
-/

namespace Repartee.E2e

open Text Lib

section Agreement

/-- The context is filed under the network's label. -/
def inNetwork (network context : Str) : Bool := (scopedContext network []).isPrefixOf context

theorem inNetwork_scopedContext (network wire : Str) :
    inNetwork network (scopedContext network wire) = true := by
  have split : scopedContext network wire = scopedContext network [] ++ wire := by
    simp [scopedContext]
  rw [inNetwork, split, List.isPrefixOf_iff_prefix]
  exact List.prefix_append _ _

/-- The keyrings hold the same rows of the network and the same global autotrust rules. -/
structure AgreeOn (network : Str) (kr kr' : Keyring) : Prop where
  config : ∀ row : ChannelConfig, inNetwork network row.channel = true →
    (row ∈ kr.channelConfig ↔ row ∈ kr'.channelConfig)
  outgoing : ∀ row : OutgoingSession, inNetwork network row.channel = true →
    (row ∈ kr.outgoing ↔ row ∈ kr'.outgoing)
  incoming : ∀ row : IncomingRow, inNetwork network row.session.channel = true →
    (row ∈ kr.incoming ↔ row ∈ kr'.incoming)
  recipients : ∀ row : OutgoingRecipient, inNetwork network row.channel = true →
    (row ∈ kr.recipients ↔ row ∈ kr'.recipients)
  autotrust : ∀ rule : AutotrustRule,
    rule.scope = Keyring.globalScope ∨ inNetwork network rule.scope = true →
      (rule ∈ kr.autotrust ↔ rule ∈ kr'.autotrust)

/-- More than one network is configured. -/
def Keyring.Multihomed (kr : Keyring) : Prop := 2 ≤ kr.configuredNetworks.rows.length

end Agreement

section Reads

variable {kr kr' : Keyring} {network : Str} (wire : Str)

theorem Keyring.Multihomed.disallowed (many : kr.Multihomed) : kr.legacyAdoptionAllowed = false := by
  unfold Multihomed at many
  simp only [legacyAdoptionAllowed, decide_eq_false_iff_not]
  omega

theorem Keyring.Multihomed.legacyFallback (many : kr.Multihomed) (channel : Str) :
    kr.legacyFallback channel = none := by
  unfold Keyring.legacyFallback
  rw [many.disallowed]
  cases legacyWireFallback channel <;> rfl

theorem AgreeOn.getOutgoingSession (agree : AgreeOn network kr kr') (many : kr.Multihomed)
    (many' : kr'.Multihomed) :
    kr.getOutgoingSession (scopedContext network wire) =
      kr'.getOutgoingSession (scopedContext network wire) := by
  have exact : kr.getOutgoingSessionExact (scopedContext network wire) =
      kr'.getOutgoingSessionExact (scopedContext network wire) :=
    Table.find?_congr _ _ _ fun row keyed =>
      agree.outgoing row (keyed ▸ inNetwork_scopedContext network wire)
  unfold Keyring.getOutgoingSession
  rw [exact, many.legacyFallback, many'.legacyFallback]
  rfl

theorem AgreeOn.continuedRow (agree : AgreeOn network kr kr') (many : kr.Multihomed)
    (many' : kr'.Multihomed) (handle : Str) :
    kr.getIncomingRow handle (scopedContext network wire) =
      kr'.getIncomingRow handle (scopedContext network wire) ∧
    kr.continuedRow handle (scopedContext network wire) =
      kr'.continuedRow handle (scopedContext network wire) := by
  have exact : kr.getIncomingRow handle (scopedContext network wire) =
      kr'.getIncomingRow handle (scopedContext network wire) :=
    Table.find?_congr _ _ _ fun row keyed => by
      have channel : row.session.channel = scopedContext network wire := congrArg Prod.snd keyed
      exact agree.incoming row (channel ▸ inNetwork_scopedContext network wire)
  refine ⟨exact, ?_⟩
  unfold Keyring.continuedRow
  rw [exact, many.legacyFallback, many'.legacyFallback]
  rfl

theorem AgreeOn.getIncomingSession (agree : AgreeOn network kr kr') (many : kr.Multihomed)
    (many' : kr'.Multihomed) (handle : Str) :
    kr.getIncomingSession handle (scopedContext network wire) =
      kr'.getIncomingSession handle (scopedContext network wire) := by
  rw [Keyring.getIncomingSession_eq, Keyring.getIncomingSession_eq,
    (agree.continuedRow wire many many' handle).2]

theorem AgreeOn.getIncomingPrevKey (agree : AgreeOn network kr kr') (many : kr.Multihomed)
    (many' : kr'.Multihomed) (handle : Str) :
    kr.getIncomingPrevKey handle (scopedContext network wire) =
      kr'.getIncomingPrevKey handle (scopedContext network wire) := by
  have exact : kr.getIncomingPrevKeyExact handle (scopedContext network wire) =
      kr'.getIncomingPrevKeyExact handle (scopedContext network wire) := by
    unfold Keyring.getIncomingPrevKeyExact
    rw [(agree.continuedRow wire many many' handle).1]
  unfold Keyring.getIncomingPrevKey
  rw [exact, many.legacyFallback, many'.legacyFallback]
  rfl

theorem AgreeOn.listTrustedPeersForChannel (agree : AgreeOn network kr kr') (many : kr.Multihomed)
    (many' : kr'.Multihomed) :
    (kr.listTrustedPeersForChannel (scopedContext network wire)).Perm
      (kr'.listTrustedPeersForChannel (scopedContext network wire)) := by
  unfold Keyring.listTrustedPeersForChannel
  rw [many.legacyFallback, many'.legacyFallback]
  refine (Table.filter_perm _ _ _ fun row chosen => ?_).map _
  simp only [Bool.and_eq_true, decide_eq_true_eq] at chosen
  exact agree.incoming row (chosen.1 ▸ inNetwork_scopedContext network wire)

theorem AgreeOn.listOutgoingRecipients (agree : AgreeOn network kr kr') (many : kr.Multihomed)
    (many' : kr'.Multihomed) :
    (kr.listOutgoingRecipients (scopedContext network wire)).Perm
      (kr'.listOutgoingRecipients (scopedContext network wire)) := by
  unfold Keyring.listOutgoingRecipients
  rw [many.legacyFallback, many'.legacyFallback]
  refine List.Perm.map _ (((List.perm_insertionSort _ _).trans ?_).trans
    (List.perm_insertionSort _ _).symm)
  refine Table.filter_perm _ _ _ fun row chosen => ?_
  simp only [decide_eq_true_eq] at chosen
  exact agree.recipients row (chosen ▸ inNetwork_scopedContext network wire)

theorem AgreeOn.autotrustMatches (agree : AgreeOn network kr kr') (many : kr.Multihomed)
    (many' : kr'.Multihomed) (lower : Char → List Char) (handle : Str) :
    kr.autotrustMatches lower handle (scopedContext network wire) =
      kr'.autotrustMatches lower handle (scopedContext network wire) := by
  unfold Keyring.autotrustMatches
  rw [many.legacyFallback, many'.legacyFallback]
  rw [Bool.eq_iff_iff]
  simp only [Option.getD_none, List.any_eq_true, Bool.and_eq_true, Bool.or_eq_true,
    decide_eq_true_eq, or_assoc, or_self]
  refine exists_congr fun rule => and_congr_left fun applies => ?_
  refine agree.autotrust rule (applies.1.imp id fun filed => ?_)
  exact filed ▸ inNetwork_scopedContext network wire

end Reads

section Heal

variable {kr kr' : Keyring} {network : Str} (wire : Str)

/-- The context has no row, and the row served for it is the only one of its wire name, filed
under a network that is no longer configured. -/
def Healed (kr : Keyring) (context : Str) : Prop :=
  kr.getChannelConfigExact context = none ∧ ∃ row, kr.getChannelConfig context = some row ∧
    kr.isConfigured (Keyring.contextNetwork row.channel) = false ∧
      isBouncerScope (Keyring.contextNetwork row.channel) = false ∧
        ∀ other, (other ∈ kr.channelConfig ∧
          Keyring.scopedOver (wireContext context) other.channel = true) ↔ other = row

theorem renamedLabelHeal_eq_some (kr : Keyring) (row : ChannelConfig)
    (found : kr.renamedLabelHeal wire = some row) :
    kr.isConfigured (Keyring.contextNetwork row.channel) = false ∧
      isBouncerScope (Keyring.contextNetwork row.channel) = false ∧
        ∀ other, (other ∈ kr.channelConfig ∧ Keyring.scopedOver wire other.channel = true) ↔
          other = row := by
  unfold Keyring.renamedLabelHeal Keyring.uniqueScopedConfigSibling at found
  split at found
  · cases found
  · rename_i healed sibling
    split at sibling
    · rename_i only alone
      cases sibling
      split at found
      · rename_i vanished
        obtain ⟨member, keyed⟩ := (Table.find?_eq_some _ _ _).mp found
        have listed (other : ChannelConfig) : (other ∈ kr.channelConfig ∧
            Keyring.scopedOver wire other.channel = true) ↔ other = only := by
          have member : other ∈ [only] ↔ other = only := List.mem_singleton
          rw [← member, ← alone, List.mem_filter]
          rfl
        have same : row = only :=
          Table.mem_eq _ row only member ((listed only).mpr rfl).1 keyed
        exact same ▸ ⟨vanished.2.1, vanished.2.2, listed⟩
      · cases found
    · cases sibling

theorem Keyring.Multihomed.getChannelConfig (many : kr.Multihomed) (context : Str)
    (missing : kr.getChannelConfigExact context = none) :
    kr.getChannelConfig context = none ∨ Healed kr context := by
  cases found : kr.getChannelConfig context with
  | none => exact Or.inl rfl
  | some row =>
      refine Or.inr ⟨missing, row, found, ?_⟩
      simp only [Keyring.getChannelConfig, missing, many.disallowed, Bool.false_eq_true, if_false]
        at found
      split at found
      · cases found
      · rename_i wire fallback
        have named : wire = wireContext context := by
          unfold legacyWireFallback at fallback
          simp only [Option.ite_none_left_eq_some, Option.ite_none_right_eq_some,
            Option.some.injEq] at fallback
          exact fallback.2.2.symm
        exact named ▸ renamedLabelHeal_eq_some wire kr row found

theorem AgreeOn.getChannelConfig (agree : AgreeOn network kr kr') (many : kr.Multihomed)
    (many' : kr'.Multihomed) :
    kr.getChannelConfig (scopedContext network wire) =
        kr'.getChannelConfig (scopedContext network wire) ∨
      Healed kr (scopedContext network wire) ∨ Healed kr' (scopedContext network wire) := by
  have exact : kr.getChannelConfigExact (scopedContext network wire) =
      kr'.getChannelConfigExact (scopedContext network wire) :=
    Table.find?_congr _ _ _ fun row keyed =>
      agree.config row (keyed ▸ inNetwork_scopedContext network wire)
  cases found : kr'.getChannelConfigExact (scopedContext network wire) with
  | some row =>
      refine Or.inl ?_
      unfold Keyring.getChannelConfig
      rw [exact, found]
  | none =>
      rcases many.getChannelConfig _ (exact.trans found) with nothing | healed
      · rcases many'.getChannelConfig _ found with nothing' | healed
        · exact Or.inl (nothing.trans nothing'.symm)
        · exact Or.inr (Or.inr healed)
      · exact Or.inr (Or.inl healed)

end Heal

section Noninterference

variable {kr kr' : Keyring} {network : Str} (wire : Str)

/-- The tables the lists are read from hold the rows of the network in the same order. -/
structure InOrder (network : Str) (kr kr' : Keyring) : Prop where
  incoming : (kr.incoming.rows.filter fun row => inNetwork network row.session.channel) =
    kr'.incoming.rows.filter fun row => inNetwork network row.session.channel
  recipients : (kr.recipients.rows.filter fun row => inNetwork network row.channel) =
    kr'.recipients.rows.filter fun row => inNetwork network row.channel

theorem filter_eq_of_filter_eq {α : Type} (rows rows' : List α) (kind chosen : α → Bool)
    (within : ∀ r, chosen r = true → kind r = true) (same : rows.filter kind = rows'.filter kind) :
    rows.filter chosen = rows'.filter chosen := by
  have through (list : List α) : list.filter chosen = (list.filter kind).filter chosen := by
    rw [List.filter_filter]
    refine List.filter_congr fun r _ => ?_
    cases picked : chosen r with
    | false => rfl
    | true => simp [within r picked]
  rw [through rows, through rows', same]

theorem InOrder.lists (order : InOrder network kr kr') (many : kr.Multihomed)
    (many' : kr'.Multihomed) :
    kr.listOutgoingRecipients (scopedContext network wire) =
        kr'.listOutgoingRecipients (scopedContext network wire) ∧
      kr.listTrustedPeersForChannel (scopedContext network wire) =
        kr'.listTrustedPeersForChannel (scopedContext network wire) := by
  unfold Keyring.listOutgoingRecipients Keyring.listTrustedPeersForChannel
  rw [many.legacyFallback, many'.legacyFallback]
  unfold Keyring.listOutgoingRecipientsExact Keyring.listTrustedPeersForChannelExact
  constructor
  · rw [filter_eq_of_filter_eq _ _ _ _ (fun row chosen => ?_) order.recipients]
    simp only [decide_eq_true_eq] at chosen
    exact chosen ▸ inNetwork_scopedContext network wire
  · rw [filter_eq_of_filter_eq _ _ _ _ (fun row chosen => ?_) order.incoming]
    simp only [Bool.and_eq_true, decide_eq_true_eq] at chosen
    exact chosen.1 ▸ inNetwork_scopedContext network wire

/-- With several networks configured, the reads for a context of one network tell nothing about
the rows of the others or about unscoped rows, except that a channel without a row may be served
the only row of its wire name when that one belongs to a network that is no longer configured. -/
theorem networks_do_not_interfere (network wire : Str) (kr kr' : Keyring)
    (agree : AgreeOn network kr kr') (many : kr.Multihomed) (many' : kr'.Multihomed) :
    let context := scopedContext network wire
    (kr.getChannelConfig context = kr'.getChannelConfig context ∨ Healed kr context ∨
        Healed kr' context) ∧
      kr.getOutgoingSession context = kr'.getOutgoingSession context ∧
      (∀ handle, kr.getIncomingSession handle context = kr'.getIncomingSession handle context) ∧
      (∀ handle, kr.getIncomingPrevKey handle context = kr'.getIncomingPrevKey handle context) ∧
      (kr.listOutgoingRecipients context).Perm (kr'.listOutgoingRecipients context) ∧
      (kr.listTrustedPeersForChannel context).Perm (kr'.listTrustedPeersForChannel context) ∧
      (InOrder network kr kr' → kr.listOutgoingRecipients context = kr'.listOutgoingRecipients context ∧
        kr.listTrustedPeersForChannel context = kr'.listTrustedPeersForChannel context) ∧
      ∀ lower handle, kr.autotrustMatches lower handle context =
        kr'.autotrustMatches lower handle context :=
  ⟨agree.getChannelConfig wire many many', agree.getOutgoingSession wire many many',
    agree.getIncomingSession wire many many', agree.getIncomingPrevKey wire many many',
    agree.listOutgoingRecipients wire many many',
    agree.listTrustedPeersForChannel wire many many', fun order => order.lists wire many many',
    agree.autotrustMatches wire many many'⟩

end Noninterference

section Neighbours

variable (kr : Keyring) (network : Str)

theorem agreeOn_setChannelConfig (cfg : ChannelConfig)
    (outside : inNetwork network cfg.channel = false) :
    AgreeOn network kr (kr.setChannelConfig cfg) := by
  refine ⟨fun row inside => ?_, fun _ _ => Iff.rfl, fun _ _ => Iff.rfl, fun _ _ => Iff.rfl,
    fun _ _ => Iff.rfl⟩
  have apart : row.channel ≠ cfg.channel := fun same => by simp [same, outside] at inside
  refine ⟨fun member => (Table.mem_replace _ _ _).mpr (Or.inl ⟨member, apart⟩), fun member => ?_⟩
  rcases (Table.mem_replace _ _ _).mp member with ⟨kept, -⟩ | rfl
  · exact kept
  · exact absurd rfl apart

theorem agreeOn_setOutgoingSession (channel : Str) (sk : SessionKey) (t : Int)
    (outside : inNetwork network channel = false) :
    AgreeOn network kr (kr.setOutgoingSession channel sk t) := by
  refine ⟨fun _ _ => Iff.rfl, fun row inside => ?_, fun _ _ => Iff.rfl, fun _ _ => Iff.rfl,
    fun _ _ => Iff.rfl⟩
  have apart : row.channel ≠ channel := fun same => by simp [same, outside] at inside
  refine ⟨fun member => (Table.mem_replace _ _ _).mpr (Or.inl ⟨member, apart⟩), fun member => ?_⟩
  rcases (Table.mem_replace _ _ _).mp member with ⟨kept, -⟩ | rfl
  · exact kept
  · exact absurd rfl apart

def twoNetworks : Keyring := Keyring.empty.setConfiguredNetworks ["net".toList, "other".toList]

def homeRoom : Str := scopedContext "net".toList "#room".toList
def oldRoom : Str := scopedContext "old".toList "#room".toList
def otherRoom : Str := scopedContext "other".toList "#room".toList

/-- A row left behind by a network that was renamed is served to the one that has none. -/
theorem renamed_network_row_is_served :
    let leftBehind := twoNetworks.setChannelConfig ⟨oldRoom, true, .normal⟩
    AgreeOn "net".toList twoNetworks leftBehind ∧ twoNetworks.Multihomed ∧ leftBehind.Multihomed ∧
      twoNetworks.getChannelConfig homeRoom = none ∧
        leftBehind.getChannelConfig homeRoom = some ⟨oldRoom, true, .normal⟩ :=
  ⟨agreeOn_setChannelConfig _ _ _ (by decide +kernel), Nat.le_refl 2, Nat.le_refl 2,
    by decide +kernel, by decide +kernel⟩

def ownKey : Keyring := twoNetworks.setOutgoingSession homeRoom (List.replicate keyLen 1) 0

theorem networks_do_not_interfere_room :
    ownKey.getOutgoingSession homeRoom =
        (ownKey.setOutgoingSession otherRoom zeroKey 0).getOutgoingSession homeRoom ∧
      (ownKey.getOutgoingSession homeRoom).isSome = true :=
  ⟨(networks_do_not_interfere "net".toList "#room".toList ownKey
    (ownKey.setOutgoingSession otherRoom zeroKey 0)
    (agreeOn_setOutgoingSession _ _ _ _ _ (by decide +kernel)) (Nat.le_refl 2)
    (Nat.le_refl 2)).2.1, by decide +kernel⟩

end Neighbours

end Repartee.E2e
