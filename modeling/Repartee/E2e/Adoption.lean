import Repartee.E2e.Keyring

/-!
The migration of unscoped rows to the one configured network, and what the scoped reads make of
the keyring before and after it.
-/

namespace Repartee.E2e

open Text Lib

section Readers

/-- One network is configured, directly, and its label can be told from what follows it. -/
structure SoleNetwork (kr : Keyring) (network : Str) : Prop where
  only : kr.configuredNetworks.rows = [network]
  label : contextNetSeparator ∉ network
  direct : isBouncerScope network = false

def ChannelConfig.filedAt (context : Str) (cfg : ChannelConfig) : ChannelConfig :=
  { cfg with channel := context }

def OutgoingSession.filedAt (context : Str) (sess : OutgoingSession) : OutgoingSession :=
  { sess with channel := context }

def IncomingSession.filedAt (context : Str) (sess : IncomingSession) : IncomingSession :=
  { sess with channel := context }

variable {kr : Keyring} {network : Str} (wire : Str)

theorem isBouncerScope_scopedContext (label : contextNetSeparator ∉ network) :
    isBouncerScope (scopedContext network wire) = isBouncerScope network := by
  unfold isBouncerScope scopedContext
  rw [splitOnce_append _ _ _ label, (splitOnce_eq_none _ _).mpr label]

theorem SoleNetwork.legacyWireFallback (sole : SoleNetwork kr network) :
    legacyWireFallback (scopedContext network wire) = some wire := by
  unfold E2e.legacyWireFallback
  rw [isBouncerScope_scopedContext wire sole.label, sole.direct,
    wireContext_scopedContext _ _ sole.label]
  simp [(scopedContext_ne network wire).symm]

theorem SoleNetwork.allowed (sole : SoleNetwork kr network) : kr.legacyAdoptionAllowed = true := by
  simp [Keyring.legacyAdoptionAllowed, sole.only]

theorem SoleNetwork.legacyFallback (sole : SoleNetwork kr network) :
    kr.legacyFallback (scopedContext network wire) = some wire := by
  unfold Keyring.legacyFallback
  rw [sole.legacyWireFallback, sole.allowed]
  rfl

theorem SoleNetwork.getOutgoingSession (sole : SoleNetwork kr network) :
    kr.getOutgoingSession (scopedContext network wire) =
      (kr.outgoing.find? (scopedContext network wire)).or (kr.outgoing.find? wire) := by
  unfold Keyring.getOutgoingSession Keyring.getOutgoingSessionExact
  rw [sole.legacyFallback]
  cases kr.outgoing.find? (scopedContext network wire) <;> rfl

theorem SoleNetwork.getIncomingSession (sole : SoleNetwork kr network) (handle : Str) :
    kr.getIncomingSession handle (scopedContext network wire) =
      ((kr.incoming.find? (handle, scopedContext network wire)).or
        (kr.incoming.find? (handle, wire))).map IncomingRow.session := by
  rw [Keyring.getIncomingSession_eq]
  unfold Keyring.continuedRow Keyring.getIncomingRow
  rw [sole.legacyFallback]
  cases kr.incoming.find? (handle, scopedContext network wire) <;> rfl

theorem SoleNetwork.getChannelConfig (sole : SoleNetwork kr network) :
    kr.getChannelConfig (scopedContext network wire) =
      ((kr.channelConfig.find? (scopedContext network wire)).or (kr.channelConfig.find? wire)).or
        (kr.renamedLabelHeal wire) := by
  unfold Keyring.getChannelConfig Keyring.getChannelConfigExact
  rw [sole.legacyWireFallback, sole.allowed]
  cases kr.channelConfig.find? (scopedContext network wire) with
  | some cfg => rfl
  | none =>
      simp only [if_true, Option.none_or]
      cases kr.channelConfig.find? wire <;> rfl

/-- The heal serves the only scoped row of the wire name. -/
theorem renamedLabelHeal_eq (kr : Keyring) :
    kr.renamedLabelHeal wire =
      match kr.channelConfig.rows.filter fun cfg => Keyring.scopedOver wire cfg.channel with
      | [only] =>
          if kr.configuredNetworks.rows ≠ [] ∧
              kr.isConfigured (Keyring.contextNetwork only.channel) = false ∧
                isBouncerScope (Keyring.contextNetwork only.channel) = false then some only
          else none
      | _ => none := by
  unfold Keyring.renamedLabelHeal Keyring.uniqueScopedConfigSibling
  cases listed : kr.channelConfig.rows.filter fun cfg => Keyring.scopedOver wire cfg.channel with
  | nil => rfl
  | cons only rest =>
      cases rest with
      | nil =>
          have member : only ∈ kr.channelConfig :=
            (List.mem_filter.mp (listed ▸ List.mem_singleton.mpr rfl)).1
          have found : kr.getChannelConfigExact only.channel = some only :=
            (Table.find?_eq_some _ _ _).mpr ⟨member, rfl⟩
          simp only [found]
      | cons second rest => rfl

/-- A session is listed from its scoped row, or from an unscoped one when no scoped row of the
handle is listed. -/
theorem SoleNetwork.mem_listTrusted (sole : SoleNetwork kr network) (sess : IncomingSession) :
    sess ∈ kr.listTrustedPeersForChannel (scopedContext network wire) ↔
      ∃ row, kr.incoming.Listed
        (fun r => r.session.channel = scopedContext network wire ∧ r.session.status = .trusted)
        (fun r => r.session.channel = wire ∧ r.session.status = .trusted)
        (fun r => r.session.handle) row ∧ row.session = sess := by
  unfold Keyring.listTrustedPeersForChannel Keyring.listTrustedPeersForChannelExact Table.Listed
  rw [sole.legacyFallback]
  simp only [List.mem_append, List.mem_filter, List.mem_map, Bool.and_eq_true, decide_eq_true_eq,
    Bool.not_eq_true', List.any_eq_false, forall_exists_index, and_imp, Table.mem_iff]
  constructor
  · rintro (⟨row, ⟨member, here⟩, rfl⟩ | ⟨⟨row, ⟨member, there⟩, rfl⟩, alone⟩)
    · exact ⟨row, ⟨member, Or.inl here⟩, rfl⟩
    · exact ⟨row, ⟨member, Or.inr ⟨there, fun y inY filed trusted =>
        alone y.session y inY filed trusted rfl⟩⟩, rfl⟩
  · rintro ⟨row, ⟨member, here | ⟨there, alone⟩⟩, rfl⟩
    · exact Or.inl ⟨row, ⟨member, here⟩, rfl⟩
    · refine Or.inr ⟨⟨row, ⟨member, there⟩, rfl⟩, ?_⟩
      rintro _ y inY filed trusted rfl
      exact alone y inY filed trusted

theorem SoleNetwork.mem_listRecipients (sole : SoleNetwork kr network) (entry : Str × Fingerprint) :
    entry ∈ kr.listOutgoingRecipients (scopedContext network wire) ↔
      ∃ row, kr.recipients.Listed (fun r => r.channel = scopedContext network wire)
        (fun r => r.channel = wire) (fun r => r.handle) row ∧
          (row.handle, row.fingerprint) = entry := by
  unfold Keyring.listOutgoingRecipients Keyring.listOutgoingRecipientsExact Table.Listed
  rw [sole.legacyFallback]
  simp only [List.mem_append, List.mem_filter, List.mem_map, List.mem_insertionSort,
    decide_eq_true_eq, Bool.not_eq_true', List.any_eq_false, forall_exists_index, and_imp,
    Table.mem_iff]
  constructor
  · rintro (⟨row, ⟨member, here⟩, rfl⟩ | ⟨⟨row, ⟨member, there⟩, rfl⟩, alone⟩)
    · exact ⟨row, ⟨member, Or.inl here⟩, rfl⟩
    · exact ⟨row, ⟨member, Or.inr ⟨there, fun y inY filed => alone _ y inY filed rfl⟩⟩, rfl⟩
  · rintro ⟨row, ⟨member, here | ⟨there, alone⟩⟩, rfl⟩
    · exact Or.inl ⟨row, ⟨member, here⟩, rfl⟩
    · refine Or.inr ⟨⟨row, ⟨member, there⟩, rfl⟩, ?_⟩
      rintro _ y inY filed rfl
      exact alone y inY filed

theorem SoleNetwork.autotrustMatches (sole : SoleNetwork kr network) (lower : Char → List Char)
    (handle : Str) :
    kr.autotrustMatches lower handle (scopedContext network wire) = true ↔
      ∃ rule ∈ kr.autotrust, (rule.scope = Keyring.globalScope ∨ rule.scope = scopedContext network wire ∨
        rule.scope = wire) ∧ Keyring.globMatchesCi lower rule.handlePattern handle = true := by
  unfold Keyring.autotrustMatches
  rw [sole.legacyFallback]
  simp only [Option.getD_some, List.any_eq_true, Bool.and_eq_true, Bool.or_eq_true,
    decide_eq_true_eq, or_assoc, Table.mem_iff]

end Readers

section Step

/-- The scoped reads tell no difference between the keyrings, but for the stored context and the
order of the lists. -/
structure SameReads (network : Str) (kr kr' : Keyring) : Prop where
  config : ∀ wire, contextNetSeparator ∉ wire →
    (kr'.getChannelConfig (scopedContext network wire)).map
        (ChannelConfig.filedAt (scopedContext network wire)) =
      (kr.getChannelConfig (scopedContext network wire)).map
        (ChannelConfig.filedAt (scopedContext network wire))
  outgoing : ∀ wire, contextNetSeparator ∉ wire →
    (kr'.getOutgoingSession (scopedContext network wire)).map
        (OutgoingSession.filedAt (scopedContext network wire)) =
      (kr.getOutgoingSession (scopedContext network wire)).map
        (OutgoingSession.filedAt (scopedContext network wire))
  incoming : ∀ wire handle, contextNetSeparator ∉ wire →
    (kr'.getIncomingSession handle (scopedContext network wire)).map
        (IncomingSession.filedAt (scopedContext network wire)) =
      (kr.getIncomingSession handle (scopedContext network wire)).map
        (IncomingSession.filedAt (scopedContext network wire))
  trusted : ∀ wire sess, contextNetSeparator ∉ wire →
    (sess ∈ (kr'.listTrustedPeersForChannel (scopedContext network wire)).map
        (IncomingSession.filedAt (scopedContext network wire)) ↔
      sess ∈ (kr.listTrustedPeersForChannel (scopedContext network wire)).map
        (IncomingSession.filedAt (scopedContext network wire)))
  recipients : ∀ wire entry, contextNetSeparator ∉ wire →
    (entry ∈ kr'.listOutgoingRecipients (scopedContext network wire) ↔
      entry ∈ kr.listOutgoingRecipients (scopedContext network wire))
  autotrust : ∀ wire lower handle, contextNetSeparator ∉ wire →
    kr'.autotrustMatches lower handle (scopedContext network wire) =
      kr.autotrustMatches lower handle (scopedContext network wire)

theorem SameReads.refl (network : Str) (kr : Keyring) : SameReads network kr kr :=
  ⟨fun _ _ => rfl, fun _ _ => rfl, fun _ _ _ => rfl, fun _ _ _ => Iff.rfl, fun _ _ _ => Iff.rfl,
    fun _ _ _ _ => rfl⟩

theorem SameReads.trans {network : Str} {kr kr' kr'' : Keyring} (first : SameReads network kr kr')
    (second : SameReads network kr' kr'') : SameReads network kr kr'' where
  config wire plain := (second.config wire plain).trans (first.config wire plain)
  outgoing wire plain := (second.outgoing wire plain).trans (first.outgoing wire plain)
  incoming wire handle plain :=
    (second.incoming wire handle plain).trans (first.incoming wire handle plain)
  trusted wire sess plain := (second.trusted wire sess plain).trans (first.trusted wire sess plain)
  recipients wire entry plain :=
    (second.recipients wire entry plain).trans (first.recipients wire entry plain)
  autotrust wire lower handle plain :=
    (second.autotrust wire lower handle plain).trans (first.autotrust wire lower handle plain)

/-- No scoped session that is not trusted stands before a trusted unscoped one of its peer. -/
def Unshadowed (network : Str) (kr : Keyring) : Prop :=
  ∀ row ∈ kr.incoming, ∀ legacy ∈ kr.incoming, legacy.session.handle = row.session.handle →
    contextNetSeparator ∉ legacy.session.channel →
      row.session.channel = scopedContext network legacy.session.channel →
        legacy.session.status = .trusted → row.session.status = .trusted

variable {kr : Keyring} {network moved : Str} (sole : SoleNetwork kr network)
  (plain : contextNetSeparator ∉ moved) (wire : Str) (clean : contextNetSeparator ∉ wire)

include plain in
theorem scopedContext_ne_plain (wire : Str) : scopedContext network wire ≠ moved := fun same =>
  plain (same ▸ separator_mem_scopedContext network wire)

theorem SoleNetwork.migrated (sole : SoleNetwork kr network) (moved : Str) :
    SoleNetwork (kr.migrateLegacyContext moved network) network :=
  ⟨sole.only, sole.label, sole.direct⟩

include plain in
/-- The contexts a read for another wire name looks at take no part in the migration. -/
theorem scopedContext_elsewhere (other : wire ≠ moved) (context : Str)
    (read : context = scopedContext network wire ∨ context = wire)
    (clean : contextNetSeparator ∉ wire) : context ≠ moved ∧ scopedContext network moved ≠ context := by
  rcases read with rfl | rfl
  · exact ⟨scopedContext_ne_plain plain wire, fun same => other ((scopedContext_inj _ _ _).mp same).symm⟩
  · exact ⟨other, scopedContext_ne_plain clean moved⟩

include sole plain clean in
theorem migrate_outgoing :
    ((kr.migrateLegacyContext moved network).getOutgoingSession (scopedContext network wire)).map
        (OutgoingSession.filedAt (scopedContext network wire)) =
      (kr.getOutgoingSession (scopedContext network wire)).map
        (OutgoingSession.filedAt (scopedContext network wire)) := by
  rw [(sole.migrated moved).getOutgoingSession, sole.getOutgoingSession]
  by_cases same : wire = moved
  · subst same
    exact Table.find?_or_move kr.outgoing (fun r => r.channel = wire)
      (OutgoingSession.filedAt (scopedContext network wire)) _
      (fun _ => decide_eq_false (scopedContext_ne_plain plain wire)) _ (fun _ => rfl) _ _
      (fun r here => decide_eq_true here)
      (fun r here => decide_eq_false fun filed =>
        scopedContext_ne_plain plain wire (here.symm.trans filed))
      fun r chosen => ⟨fun _ => of_decide_eq_true chosen, fun _ => rfl⟩
  · have elsewhere (context : Str) (read : context = scopedContext network wire ∨ context = wire) :
        (kr.migrateLegacyContext moved network).outgoing.find? context =
          kr.outgoing.find? context := by
      obtain ⟨apart, away⟩ := scopedContext_elsewhere plain wire same context read clean
      exact Table.find?_move_elsewhere kr.outgoing (fun r => r.channel = moved)
        (OutgoingSession.filedAt (scopedContext network moved)) _
        (fun _ => decide_eq_false (scopedContext_ne_plain plain moved)) context
        (fun r here => decide_eq_false fun filed => apart (here.symm.trans filed)) fun r _ => away
    rw [elsewhere _ (Or.inl rfl), elsewhere _ (Or.inr rfl)]

include sole plain clean in
theorem migrate_incoming (handle : Str) :
    ((kr.migrateLegacyContext moved network).getIncomingSession handle
        (scopedContext network wire)).map (IncomingSession.filedAt (scopedContext network wire)) =
      (kr.getIncomingSession handle (scopedContext network wire)).map
        (IncomingSession.filedAt (scopedContext network wire)) := by
  rw [(sole.migrated moved).getIncomingSession, sole.getIncomingSession, Option.map_map,
    Option.map_map]
  by_cases same : wire = moved
  · subst same
    exact Table.find?_or_move kr.incoming (fun r => r.session.channel = wire)
      (fun r => { r with session := r.session.filedAt (scopedContext network wire) }) _
      (fun _ => decide_eq_false (scopedContext_ne_plain plain wire)) _ (fun _ => rfl) _ _
      (fun r here => decide_eq_true (congrArg Prod.snd here))
      (fun r here => decide_eq_false fun filed =>
        scopedContext_ne_plain plain wire ((congrArg Prod.snd here).symm.trans filed))
      fun r chosen => by
        have filed : r.session.channel = wire := of_decide_eq_true chosen
        simp [IncomingRow.key, IncomingSession.filedAt, filed]
  · have elsewhere (context : Str) (read : context = scopedContext network wire ∨ context = wire) :
        (kr.migrateLegacyContext moved network).incoming.find? (handle, context) =
          kr.incoming.find? (handle, context) := by
      obtain ⟨apart, away⟩ := scopedContext_elsewhere plain wire same context read clean
      exact Table.find?_move_elsewhere kr.incoming (fun r => r.session.channel = moved)
        (fun r => { r with session := r.session.filedAt (scopedContext network moved) }) _
        (fun _ => decide_eq_false (scopedContext_ne_plain plain moved)) (handle, context)
        (fun r here => decide_eq_false fun filed =>
          apart ((congrArg Prod.snd here).symm.trans filed))
        fun r _ here => away (congrArg Prod.snd here)
    rw [elsewhere _ (Or.inl rfl), elsewhere _ (Or.inr rfl)]

include sole plain in
/-- The heal looks for a scoped row, and the migration makes one only where a row was to be read
without it. -/
theorem migrate_heal (unread : wire = moved → kr.channelConfig.find? moved = none) :
    (kr.migrateLegacyContext moved network).renamedLabelHeal wire = kr.renamedLabelHeal wire := by
  have rows : ((kr.migrateLegacyContext moved network).channelConfig.rows.filter fun cfg =>
      Keyring.scopedOver wire cfg.channel) =
        kr.channelConfig.rows.filter fun cfg => Keyring.scopedOver wire cfg.channel := by
    refine Table.filter_move kr.channelConfig (fun r => r.channel = moved)
      (ChannelConfig.filedAt (scopedContext network moved)) _ _ (fun r _ chosen => ?_)
      fun r member chosen => ?_
    · rw [of_decide_eq_true chosen, Keyring.scopedOver, (splitOnce_eq_none _ _).mpr plain]
    · have apart : moved ≠ wire := fun same =>
        (Table.find?_eq_none _ _).mp (unread same.symm) r member (of_decide_eq_true chosen)
      simp [Keyring.scopedOver, ChannelConfig.filedAt, scopedContext,
        splitOnce_append _ _ _ sole.label, apart]
  rw [renamedLabelHeal_eq, renamedLabelHeal_eq, rows]
  rfl

include sole plain clean in
theorem migrate_config :
    ((kr.migrateLegacyContext moved network).getChannelConfig (scopedContext network wire)).map
        (ChannelConfig.filedAt (scopedContext network wire)) =
      (kr.getChannelConfig (scopedContext network wire)).map
        (ChannelConfig.filedAt (scopedContext network wire)) := by
  rw [(sole.migrated moved).getChannelConfig, sole.getChannelConfig]
  by_cases same : wire = moved
  · subst same
    have stored : (((kr.migrateLegacyContext wire network).channelConfig.find?
        (scopedContext network wire)).or ((kr.migrateLegacyContext wire
          network).channelConfig.find? wire)).map
            (ChannelConfig.filedAt (scopedContext network wire)) =
        ((kr.channelConfig.find? (scopedContext network wire)).or
          (kr.channelConfig.find? wire)).map (ChannelConfig.filedAt (scopedContext network wire)) :=
      Table.find?_or_move kr.channelConfig (fun r => r.channel = wire)
        (ChannelConfig.filedAt (scopedContext network wire)) _
        (fun _ => decide_eq_false (scopedContext_ne_plain plain wire)) _ (fun _ => rfl) _ _
        (fun r here => decide_eq_true here)
        (fun r here => decide_eq_false fun filed =>
          scopedContext_ne_plain plain wire (here.symm.trans filed))
        fun r chosen => ⟨fun _ => of_decide_eq_true chosen, fun _ => rfl⟩
    simp only [Option.map_or] at stored ⊢
    rw [stored, ← Option.map_or]
    cases found : (kr.channelConfig.find? (scopedContext network wire)).or
        (kr.channelConfig.find? wire) with
    | some cfg => rfl
    | none => rw [migrate_heal sole plain wire fun _ => (Option.or_eq_none_iff.mp found).2]
  · have elsewhere (context : Str) (read : context = scopedContext network wire ∨ context = wire) :
        (kr.migrateLegacyContext moved network).channelConfig.find? context =
          kr.channelConfig.find? context := by
      obtain ⟨apart, away⟩ := scopedContext_elsewhere plain wire same context read clean
      exact Table.find?_move_elsewhere kr.channelConfig (fun r => r.channel = moved)
        (ChannelConfig.filedAt (scopedContext network moved)) _
        (fun _ => decide_eq_false (scopedContext_ne_plain plain moved)) context
        (fun r here => decide_eq_false fun filed => apart (here.symm.trans filed)) fun r _ => away
    rw [elsewhere _ (Or.inl rfl), elsewhere _ (Or.inr rfl),
      migrate_heal sole plain wire fun read => absurd read same]

include sole plain clean in
theorem migrate_recipients (entry : Str × Fingerprint) :
    entry ∈ (kr.migrateLegacyContext moved network).listOutgoingRecipients
        (scopedContext network wire) ↔
      entry ∈ kr.listOutgoingRecipients (scopedContext network wire) := by
  rw [(sole.migrated moved).mem_listRecipients, sole.mem_listRecipients]
  by_cases same : wire = moved
  · subst same
    refine Table.listed_move kr.recipients (fun r => r.channel = wire)
      (fun r => { r with channel := scopedContext network wire }) _
      (fun _ => decide_eq_false (scopedContext_ne_plain plain wire)) _ _ _
      (fun r => (r.handle, r.fingerprint)) (fun _ => rfl) (fun r here => decide_eq_true here)
      (fun r here => decide_eq_false fun filed =>
        scopedContext_ne_plain plain wire (here.symm.trans filed))
      (fun r chosen => ⟨fun _ => of_decide_eq_true chosen, fun _ => rfl⟩)
      (fun y r there _ alike => Prod.ext there alike) (fun z _ r _ _ keyed => ?_) entry
    exact Prod.ext_iff.mp keyed
  · refine exists_congr fun row => and_congr_left fun _ => ?_
    refine Table.listed_move_elsewhere kr.recipients (fun r => r.channel = moved)
      (fun r => { r with channel := scopedContext network moved }) _
      (fun _ => decide_eq_false (scopedContext_ne_plain plain moved)) _ _ _ (fun r read => ?_)
      (fun r _ read => ?_) row
    · exact decide_eq_false (scopedContext_elsewhere plain wire same r.channel read clean).1
    · exact (scopedContext_elsewhere plain wire same _ read clean).2 rfl

include sole plain clean in
theorem migrate_trusted (unshadowed : Unshadowed network kr) (sess : IncomingSession) :
    sess ∈ ((kr.migrateLegacyContext moved network).listTrustedPeersForChannel
        (scopedContext network wire)).map (IncomingSession.filedAt (scopedContext network wire)) ↔
      sess ∈ (kr.listTrustedPeersForChannel (scopedContext network wire)).map
        (IncomingSession.filedAt (scopedContext network wire)) := by
  simp only [List.mem_map, (sole.migrated moved).mem_listTrusted, sole.mem_listTrusted,
    exists_exists_and_eq_and]
  by_cases same : wire = moved
  · subst same
    refine Table.listed_move kr.incoming (fun r => r.session.channel = wire)
      (fun r => { r with session := r.session.filedAt (scopedContext network wire) }) _
      (fun _ => decide_eq_false (scopedContext_ne_plain plain wire)) _ _ _
      (fun r => r.session.filedAt (scopedContext network wire)) (fun _ => rfl)
      (fun r here => decide_eq_true here.1)
      (fun r here => decide_eq_false fun filed =>
        scopedContext_ne_plain plain wire (here.1.symm.trans filed))
      (fun r chosen => and_congr_left fun _ => ⟨fun _ => of_decide_eq_true chosen, fun _ => rfl⟩)
      (fun y r there _ alike => Prod.ext alike there.1) (fun z inZ r inR back keyed => ?_) sess
    obtain ⟨alike, there⟩ := Prod.ext_iff.mp keyed
    have shown := unshadowed z inZ r inR alike.symm (back.1 ▸ plain) (back.1 ▸ there) back.2
    exact ⟨⟨there, shown⟩, alike⟩
  · refine exists_congr fun row => and_congr_left fun _ => ?_
    refine Table.listed_move_elsewhere kr.incoming (fun r => r.session.channel = moved)
      (fun r => { r with session := r.session.filedAt (scopedContext network moved) }) _
      (fun _ => decide_eq_false (scopedContext_ne_plain plain moved)) _ _ _ (fun r read => ?_)
      (fun r _ read => ?_) row
    · have filed := read.imp And.left And.left
      exact decide_eq_false (scopedContext_elsewhere plain wire same r.session.channel filed clean).1
    · have filed := read.imp And.left And.left
      exact (scopedContext_elsewhere plain wire same _ filed clean).2 rfl

include sole plain clean in
theorem migrate_autotrust (named : moved ≠ Keyring.globalScope) (lower : Char → List Char)
    (handle : Str) :
    (kr.migrateLegacyContext moved network).autotrustMatches lower handle
        (scopedContext network wire) =
      kr.autotrustMatches lower handle (scopedContext network wire) := by
  rw [Bool.eq_iff_iff, (sole.migrated moved).autotrustMatches, sole.autotrustMatches]
  have members (rule : AutotrustRule) :
      rule ∈ (kr.migrateLegacyContext moved network).autotrust ↔
        (rule ∈ kr.autotrust ∧ decide (rule.scope = moved) = false) ∨
          ∃ y ∈ kr.autotrust, decide (y.scope = moved) = true ∧
            (∀ z ∈ kr.autotrust, z.key ≠ (scopedContext network moved, y.handlePattern)) ∧
              { y with scope := scopedContext network moved } = rule :=
    Table.mem_move kr.autotrust (fun r => r.scope = moved)
      (fun r => { r with scope := scopedContext network moved }) _
      (fun _ => decide_eq_false (scopedContext_ne_plain plain moved)) rule
  constructor
  · rintro ⟨rule, member, applies, hit⟩
    rcases (members rule).mp member with ⟨kept, -⟩ | ⟨y, inT, chosen, -, rfl⟩
    · exact ⟨rule, kept, applies, hit⟩
    · refine ⟨y, inT, Or.inr (Or.inr ?_), hit⟩
      rcases applies with everywhere | there | here
      · exact absurd everywhere (scopedContext_ne_plain (by decide) moved)
      · exact (of_decide_eq_true chosen).trans ((scopedContext_inj _ _ _).mp there)
      · exact absurd here (scopedContext_ne_plain clean moved)
  · rintro ⟨rule, member, applies, hit⟩
    by_cases chosen : rule.scope = moved
    · have here : rule.scope = wire := by
        rcases applies with everywhere | there | here
        · exact absurd (chosen.symm.trans everywhere) named
        · exact absurd (there.symm.trans chosen) (scopedContext_ne_plain plain wire)
        · exact here
      have target : scopedContext network moved = scopedContext network wire := by rw [← chosen, here]
      by_cases blocked : ∃ z ∈ kr.autotrust, z.key = (scopedContext network moved, rule.handlePattern)
      · obtain ⟨z, inZ, keyed⟩ := blocked
        obtain ⟨there, pattern⟩ := Prod.ext_iff.mp keyed
        refine ⟨z, (members z).mpr (Or.inl ⟨inZ, decide_eq_false fun filed => ?_⟩),
          Or.inr (Or.inl (there.trans target)), ?_⟩
        · exact scopedContext_ne_plain plain moved (there.symm.trans filed)
        · rwa [show z.handlePattern = rule.handlePattern from pattern]
      · refine ⟨{ rule with scope := scopedContext network moved }, (members _).mpr (Or.inr
          ⟨rule, member, decide_eq_true chosen, fun z inZ keyed => blocked ⟨z, inZ, keyed⟩, rfl⟩),
          Or.inr (Or.inl target), hit⟩
    · exact ⟨rule, (members rule).mpr (Or.inl ⟨member, decide_eq_false chosen⟩), applies, hit⟩

include sole plain in
theorem migrate_sameReads (named : moved ≠ Keyring.globalScope) (unshadowed : Unshadowed network kr) :
    SameReads network kr (kr.migrateLegacyContext moved network) where
  config wire clean := migrate_config sole plain wire clean
  outgoing wire clean := migrate_outgoing sole plain wire clean
  incoming wire handle clean := migrate_incoming sole plain wire clean handle
  trusted wire sess clean := migrate_trusted sole plain wire clean unshadowed sess
  recipients wire entry clean := migrate_recipients sole plain wire clean entry
  autotrust wire lower handle clean := migrate_autotrust sole plain wire clean named lower handle

theorem mem_migrate_incoming (plain : contextNetSeparator ∉ moved) (row : IncomingRow) :
    row ∈ (kr.migrateLegacyContext moved network).incoming ↔
      (row ∈ kr.incoming ∧ decide (row.session.channel = moved) = false) ∨
        ∃ y ∈ kr.incoming, decide (y.session.channel = moved) = true ∧
          (∀ z ∈ kr.incoming, z.key ≠ (y.session.handle, scopedContext network moved)) ∧
            { y with session := y.session.filedAt (scopedContext network moved) } = row :=
  Table.mem_move kr.incoming (fun r => r.session.channel = moved)
    (fun r => { r with session := r.session.filedAt (scopedContext network moved) }) _
    (fun _ => decide_eq_false (scopedContext_ne_plain plain moved)) row

include plain in
theorem migrate_unshadowed (unshadowed : Unshadowed network kr) :
    Unshadowed network (kr.migrateLegacyContext moved network) := by
  intro row inRow legacy inLegacy alike clean filed trusted
  rcases (mem_migrate_incoming plain legacy).mp inLegacy with ⟨keptLegacy, other⟩ | ⟨y, -, -, -, rfl⟩
  · rcases (mem_migrate_incoming plain row).mp inRow with ⟨kept, -⟩ | ⟨y, -, -, -, rfl⟩
    · exact unshadowed row kept legacy keptLegacy alike clean filed trusted
    · exact absurd ((scopedContext_inj _ _ _).mp filed).symm (of_decide_eq_false other)
  · exact absurd (separator_mem_scopedContext network moved) clean

end Step

section Adoption

/-- Some table has a row filed under the context. -/
def Keyring.Files (kr : Keyring) (context : Str) : Prop :=
  (∃ row ∈ kr.channelConfig, row.channel = context) ∨ (∃ row ∈ kr.outgoing, row.channel = context) ∨
    (∃ row ∈ kr.incoming, row.session.channel = context) ∨
      (∃ row ∈ kr.recipients, row.channel = context) ∨ ∃ rule ∈ kr.autotrust, rule.scope = context

theorem shape_named (context : Str)
    (shape : (['@'].isPrefixOf context || isChannelTarget context) = true) :
    context ≠ Keyring.globalScope := by
  rintro rfl
  revert shape
  decide

theorem mem_legacyContextValues (kr : Keyring) (context : Str) :
    context ∈ kr.legacyContextValues ↔ kr.Files context ∧ contextNetSeparator ∉ context ∧
      (['@'].isPrefixOf context || isChannelTarget context) = true := by
  unfold Keyring.legacyContextValues Keyring.Files
  simp only [List.mem_dedup, List.mem_filter, List.mem_append, List.mem_map, Bool.and_eq_true,
    Bool.not_eq_true', List.contains_eq_mem, decide_eq_false_iff_not, decide_eq_true_eq, or_assoc,
    Table.mem_iff]
  constructor
  · rintro ⟨config | outgoing | incoming | recipients | ⟨rule, -⟩, clean, shape⟩
    · exact ⟨Or.inl config, clean, shape⟩
    · exact ⟨Or.inr (Or.inl outgoing), clean, shape⟩
    · exact ⟨Or.inr (Or.inr (Or.inl incoming)), clean, shape⟩
    · exact ⟨Or.inr (Or.inr (Or.inr (Or.inl recipients))), clean, shape⟩
    · exact ⟨Or.inr (Or.inr (Or.inr (Or.inr rule))), clean, shape⟩
  · rintro ⟨config | outgoing | incoming | recipients | rule, clean, shape⟩
    · exact ⟨Or.inl config, clean, shape⟩
    · exact ⟨Or.inr (Or.inl outgoing), clean, shape⟩
    · exact ⟨Or.inr (Or.inr (Or.inl incoming)), clean, shape⟩
    · exact ⟨Or.inr (Or.inr (Or.inr (Or.inl recipients))), clean, shape⟩
    · exact ⟨Or.inr (Or.inr (Or.inr (Or.inr ⟨rule, shape_named context shape⟩))), clean, shape⟩

variable {kr : Keyring} {network : Str}

def migrateAll (network : Str) (kr : Keyring) (contexts : List Str) : Keyring :=
  contexts.foldl (fun kr context => kr.migrateLegacyContext context network) kr

theorem SoleNetwork.adopt (sole : SoleNetwork kr network) :
    kr.adoptLegacyContexts = ([], migrateAll network kr kr.legacyContextValues) := by
  have fold (contexts : List Str) (done : List Str) (kr : Keyring) :
      contexts.foldl (Keyring.adoptContext [network]) (done, kr) =
        (done, migrateAll network kr contexts) := by
    induction contexts generalizing kr with
    | nil => rfl
    | cons context rest ih =>
        have step : Keyring.adoptContext [network] (done, kr) context =
            (done, kr.migrateLegacyContext context network) := by
          simp [Keyring.adoptContext, sole.direct]
        rw [List.foldl_cons, step, ih]
        rfl
  unfold Keyring.adoptLegacyContexts
  rw [sole.only]
  exact fold kr.legacyContextValues [] kr

theorem migrateAll_sole (contexts : List Str) (sole : SoleNetwork kr network) :
    SoleNetwork (migrateAll network kr contexts) network := by
  induction contexts generalizing kr with
  | nil => exact sole
  | cons moved rest ih => exact ih (sole.migrated moved)

theorem migrateAll_sameReads (contexts : List Str) (sole : SoleNetwork kr network)
    (plain : ∀ context ∈ contexts, contextNetSeparator ∉ context)
    (named : ∀ context ∈ contexts, context ≠ Keyring.globalScope)
    (unshadowed : Unshadowed network kr) : SameReads network kr (migrateAll network kr contexts) := by
  induction contexts generalizing kr with
  | nil => exact .refl network kr
  | cons context rest ih =>
      have clean := plain context List.mem_cons_self
      have step := migrate_sameReads sole clean (named context List.mem_cons_self) unshadowed
      exact step.trans (ih (sole.migrated context)
        (fun c member => plain c (List.mem_cons_of_mem _ member))
        (fun c member => named c (List.mem_cons_of_mem _ member))
        (migrate_unshadowed clean unshadowed))

theorem migrate_files (context moved : Str) (clean : contextNetSeparator ∉ context)
    (plain : contextNetSeparator ∉ moved)
    (files : (kr.migrateLegacyContext moved network).Files context) :
    kr.Files context ∧ context ≠ moved := by
  have target : scopedContext network moved ≠ context := scopedContext_ne_plain clean moved
  have escapes : decide (scopedContext network moved = moved) = false :=
    decide_eq_false (scopedContext_ne_plain plain moved)
  rcases files with ⟨row, member, filed⟩ | ⟨row, member, filed⟩ | ⟨row, member, filed⟩ |
    ⟨row, member, filed⟩ | ⟨row, member, filed⟩
  · obtain ⟨kept, other⟩ := Table.exists_of_move kr.channelConfig (fun r => r.channel = moved)
      (fun r => { r with channel := scopedContext network moved }) _ (fun _ => escapes) (fun r => r.channel = context) (fun _ => target) row member filed
    exact ⟨Or.inl ⟨row, kept, filed⟩, fun same => of_decide_eq_false other (filed.trans same)⟩
  · obtain ⟨kept, other⟩ := Table.exists_of_move kr.outgoing (fun r => r.channel = moved)
      (fun r => { r with channel := scopedContext network moved }) _ (fun _ => escapes) (fun r => r.channel = context) (fun _ => target) row member filed
    exact ⟨Or.inr (Or.inl ⟨row, kept, filed⟩), fun same => of_decide_eq_false other (filed.trans same)⟩
  · obtain ⟨kept, other⟩ := Table.exists_of_move kr.incoming (fun r => r.session.channel = moved)
      (fun r => { r with session := r.session.filedAt (scopedContext network moved) }) _ (fun _ => escapes) (fun r => r.session.channel = context) (fun _ => target) row member filed
    exact ⟨Or.inr (Or.inr (Or.inl ⟨row, kept, filed⟩)), fun same => of_decide_eq_false other (filed.trans same)⟩
  · obtain ⟨kept, other⟩ := Table.exists_of_move kr.recipients (fun r => r.channel = moved)
      (fun r => { r with channel := scopedContext network moved }) _ (fun _ => escapes) (fun r => r.channel = context) (fun _ => target) row member filed
    exact ⟨Or.inr (Or.inr (Or.inr (Or.inl ⟨row, kept, filed⟩))), fun same => of_decide_eq_false other (filed.trans same)⟩
  · obtain ⟨kept, other⟩ := Table.exists_of_move kr.autotrust (fun r => r.scope = moved)
      (fun r => { r with scope := scopedContext network moved }) _ (fun _ => escapes) (fun r => r.scope = context) (fun _ => target) row member filed
    exact ⟨Or.inr (Or.inr (Or.inr (Or.inr ⟨row, kept, filed⟩))), fun same => of_decide_eq_false other (filed.trans same)⟩

theorem migrateAll_files (context : Str) (contexts : List Str)
    (clean : contextNetSeparator ∉ context)
    (plain : ∀ context ∈ contexts, contextNetSeparator ∉ context)
    (files : (migrateAll network kr contexts).Files context) :
    kr.Files context ∧ context ∉ contexts := by
  induction contexts generalizing kr with
  | nil => exact ⟨files, List.not_mem_nil⟩
  | cons moved rest ih =>
      obtain ⟨still, later⟩ := ih (fun c member => plain c (List.mem_cons_of_mem _ member)) files
      obtain ⟨before, other⟩ :=
        migrate_files context moved clean (plain moved List.mem_cons_self) still
      exact ⟨before, by simp [other, later]⟩

theorem legacy_plain (kr : Keyring) :
    ∀ context ∈ kr.legacyContextValues, contextNetSeparator ∉ context :=
  fun context legacy => ((mem_legacyContextValues kr context).mp legacy).2.1

/-- The migration leaves nothing to migrate. -/
theorem migrateAll_legacyContextValues (network : Str) (kr : Keyring) :
    (migrateAll network kr kr.legacyContextValues).legacyContextValues = [] := by
  refine List.eq_nil_iff_forall_not_mem.mpr fun context legacy => ?_
  obtain ⟨files, clean, shape⟩ := (mem_legacyContextValues _ _).mp legacy
  obtain ⟨before, absent⟩ := migrateAll_files context _ clean (legacy_plain kr) files
  exact absent ((mem_legacyContextValues kr context).mpr ⟨before, clean, shape⟩)

theorem legacy_named (kr : Keyring) :
    ∀ context ∈ kr.legacyContextValues, context ≠ Keyring.globalScope :=
  fun context legacy => shape_named context ((mem_legacyContextValues kr context).mp legacy).2.2

/-- The scoped rows of a keyring are rows of the other. -/
structure KeepsScoped (kr kr' : Keyring) : Prop where
  config : ∀ row ∈ kr.channelConfig, contextNetSeparator ∈ row.channel → row ∈ kr'.channelConfig
  outgoing : ∀ row ∈ kr.outgoing, contextNetSeparator ∈ row.channel → row ∈ kr'.outgoing
  incoming : ∀ row ∈ kr.incoming, contextNetSeparator ∈ row.session.channel → row ∈ kr'.incoming
  recipients : ∀ row ∈ kr.recipients, contextNetSeparator ∈ row.channel → row ∈ kr'.recipients
  autotrust : ∀ rule ∈ kr.autotrust, contextNetSeparator ∈ rule.scope → rule ∈ kr'.autotrust

theorem KeepsScoped.trans {kr'' kr' : Keyring} (first : KeepsScoped kr kr')
    (second : KeepsScoped kr' kr'') : KeepsScoped kr kr'' where
  config row member filed := second.config row (first.config row member filed) filed
  outgoing row member filed := second.outgoing row (first.outgoing row member filed) filed
  incoming row member filed := second.incoming row (first.incoming row member filed) filed
  recipients row member filed := second.recipients row (first.recipients row member filed) filed
  autotrust rule member filed := second.autotrust rule (first.autotrust rule member filed) filed

theorem migrate_keepsScoped (kr : Keyring) (network moved : Str)
    (plain : contextNetSeparator ∉ moved) :
    KeepsScoped kr (kr.migrateLegacyContext moved network) := by
  have stays (context : Str) (filed : contextNetSeparator ∈ context) : decide (context = moved) = false :=
    decide_eq_false fun same => plain (same ▸ filed)
  exact ⟨fun row member filed => Table.stays_of_move _ _ _ _ row member (stays _ filed),
    fun row member filed => Table.stays_of_move _ _ _ _ row member (stays _ filed),
    fun row member filed => Table.stays_of_move _ _ _ _ row member (stays _ filed),
    fun row member filed => Table.stays_of_move _ _ _ _ row member (stays _ filed),
    fun rule member filed => Table.stays_of_move _ _ _ _ rule member (stays _ filed)⟩

theorem migrateAll_keepsScoped (contexts : List Str)
    (plain : ∀ context ∈ contexts, contextNetSeparator ∉ context) :
    KeepsScoped kr (migrateAll network kr contexts) := by
  induction contexts generalizing kr with
  | nil => exact ⟨fun _ m _ => m, fun _ m _ => m, fun _ m _ => m, fun _ m _ => m, fun _ m _ => m⟩
  | cons moved rest ih =>
      exact (migrate_keepsScoped kr network moved (plain moved List.mem_cons_self)).trans
        (ih fun c member => plain c (List.mem_cons_of_mem _ member))

end Adoption

section Observations

/-- Wherever a scoped row exists, the scoped reads give it and nothing of an unscoped one. -/
structure ScopedWins (network : Str) (kr : Keyring) : Prop where
  config : ∀ wire, contextNetSeparator ∉ wire → ∀ row ∈ kr.channelConfig,
    row.channel = scopedContext network wire → kr.getChannelConfig row.channel = some row
  outgoing : ∀ wire, contextNetSeparator ∉ wire → ∀ row ∈ kr.outgoing,
    row.channel = scopedContext network wire → kr.getOutgoingSession row.channel = some row
  incoming : ∀ wire, contextNetSeparator ∉ wire → ∀ row ∈ kr.incoming,
    row.session.channel = scopedContext network wire →
      kr.getIncomingSession row.session.handle row.session.channel = some row.session
  trusted : ∀ wire, contextNetSeparator ∉ wire → ∀ row ∈ kr.incoming,
    row.session.channel = scopedContext network wire →
      ∀ sess ∈ kr.listTrustedPeersForChannel row.session.channel,
        sess.handle = row.session.handle → sess = row.session
  recipients : ∀ wire, contextNetSeparator ∉ wire → ∀ row ∈ kr.recipients,
    row.channel = scopedContext network wire →
      ∀ entry ∈ kr.listOutgoingRecipients row.channel,
        entry.1 = row.handle → entry.2 = row.fingerprint

/-- The migration changes no scoped read, keeps every scoped row, which unscoped ones never
overrule, and has nothing to do a second time. -/
structure Adopts (network : Str) (kr : Keyring) : Prop where
  reads : SameReads network kr kr.adoptLegacyContexts.2
  wins : ScopedWins network kr
  kept : KeepsScoped kr kr.adoptLegacyContexts.2
  again : kr.adoptLegacyContexts.2.adoptLegacyContexts = ([], kr.adoptLegacyContexts.2)

variable {kr : Keyring} {network : Str}

theorem SoleNetwork.wins (sole : SoleNetwork kr network) (unshadowed : Unshadowed network kr) :
    ScopedWins network kr where
  config wire clean row member filed := by
    have found := (Table.find?_eq_some _ _ _).mpr ⟨member, filed⟩
    rw [filed, sole.getChannelConfig, found]
    rfl
  outgoing wire clean row member filed := by
    have found := (Table.find?_eq_some _ _ _).mpr ⟨member, filed⟩
    rw [filed, sole.getOutgoingSession, found]
    rfl
  incoming wire clean row member filed := by
    have found := (Table.find?_eq_some kr.incoming (row.session.handle, scopedContext network wire)
      row).mpr ⟨member, Prod.ext rfl filed⟩
    rw [filed, sole.getIncomingSession, found]
    rfl
  trusted wire clean row member filed sess listed alike := by
    rw [filed, sole.mem_listTrusted] at listed
    obtain ⟨other, ⟨inT, ⟨here, -⟩ | ⟨⟨there, trusted⟩, alone⟩⟩, rfl⟩ := listed
    · exact congrArg IncomingRow.session
        (Table.mem_eq _ other row inT member (Prod.ext alike (here.trans filed.symm)))
    · have shown := unshadowed row member other inT alike (there ▸ clean) (there ▸ filed) trusted
      exact absurd alike.symm (alone row member ⟨filed, shown⟩)
  recipients wire clean row member filed entry listed alike := by
    rw [filed, sole.mem_listRecipients] at listed
    obtain ⟨other, ⟨inT, here | ⟨there, alone⟩⟩, rfl⟩ := listed
    · exact congrArg OutgoingRecipient.fingerprint
        (Table.mem_eq _ other row inT member (Prod.ext (here.trans filed.symm) alike))
    · exact absurd alike.symm (alone row member filed)

/-- A trusted unscoped session is listed although the peer's scoped one is not trusted. -/
theorem ScopedWins.unshadowed (sole : SoleNetwork kr network) (wins : ScopedWins network kr) :
    Unshadowed network kr := by
  intro row member legacy inLegacy alike clean filed trusted
  by_contra distrusted
  have listed : legacy.session ∈ kr.listTrustedPeersForChannel row.session.channel := by
    rw [filed, sole.mem_listTrusted]
    refine ⟨legacy, ⟨inLegacy, Or.inr ⟨⟨rfl, trusted⟩, fun y inT shown same => ?_⟩⟩, rfl⟩
    have twin := Table.mem_eq _ y row inT member
      (Prod.ext (same.trans alike) (shown.1.trans filed.symm))
    exact distrusted (twin ▸ shown.2)
  have same := wins.trusted legacy.session.channel clean row member filed legacy.session listed alike
  exact distrusted (same ▸ trusted)

/-- The adoption of unscoped rows by the one configured network preserves what is observed of the
keyring exactly when no trusted unscoped session has a scoped one that is not trusted. -/
theorem adoption_preserves_reads (kr : Keyring) (network : Str) (sole : SoleNetwork kr network) :
    Adopts network kr ↔ Unshadowed network kr := by
  constructor
  · exact fun adopts => adopts.wins.unshadowed sole
  · intro unshadowed
    have same := migrateAll_sameReads kr.legacyContextValues sole (legacy_plain kr) (legacy_named kr)
      unshadowed
    refine ⟨?_, sole.wins unshadowed, ?_, ?_⟩
    · rw [sole.adopt]
      exact same
    · rw [sole.adopt]
      exact migrateAll_keepsScoped kr.legacyContextValues (legacy_plain kr)
    · rw [sole.adopt, (migrateAll_sole kr.legacyContextValues sole).adopt,
        migrateAll_legacyContextValues]
      rfl

def bobAt (channel : Str) (status : TrustStatus) : IncomingSession :=
  ⟨"bob@host".toList, channel, List.replicate 16 7, List.replicate keyLen 1, status, 0⟩

/-- Bob was trusted in the room before the upgrade. -/
def upgraded : Keyring :=
  (Keyring.empty.setConfiguredNetworks ["net".toList]).setIncomingSession
    (bobAt "#room".toList .trusted)

/-- Since the upgrade he asked again and was revoked. -/
def revokedSince : Keyring :=
  upgraded.setIncomingSession (bobAt (scopedContext "net".toList "#room".toList) .revoked)

theorem upgraded_sole (kr : Keyring) (only : kr.configuredNetworks.rows = ["net".toList]) :
    SoleNetwork kr "net".toList :=
  ⟨only, by decide, by decide +kernel⟩

theorem adoption_unlists_a_trusted_peer :
    let context := scopedContext "net".toList "#room".toList
    SoleNetwork revokedSince "net".toList ∧
      revokedSince.listTrustedPeersForChannel context = [bobAt "#room".toList .trusted] ∧
        revokedSince.adoptLegacyContexts.2.listTrustedPeersForChannel context = [] ∧
          revokedSince.getIncomingSession "bob@host".toList context = some (bobAt context .revoked) :=
  ⟨upgraded_sole _ rfl, by decide +kernel, by decide +kernel, by decide +kernel⟩

theorem adoption_preserves_reads_upgraded : Adopts "net".toList upgraded :=
  (adoption_preserves_reads upgraded "net".toList (upgraded_sole _ rfl)).mpr fun row member
    legacy inLegacy _ _ filed _ => by
      have only : row = ⟨bobAt "#room".toList .trusted, none⟩ := List.mem_singleton.mp member
      have alone : legacy = ⟨bobAt "#room".toList .trusted, none⟩ := List.mem_singleton.mp inLegacy
      rw [only, alone] at filed
      exact absurd filed (by decide +kernel)

end Observations

end Repartee.E2e
