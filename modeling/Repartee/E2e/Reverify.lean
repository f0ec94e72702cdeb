import Repartee.E2e.Effects

/-!
What `reverifyPeer` does with the decisions it finds among the unresolved warnings: the one it
applies, and what every other outcome leaves alone.
-/

namespace Repartee.E2e

open Text Lib

section Candidates

/-- The unresolved warnings filed under the target, or else those that name it. -/
def candidatesFor (w : World) (target : Str) : List PendingTrustNotice :=
  let notices := w.manager.unresolvedTrustChanges.filter (noticeNames target)
  let exact := notices.filter fun n => n.handle = target
  if exact = [] then notices else exact

/-- The candidates whose key the user named; all of them where the user named none. -/
def picked (w : World) (target : Str) (fp : Option Str) : List PendingTrustNotice :=
  (candidatesFor w target).filter fun n => fp.all fun text => selects (asciiLower (trim text)) n

theorem mem_candidatesFor (w : World) (target : Str) (n : PendingTrustNotice)
    (member : n ∈ candidatesFor w target) : n ∈ w.manager.unresolvedTrustChanges := by
  simp only [candidatesFor] at member
  split at member
  · exact (List.mem_filter.mp member).1
  · exact (List.mem_filter.mp (List.mem_filter.mp member).1).1

theorem reverifyPeer_run (w : World) (target : Str) (fp : Option Str) :
    reverifyPeer target fp w =
      if fp.isSome ∧ picked w target fp = [] then
        (.ok (.noSuchCandidate (actionableChanges (candidatesFor w target))), w)
      else applyConsents target (picked w target fp) w := by
  cases fp with
  | none =>
      simp only [Option.isSome_none, Bool.false_eq_true, false_and, if_false, picked,
        Option.all_none, List.filter_true]
      rfl
  | some text =>
      simp only [Option.isSome_some, true_and, picked, Option.all_some]
      let chosen := (candidatesFor w target).filter fun n => selects (asciiLower (trim text)) n
      show (if chosen = [] then
          pure (.noSuchCandidate (actionableChanges (candidatesFor w target)))
        else applyConsents target chosen : Action ReverifyOutcome) w = _
      by_cases empty : chosen = []
      · rw [if_pos empty, if_pos empty]
        rfl
      · rw [if_neg empty, if_neg empty]

end Candidates

section Consents

/-- The decisions stand for the warnings: each is one of theirs, no two commit to the same key at
the same handle, and every warning that can be applied has its commitment among them. -/
structure Collapses (notices : List PendingTrustNotice) (consents : List Consent) : Prop where
  sound : ∀ consent ∈ consents, ∃ notice ∈ notices, consentFor notice = some consent
  distinct : (consents.map Consent.commitment).Nodup
  complete : ∀ notice ∈ notices, ∀ consent, consentFor notice = some consent →
    consent.commitment ∈ consents.map Consent.commitment

/-- What one more warning adds. -/
theorem Collapses.next {notices : List PendingTrustNotice} {seen : List Consent}
    (collapses : Collapses notices seen) (notice : PendingTrustNotice) :
    Collapses (notices ++ [notice]) (match consentFor notice with
      | some consent =>
          if seen.any fun other => other.commitment = consent.commitment then seen
          else seen ++ [consent]
      | none => seen) := by
  obtain ⟨sound, distinct, complete⟩ := collapses
  have earlier : ∀ consent ∈ seen, ∃ n ∈ notices ++ [notice], consentFor n = some consent := by
    intro consent member
    obtain ⟨n, present, stands⟩ := sound consent member
    exact ⟨n, List.mem_append_left _ present, stands⟩
  cases stands : consentFor notice with
  | none =>
      refine ⟨earlier, distinct, fun n member consent found => ?_⟩
      cases List.mem_append.mp member with
      | inl before => exact complete n before consent found
      | inr last =>
          rw [List.mem_singleton.mp last, stands] at found
          cases found
  | some consent =>
      by_cases known : consent.commitment ∈ seen.map Consent.commitment
      · have present : (seen.any fun other => other.commitment = consent.commitment) = true := by
          obtain ⟨other, member, same⟩ := List.mem_map.mp known
          exact List.any_eq_true.mpr ⟨other, member, decide_eq_true same⟩
        simp only [present, if_true]
        refine ⟨earlier, distinct, fun n member other found => ?_⟩
        cases List.mem_append.mp member with
        | inl before => exact complete n before other found
        | inr last =>
            rw [List.mem_singleton.mp last, stands] at found
            cases found
            exact known
      · have absent : (seen.any fun other => other.commitment = consent.commitment) = false := by
          rw [List.any_eq_false]
          intro other member same
          exact known (List.mem_map.mpr ⟨other, member, of_decide_eq_true same⟩)
        simp only [absent, Bool.false_eq_true, if_false]
        refine ⟨fun other member => ?_, ?_, fun n member other found => ?_⟩
        · cases List.mem_append.mp member with
          | inl before => exact earlier other before
          | inr last =>
              rw [List.mem_singleton.mp last]
              exact ⟨notice, by simp, stands⟩
        · rw [List.map_append, List.map_singleton]
          simpa using distinct.concat known
        · rw [List.map_append, List.mem_append]
          cases List.mem_append.mp member with
          | inl before => exact .inl (complete n before other found)
          | inr last =>
              rw [List.mem_singleton.mp last, stands] at found
              cases found
              exact .inr (by simp)

theorem distinctConsents_collapses (notices : List PendingTrustNotice) :
    Collapses notices (distinctConsents notices) := by
  have along : ∀ rest done seen, Collapses done seen →
      Collapses (done ++ rest) (rest.foldl (fun seen notice => match consentFor notice with
        | some consent =>
            if seen.any fun other => other.commitment = consent.commitment then seen
            else seen ++ [consent]
        | none => seen) seen) := by
    intro rest
    induction rest with
    | nil =>
        intro done seen collapses
        simpa using collapses
    | cons notice rest ih =>
        intro done seen collapses
        rw [List.append_cons]
        exact ih _ _ (collapses.next notice)
  exact along notices [] [] ⟨nofun, List.nodup_nil, nofun⟩

/-- A single decision is that of some warning, and every other warning that can be applied commits
to the same. -/
theorem single_consent {notices : List PendingTrustNotice} {consent : Consent}
    (single : distinctConsents notices = [consent]) :
    (∃ notice ∈ notices, consentFor notice = some consent) ∧
      ∀ other ∈ notices, ∀ also, consentFor other = some also →
        also.commitment = consent.commitment := by
  have collapses := distinctConsents_collapses notices
  rw [single] at collapses
  constructor
  · exact collapses.sound consent (List.mem_singleton_self _)
  · intro other member also stands
    simpa using collapses.complete other member also stands

theorem consentFor_install {notice : PendingTrustNotice} {handle : Str} {oldFp newFp : Fingerprint}
    {key : Bytes} (stands : consentFor notice = some (.install handle oldFp newFp key)) :
    notice.change = .fingerprintChanged handle oldFp newFp ∧ notice.newPubkey = some key := by
  rw [consentFor] at stands
  split at stands
  · cases stands
  · cases stands
    exact ⟨‹_›, ‹_›⟩
  · cases stands

end Consents

section Outcomes

variable {w : World}

/-- Nothing but the warnings differs, apart from what a keyring call uses up of the schedule. -/
structure ChangesNotices (w w' : World) : Prop where
  manager : w'.manager = { w.manager with
    pendingTrustChange := w'.manager.pendingTrustChange
    unresolvedTrustChanges := w'.manager.unresolvedTrustChanges }
  ledger : w'.ledger = w.ledger
  draws : w'.env.draws = w.env.draws
  now : w'.env.now = w.env.now

/-- A program that goes on to do something ends the way what it goes on to do ends. -/
theorem after_bind_any {α β : Type} (m : Action β) (f : β → Action α) {Q : α → World → Prop}
    (rest : ∀ b s, Prog.After s (f b) Q fun _ _ => True) :
    Prog.After w (m >>= f) Q fun _ _ => True := by
  rw [Prog.after_bind, Prog.After]
  split
  · exact rest _ _
  · trivial

/-- A rebind is reported as one, or as stale with nothing but the warnings changed. -/
theorem applyRebind_outcome (candidates : List PendingTrustNotice) (oldHandle newHandle : Str)
    (fp : Fingerprint) :
    Prog.After w (applyRebind candidates oldHandle newHandle fp)
      (fun outcome w' => (∃ old, outcome = .rebound fp old newHandle) ∨
        outcome = .stale fp ∧ ChangesNotices w w') fun _ _ => True := by
  rw [applyRebind, Prog.after_bind]
  refine Prog.After.mono (query_reads _) ?_ ?_
  · intro peer v found
    cases peer with
    | none =>
        rw [Prog.after_bind]
        refine .inr ⟨rfl, ?_, found.1.ledger, found.1.draws, found.1.now⟩
        simp only [← found.1.manager]
    | some peer =>
        iterate 7 apply after_bind_any; intro _ _
        exact .inl ⟨_, rfl⟩
  · exact fun _ _ _ => trivial

theorem purgeHandle_outcome (handle : Str) (resolved : List PendingTrustNotice) :
    Prog.After w (purgeHandle handle resolved)
      (fun outcome _ => outcome = .notFound ∨ ∃ deleted, outcome = .cleared deleted)
      fun _ _ => True := by
  rw [purgeHandle]
  iterate 5 apply after_bind_any; intro _ _
  rw [Prog.after_ite]
  exact ⟨fun _ => .inl rfl, fun _ => .inr ⟨_, rfl⟩⟩

end Outcomes

section Keys

/-- Whoever holds the fingerprint holds the given key, or one that was held under it before. -/
def KeysFrom (fp : Fingerprint) (key : Bytes) (w w' : World) : Prop :=
  ∀ p ∈ w'.manager.keyring.peers, p.fingerprint = fp →
    p.pubkey = key ∨ ∃ old ∈ w.manager.keyring.peers, old.fingerprint = fp ∧ p.pubkey = old.pubkey

instance (fp : Fingerprint) (key : Bytes) : IsPreorder World (KeysFrom fp key) where
  refl _ p member same := .inr ⟨p, member, same, rfl⟩
  trans _ _ _ first second p member same := by
    cases second p member same with
    | inl given => exact .inl given
    | inr held =>
        obtain ⟨old, present, ofKey, holds⟩ := held
        rw [holds]
        exact first old present ofKey

variable {w : World} {fp : Fingerprint} {key : Bytes}

theorem keysFrom_of_peers {w' : World}
    (peers : w'.manager.keyring.peers = w.manager.keyring.peers) : KeysFrom fp key w w' := by
  intro p member same
  exact .inr ⟨p, peers ▸ member, same, rfl⟩

/-- An upsert keeps the key of a row that is there and else brings its own. -/
theorem keysFrom_upsertPeer {v : World} (rec : PeerRecord)
    (peers : v.manager.keyring.peers = w.manager.keyring.peers)
    (brings : rec.fingerprint = fp →
      rec.pubkey = key ∨ ∃ old ∈ w.manager.keyring.peers, old.fingerprint = fp ∧
        rec.pubkey = old.pubkey) :
    KeysFrom fp key w (v.tick.setKeyring (v.manager.keyring.upsertPeer rec)) := by
  intro p member same
  have cases := (Keyring.mem_upsertPeer _ rec p).mp member
  rw [peers] at cases
  rcases cases with ⟨kept, -⟩ | ⟨old, present, ofKey, rfl⟩ | ⟨rfl, -⟩
  · exact .inr ⟨p, kept, same, rfl⟩
  · exact .inr ⟨old, present, same, rfl⟩
  · exact brings same

theorem executeGet_keys {α : Type} (f : Keyring → α × Keyring)
    (peers : ∀ kr, (f kr).2.peers = kr.peers) :
    Prog.Ensures (KeysFrom fp key) w (executeGet f) fun _ _ => True :=
  ensures_executeGet f (keysFrom_of_peers rfl) (keysFrom_of_peers (peers _)) trivial

theorem clearHandleState_keys (handle : Str) :
    Prog.Ensures (KeysFrom fp key) w (clearHandleState handle) fun _ _ => True := by
  rw [clearHandleState]
  apply (executeGet_keys _ fun _ => rfl).bind
  intro _ v _ _
  apply (executeGet_keys _ fun _ => rfl).bind
  intro _ u _ _
  apply Prog.ensures_bind (fun _ _ => True)
  · exact Prog.ensures_update _ (keysFrom_of_peers rfl) trivial
  · exact fun _ _ _ _ => Prog.ensures_pure _ trivial

theorem clearFormerHandle_keys (current : Option Str) (handle : Str) :
    Prog.Ensures (KeysFrom fp key) w (clearFormerHandle current handle) fun _ _ => True := by
  cases current with
  | none => exact Prog.ensures_pure _ trivial
  | some former =>
      rw [clearFormerHandle]
      apply Prog.ensures_ite
      · exact fun _ => clearHandleState_keys former
      · exact fun _ => Prog.ensures_pure _ trivial

/-- The identity that loses the handle keeps its key, if it stays at all. -/
theorem evictReplacedIdentity_keys (oldFp : Fingerprint) (handle : Str) :
    Prog.Ensures (KeysFrom fp key) w (evictReplacedIdentity oldFp handle) fun _ _ => True := by
  rw [evictReplacedIdentity]
  apply Prog.ensures_bind (fun found v => found = w.manager.keyring.getPeerByFingerprint oldFp ∧
    v.manager = w.manager)
  · exact ensures_query _ (keysFrom_of_peers rfl) ⟨rfl, rfl⟩
  · intro found v _ read
    cases found with
    | none => exact Prog.ensures_pure _ trivial
    | some peer =>
        have present := (Table.find?_eq_some _ _ _).mp read.1.symm
        apply Prog.ensures_ite
        · exact fun _ => Prog.ensures_pure _ trivial
        · intro _
          apply Prog.ensures_read_bind
          apply Prog.ensures_ite
          · intro _
            apply ensures_execute
            · exact keysFrom_of_peers rfl
            · apply keysFrom_upsertPeer _ rfl
              intro same
              exact .inr ⟨peer, read.2 ▸ present.1, same, rfl⟩
            · trivial
          · intro _
            apply ensures_execute
            · exact keysFrom_of_peers rfl
            · intro p member same
              exact .inr ⟨p, ((Table.mem_erase _ _ _).mp member).1, same, rfl⟩
            · trivial

/-- The key's row is at the handle and trusted. -/
def SettledAt (fp : Fingerprint) (handle : Str) (w : World) : Prop :=
  ∃ p ∈ w.manager.keyring.peers, p.fingerprint = fp ∧ p.lastHandle = some handle ∧
    p.globalStatus = .trusted

/-- The last steps of an install keep the row they find at the handle. -/
theorem detachOthers_settled {handle : Str} (settled : SettledAt fp handle w) :
    Prog.Ensures (KeysFrom fp key) w (execute (·.detachOtherPeersFromHandle handle fp))
      fun _ w' => SettledAt fp handle w' := by
  obtain ⟨p, member, ofKey, there, trusted⟩ := settled
  apply ensures_execute
  · exact keysFrom_of_peers rfl
  · intro q after same
    obtain ⟨old, present, rfl⟩ := (Keyring.mem_detachOtherPeersFromHandle _ _ _ _).mp after
    refine .inr ⟨old, present, (PeerRecord.detachFrom_fingerprint _ _ old).symm.trans same, ?_⟩
    rw [PeerRecord.detachFrom]
    split <;> rfl
  · refine ⟨p, (Keyring.mem_detachOtherPeersFromHandle _ _ _ _).mpr ⟨p, member, ?_⟩, ofKey, there,
      trusted⟩
    rw [PeerRecord.detachFrom, if_neg]
    exact fun both => both.2 ofKey

theorem applyInstall_outcome (candidates : List PendingTrustNotice) (handle : Str)
    (oldFp newFp : Fingerprint) (pubkey : Bytes) :
    Prog.Ensures (KeysFrom newFp pubkey) w (applyInstall candidates handle oldFp newFp pubkey)
      fun outcome w' => outcome = .applied oldFp newFp ∧ SettledAt newFp handle w' := by
  rw [applyInstall]
  apply (evictReplacedIdentity_keys oldFp handle).bind
  intro _ v _ _
  apply (clearHandleState_keys handle).bind
  intro _ u _ _
  apply Prog.ensures_bind (fun _ _ => True)
  · rw [currentBinding]
    apply Prog.ensures_bind (fun _ _ => True)
    · exact ensures_query _ (keysFrom_of_peers rfl) trivial
    · exact fun _ _ _ _ => Prog.ensures_pure _ trivial
  intro current x _ _
  apply (clearFormerHandle_keys current handle).bind
  intro _ y _ _
  apply Prog.ensures_read_bind
  apply Prog.ensures_bind (fun _ w' => SettledAt newFp handle w')
  · apply ensures_execute
    · exact keysFrom_of_peers rfl
    · exact keysFrom_upsertPeer _ rfl fun _ => .inl rfl
    · by_cases known : ∃ old ∈ y.manager.keyring.peers, old.fingerprint = newFp
      · obtain ⟨old, present, same⟩ := known
        exact ⟨_, (Keyring.mem_upsertPeer _ _ _).mpr (.inr (.inl ⟨old, present, same, rfl⟩)), same,
          rfl, rfl⟩
      · refine ⟨_, (Keyring.mem_upsertPeer _ _ _).mpr (.inr (.inr ⟨rfl, ?_⟩)), rfl, rfl, rfl⟩
        exact fun old present same => known ⟨old, present, same⟩
  intro _ z _ settled
  apply (detachOthers_settled settled).bind
  intro _ s _ settled
  apply Prog.ensures_bind (fun _ w' => SettledAt newFp handle w')
  · exact Prog.ensures_update _ (keysFrom_of_peers rfl) settled
  intro _ t _ settled
  apply Prog.ensures_bind (fun _ w' => SettledAt newFp handle w')
  · exact Prog.ensures_change _ (keysFrom_of_peers rfl) settled
  exact fun _ _ _ settled => Prog.ensures_pure _ ⟨rfl, settled⟩

end Keys

section Selection

variable (w : World) (target : Str) (fp : Option Str)

theorem distinctConsents_picked (text : Str) (some : picked w target (some text) ≠ []) :
    distinctConsents (picked w target (.some text)) ≠ [] := by
  intro empty
  obtain ⟨notice, member⟩ := List.exists_mem_of_ne_nil _ some
  have accepted := (List.mem_filter.mp member).2
  rw [Option.all_some, selects, Option.any_eq_true] at accepted
  obtain ⟨consent, stands, -⟩ := accepted
  have present := (distinctConsents_collapses _).complete notice member consent stands
  simp [empty] at present

/-- A call applies the one decision there is, reports several, or, where the user named no key and
there is none, purges. -/
theorem reverifyPeer_branches :
    (fp = none ∧ reverifyPeer target fp w = purgeHandle target (picked w target fp) w) ∨
    (∃ candidates, reverifyPeer target fp w = (.ok (.noSuchCandidate candidates), w)) ∨
    (∃ candidates, reverifyPeer target fp w = (.ok (.ambiguous candidates), w)) ∨
    (∃ oldHandle newHandle key,
      distinctConsents (picked w target fp) = [.rebind oldHandle newHandle key] ∧
        reverifyPeer target fp w =
          applyRebind (picked w target fp) oldHandle newHandle key w) ∨
    ∃ handle oldFp newFp key,
      distinctConsents (picked w target fp) = [.install handle oldFp newFp key] ∧
        reverifyPeer target fp w =
          applyInstall (picked w target fp) handle oldFp newFp key w := by
  rw [reverifyPeer_run]
  by_cases missed : fp.isSome ∧ picked w target fp = []
  · rw [if_pos missed]
    exact .inr (.inl ⟨_, rfl⟩)
  rw [if_neg missed, applyConsents]
  cases found : distinctConsents (picked w target fp) with
  | nil =>
      cases fp with
      | none => exact .inl ⟨rfl, rfl⟩
      | some text => exact absurd found (distinctConsents_picked w target text fun empty =>
          missed ⟨rfl, empty⟩)
  | cons first rest =>
      cases rest with
      | nil =>
          cases first with
          | rebind oldHandle newHandle key =>
              exact .inr (.inr (.inr (.inl ⟨oldHandle, newHandle, key, rfl, rfl⟩)))
          | install handle oldFp newFp key =>
              exact .inr (.inr (.inr (.inr ⟨handle, oldFp, newFp, key, rfl, rfl⟩)))
      | cons second rest => cases first <;> exact .inr (.inr (.inl ⟨_, rfl⟩))

/-- What an outcome says of the warnings the call was about and of the world it leaves. -/
def Confirmed : ReverifyOutcome → World → Prop
  | .applied oldFp newFp, w' =>
      ∃ notice ∈ picked w target fp, ∃ handle key,
        notice.change = .fingerprintChanged handle oldFp newFp ∧ notice.newPubkey = some key ∧
          (∀ other ∈ picked w target fp, ∀ consent, consentFor other = some consent →
            consent.commitment = (newFp, handle)) ∧
          ∃ row ∈ w'.manager.keyring.peers, row.fingerprint = newFp ∧
            row.lastHandle = some handle ∧ row.globalStatus = .trusted ∧
            (row.pubkey = key ∨ ∃ old ∈ w.manager.keyring.peers, old.fingerprint = newFp ∧
              row.pubkey = old.pubkey)
  | .ambiguous _, w' => w' = w
  | .noSuchCandidate _, w' => w' = w
  | .stale _, w' => ChangesNotices w w'
  | .rebound _ _ _, _ => True
  | .cleared _, _ => fp = none
  | .notFound, _ => fp = none

theorem reverifyPeer_confirmed :
    Prog.After w (reverifyPeer target fp) (Confirmed w target fp) fun _ _ => True := by
  rcases reverifyPeer_branches w target fp with
    ⟨unnamed, ran⟩ | ⟨_, ran⟩ | ⟨_, ran⟩ | ⟨oldHandle, newHandle, key, -, ran⟩ |
      ⟨handle, oldFp, newFp, key, single, ran⟩ <;> rw [Prog.After, ran]
  · apply (purgeHandle_outcome target (picked w target fp)).mono
    · rintro _ _ (rfl | ⟨_, rfl⟩)
      · exact unnamed
      · exact unnamed
    · exact fun _ _ _ => trivial
  · exact rfl
  · exact rfl
  · apply (applyRebind_outcome (picked w target fp) oldHandle newHandle key).mono
    · rintro _ _ (⟨_, rfl⟩ | ⟨rfl, stale⟩)
      · trivial
      · exact stale
    · exact fun _ _ _ => trivial
  · apply Prog.After.mono (applyInstall_outcome (picked w target fp) handle oldFp newFp key)
    · rintro _ w' ⟨keys, rfl, row, member, ofKey, there, trusted⟩
      obtain ⟨⟨notice, candidate, stands⟩, others⟩ := single_consent single
      obtain ⟨change, offered⟩ := consentFor_install stands
      exact ⟨notice, candidate, handle, key, change, offered, others, row, member, ofKey, there,
        trusted, keys row member ofKey⟩
    · exact fun _ _ _ => trivial

/-- The candidates are unresolved warnings whose key has the user's text at its start. -/
theorem picked_selected (notice : PendingTrustNotice) (member : notice ∈ picked w target fp) :
    notice ∈ w.manager.unresolvedTrustChanges ∧ ∀ text ∈ fp, ∃ consent,
      consentFor notice = some consent ∧
        (asciiLower (trim text)).isPrefixOf (hexEncode consent.acceptedFingerprint) = true := by
  obtain ⟨candidate, chosen⟩ := List.mem_filter.mp member
  refine ⟨mem_candidatesFor w target notice candidate, fun text named => ?_⟩
  rw [Option.all_eq_true] at chosen
  have accepted := chosen text named
  rwa [selects, Option.any_eq_true] at accepted

/-- What the user confirmed is what is applied: from unresolved warnings with the one commitment,
under the key the warning carries unless the keyring held the fingerprint already. A call that
names a key never purges. -/
theorem reverify_applies_the_confirmed_key :
    Prog.After w (reverifyPeer target fp) (Confirmed w target fp) (fun _ _ => True) ∧
      (∀ notice ∈ picked w target fp, notice ∈ w.manager.unresolvedTrustChanges ∧
        ∀ text ∈ fp, ∃ consent, consentFor notice = some consent ∧
          (asciiLower (trim text)).isPrefixOf (hexEncode consent.acceptedFingerprint) = true) ∧
      (fp.isSome →
        (∃ candidates, reverifyPeer target fp w = (.ok (.noSuchCandidate candidates), w)) ∨
        (∃ candidates, reverifyPeer target fp w = (.ok (.ambiguous candidates), w)) ∨
        (∃ oldHandle newHandle key, reverifyPeer target fp w =
          applyRebind (picked w target fp) oldHandle newHandle key w) ∨
        ∃ handle oldFp newFp key, reverifyPeer target fp w =
          applyInstall (picked w target fp) handle oldFp newFp key w) := by
  refine ⟨reverifyPeer_confirmed w target fp, picked_selected w target fp, fun named => ?_⟩
  rcases reverifyPeer_branches w target fp with
    ⟨unnamed, -⟩ | missed | several | ⟨oldHandle, newHandle, key, -, ran⟩ |
      ⟨handle, oldFp, newFp, key, -, ran⟩
  · simp [unnamed] at named
  · exact .inl missed
  · exact .inr (.inl several)
  · exact .inr (.inr (.inl ⟨oldHandle, newHandle, key, ran⟩))
  · exact .inr (.inr (.inr ⟨handle, oldFp, newFp, key, ran⟩))

end Selection

section Collision

/-- The keyring holds the fingerprint with one key, and an unresolved warning offers it with
another. -/
def offeredTwice : World :=
  let held : PeerRecord :=
    ⟨List.replicate 16 2, List.replicate 32 9, none, none, 0, 0, .trusted⟩
  let notice : PendingTrustNotice :=
    ⟨"bob@host".toList, "#chan".toList,
      .fingerprintChanged "bob@host".toList (List.replicate 16 1) (List.replicate 16 2),
      some (List.replicate 32 7)⟩
  let fresh := World.fresh [] 0
  { fresh with manager := { fresh.manager with
    keyring := fresh.manager.keyring.upsertPeer held
    unresolvedTrustChanges := [notice] } }

/-- An upsert never replaces a key, so the one held stays. -/
theorem held_key_stays :
    (reverifyPeer "bob@host".toList none offeredTwice).1 =
        .ok (.applied (List.replicate 16 1) (List.replicate 16 2)) ∧
      ((reverifyPeer "bob@host".toList none offeredTwice).2.manager.keyring.getPeerByFingerprint
        (List.replicate 16 2)).map PeerRecord.pubkey = some (List.replicate 32 9) ∧
      ∀ notice ∈ offeredTwice.manager.unresolvedTrustChanges,
        notice.newPubkey = some (List.replicate 32 7) := by
  refine ⟨rfl, rfl, ?_⟩
  intro notice member
  cases List.mem_singleton.mp member
  rfl

end Collision

end Repartee.E2e
