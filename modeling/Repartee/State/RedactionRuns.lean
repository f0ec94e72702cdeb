import Repartee.Lib.Run
import Repartee.State.RedactionRegistry

/-!
A deletion stays a deletion while its scope is retained: whatever is dropped, evicted, archived or
fails, every later look at the key shows a notice, and never one that came later.
-/

namespace Repartee.State

open Text Lib

variable {sha256 : Bytes → Bytes} {w w' : Store} {fails : Statement → Bool}
  {key k : RedactionKey} {o : Nat}

namespace Store

/-- Identities are found under their own keys, and a recent deletion is found under its key. -/
structure Keyed (w : Store) : Prop where
  found : ∀ k o, w.registry.identities k = some o → ∃ i, w.made[o]? = some i ∧ i.key = k
  recent : ∀ o ∈ w.registry.recent, ∃ i, w.made[o]? = some i ∧ i.notice.isSome ∧
    w.registry.identities i.key = some o

/-- The deletion of a key is on record outside of what others hold: in the list of recent
deletions, in the database, or in that tracking has failed. -/
def Backed (sha256 : Bytes → Bytes) (w : Store) (key : RedactionKey) : Prop :=
  w.registry.archiveFailed = true ∨
    (∃ rows, w.registry.archived = some rows ∧ archiveRow sha256 key ∈ rows) ∨
    ∃ o ∈ w.registry.recent, w.registry.identities key = some o ∧ (w.noticeOf o).isSome

/-- The identity found under a key shows a notice. -/
def Shown (w : Store) (key : RedactionKey) : Prop :=
  ∃ o, w.registry.identities key = some o ∧ (w.noticeOf o).isSome

structure Sound (sha256 : Bytes → Bytes) (w : Store) : Prop where
  keyed : w.Keyed
  honest : ∀ k, w.Shown k → w.Backed sha256 k

@[simp] theorem noticeOf_hold (o p : Nat) : (w.hold p).noticeOf o = w.noticeOf o := rfl

@[simp] theorem noticeOf_point (entry : Option Nat) :
    (w.point key entry).noticeOf o = w.noticeOf o := rfl

@[simp] theorem noticeOf_archiveError : w.archiveError.noticeOf o = w.noticeOf o := rfl

@[simp] theorem noticeOf_pushRecent (p : Nat) : (w.pushRecent p).noticeOf o = w.noticeOf o := rfl

@[simp] theorem sweep_made : w.sweep.made = w.made := by
  unfold sweep
  split <;> rfl

@[simp] theorem sweep_handles : w.sweep.handles = w.handles := by
  unfold sweep
  split <;> rfl

@[simp] theorem sweep_recent : w.sweep.registry.recent = w.registry.recent := by
  unfold sweep
  split <;> rfl

@[simp] theorem sweep_archived : w.sweep.registry.archived = w.registry.archived := by
  unfold sweep
  split <;> rfl

@[simp] theorem sweep_archiveFailed :
    w.sweep.registry.archiveFailed = w.registry.archiveFailed := by
  unfold sweep
  split <;> rfl

@[simp] theorem noticeOf_sweep : w.sweep.noticeOf o = w.noticeOf o := by
  unfold noticeOf
  rw [sweep_made]

@[simp] theorem strongCount_sweep : w.sweep.strongCount o = w.strongCount o := by
  unfold strongCount
  rw [sweep_recent, sweep_handles]

/-- A sweep forgets dead identities only. -/
theorem sweep_identities (found : w.sweep.registry.identities k = some o) :
    w.registry.identities k = some o := by
  unfold sweep at found
  split at found
  · exact (Option.filter_eq_some_iff.mp found).1
  · exact found

theorem sweep_keeps (found : w.registry.identities k = some o) (alive : 0 < w.strongCount o) :
    w.sweep.registry.identities k = some o := by
  unfold sweep
  split
  · exact Option.filter_eq_some_iff.mpr ⟨found, by simpa using alive⟩
  · exact found

theorem lt_of_noticeOf (shown : (w.noticeOf o).isSome) : o < w.made.length := by
  unfold noticeOf at shown
  by_contra beyond
  rw [List.getElem?_eq_none (by omega)] at shown
  simp at shown

theorem noticeOf_make_old (i : Identity) (old : o < w.made.length) :
    (w.make i).2.noticeOf o = w.noticeOf o := by
  unfold noticeOf make
  rw [List.getElem?_append_left old]

theorem noticeOf_make_new (i : Identity) : (w.make i).2.noticeOf w.made.length = i.notice := by
  simp [noticeOf, make]

theorem point_self (found : w.registry.identities key = some o) : w.point key (some o) = w := by
  have same : (fun k => if k = key then some o else w.registry.identities k) =
      w.registry.identities := by
    funext k
    split
    · rename_i here
      rw [here, found]
    · rfl
  unfold point
  rw [same]

theorem strongCount_of_recent (member : o ∈ w.registry.recent) : 0 < w.strongCount o := by
  have counted := List.count_pos_iff.mpr member
  unfold strongCount
  omega

theorem upgrade_eq_some (alive : w.upgrade key = some o) :
    w.registry.identities key = some o ∧ 0 < w.strongCount o := by
  have both := Option.filter_eq_some_iff.mp alive
  exact ⟨both.1, by simpa using both.2⟩

/-- What a look at a key comes to: the identity somebody holds, a stand-in that hides the message,
or nothing known against it. -/
inductive GetCase (sha256 : Bytes → Bytes) (w : Store) (key : RedactionKey) :
    Option Nat × Store → Prop where
  | held (o : Nat) (alive : w.upgrade key = some o)
      (plain : w.noticeOf o = none → ¬w.Backed sha256 key) : GetCase sha256 w key (some o, w.hold o)
  | stored (rows : List (Bytes × Bytes)) (listed : w.registry.archived = some rows)
      (row : archiveRow sha256 key ∈ rows)
      (dim : ∀ o, w.upgrade key = some o → w.noticeOf o = none) :
      GetCase sha256 w key (some w.made.length, (w.make ⟨key, some messageDeleted⟩).2)
  | unavailable (dim : ∀ o, w.upgrade key = some o → w.noticeOf o = none) :
      GetCase sha256 w key
        (some w.made.length, (w.archiveError.make ⟨key, some messageUnavailable⟩).2)
  | unknown (dead : w.upgrade key = none) (plain : ¬w.Backed sha256 key) :
      GetCase sha256 w key (none, w)

theorem archiveError_self (failed : w.registry.archiveFailed = true) : w.archiveError = w := by
  unfold archiveError
  rw [← failed]

theorem not_backed (unfailed : w.registry.archiveFailed = false)
    (answered : w.archivedAnswer sha256 fails key = .ok false)
    (dim : ∀ o, w.upgrade key = some o → w.noticeOf o = none) : ¬w.Backed sha256 key := by
  intro backed
  rcases backed with failed | ⟨rows, listed, row⟩ | ⟨o, recent, found, noticed⟩
  · rw [unfailed] at failed
    cases failed
  · unfold archivedAnswer at answered
    rw [listed] at answered
    simp only at answered
    split at answered
    · cases answered
    · simp [row] at answered
  · have alive : w.upgrade key = some o := by
      apply Option.filter_eq_some_iff.mpr
      exact ⟨found, by simpa using strongCount_of_recent recent⟩
    rw [dim o alive] at noticed
    cases noticed

theorem get_cases : GetCase sha256 w key (w.get sha256 fails key) := by
  unfold get
  simp only
  split
  · rename_i noticed
    cases alive : w.upgrade key with
    | none => simp [alive] at noticed
    | some o =>
        apply GetCase.held o alive
        intro dim
        simp [alive, dim] at noticed
  · rename_i dim
    have plainly : ∀ o, w.upgrade key = some o → w.noticeOf o = none := by
      intro o alive
      simpa [alive] using dim
    cases answered : w.archivedAnswer sha256 fails key with
    | error =>
        exact GetCase.unavailable plainly
    | ok listed =>
        cases listed with
        | true =>
            unfold archivedAnswer at answered
            split at answered
            · cases answered
            · rename_i rows present
              split at answered
              · cases answered
              · exact GetCase.stored rows present (by simpa using answered) plainly
        | false =>
            simp only
            by_cases failed : w.registry.archiveFailed = true
            · rw [if_pos failed]
              have same := archiveError_self failed
              have gone : GetCase sha256 w key (some w.made.length,
                  (w.archiveError.make ⟨key, some messageUnavailable⟩).2) :=
                GetCase.unavailable plainly
              rw [same] at gone
              exact gone
            · rw [if_neg failed]
              have plain := not_backed (by simpa using failed) answered plainly
              cases alive : w.upgrade key with
              | none => exact GetCase.unknown alive plain
              | some o => exact GetCase.held o alive fun _ => plain

/-- What is on record stays so where the recent deletions of the key, the database and the failure
mark do. -/
theorem Backed.frame (backed : w.Backed sha256 key)
    (failed : w.registry.archiveFailed = true → w'.registry.archiveFailed = true)
    (archived : w'.registry.archived = w.registry.archived)
    (recent : ∀ o ∈ w.registry.recent, w.registry.identities key = some o →
      (w.noticeOf o).isSome → o ∈ w'.registry.recent ∧ w'.registry.identities key = some o ∧
        (w'.noticeOf o).isSome) : w'.Backed sha256 key := by
  rcases backed with mark | ⟨rows, listed, row⟩ | ⟨o, member, found, noticed⟩
  · exact Or.inl (failed mark)
  · exact Or.inr (Or.inl ⟨rows, archived.trans listed, row⟩)
  · exact Or.inr (Or.inr ⟨o, recent o member found noticed⟩)

theorem Sound.frame (sound : w.Sound sha256) (keyed : w'.Keyed)
    (shown : ∀ k, w'.Shown k → w.Shown k ∨ w'.Backed sha256 k)
    (backed : ∀ k, w'.Shown k → w.Backed sha256 k → w'.Backed sha256 k) : w'.Sound sha256 := by
  constructor
  · exact keyed
  · intro k showing
    rcases shown k showing with before | already
    · exact backed k showing (sound.honest k before)
    · exact already

/-- The record of a deletion, with the identity it was first written to and its notice. -/
structure Deleted (sha256 : Bytes → Bytes) (w : Store) (key : RedactionKey) (first : Str)
    (o₁ : Nat) : Prop where
  backed : w.Backed sha256 key
  kept : w.noticeOf o₁ = some first
  owned : 0 < w.strongCount o₁ → w.registry.identities key = some o₁
  labels : ∀ o n, w.registry.identities key = some o → w.noticeOf o = some n →
    n = first ∨ n = messageDeleted ∨ n = messageUnavailable

variable {first : Str} {o₁ : Nat}

section Sweep

theorem Keyed.sweep (keyed : w.Keyed) : w.sweep.Keyed := by
  constructor
  · intro k o found
    rw [sweep_made]
    exact keyed.found k o (sweep_identities found)
  · intro o member
    rw [sweep_recent] at member
    obtain ⟨i, placed, noticed, found⟩ := keyed.recent o member
    rw [sweep_made]
    exact ⟨i, placed, noticed, sweep_keeps found (strongCount_of_recent member)⟩

theorem Backed.sweep (backed : w.Backed sha256 key) : w.sweep.Backed sha256 key := by
  apply backed.frame
  · simp
  · simp
  · intro o member found noticed
    constructor
    · simpa using member
    · exact ⟨sweep_keeps found (strongCount_of_recent member), by simpa using noticed⟩

theorem Sound.sweep (sound : w.Sound sha256) : w.sweep.Sound sha256 := by
  apply sound.frame sound.keyed.sweep
  · intro k showing
    obtain ⟨o, found, noticed⟩ := showing
    exact Or.inl ⟨o, sweep_identities found, by simpa using noticed⟩
  · intro k _ backed
    exact backed.sweep

theorem Deleted.sweep (deleted : w.Deleted sha256 key first o₁) :
    w.sweep.Deleted sha256 key first o₁ := by
  constructor
  · exact deleted.backed.sweep
  · simpa using deleted.kept
  · intro alive
    rw [strongCount_sweep] at alive
    exact sweep_keeps (deleted.owned alive) alive
  · intro o n found noticed
    exact deleted.labels o n (sweep_identities found) (by simpa using noticed)

end Sweep

section Hold

theorem strongCount_hold (p : Nat) :
    (w.hold p).strongCount o = w.strongCount o + if p = o then 1 else 0 := by
  unfold strongCount hold
  rw [List.count_cons]
  simp only [beq_iff_eq]
  omega

theorem Sound.hold (sound : w.Sound sha256) (o : Nat) : (w.hold o).Sound sha256 :=
  ⟨⟨sound.keyed.found, sound.keyed.recent⟩, sound.honest⟩

theorem Deleted.hold (deleted : w.Deleted sha256 key first o₁) (alive : 0 < w.strongCount o) :
    (w.hold o).Deleted sha256 key first o₁ := by
  constructor
  · exact deleted.backed
  · exact deleted.kept
  · intro counted
    apply deleted.owned
    rw [strongCount_hold] at counted
    split at counted
    · rename_i same
      rw [← same]
      exact alive
    · omega
  · exact deleted.labels

theorem Sound.archiveError (sound : w.Sound sha256) : w.archiveError.Sound sha256 :=
  ⟨⟨sound.keyed.found, sound.keyed.recent⟩, fun _ _ => Or.inl rfl⟩

theorem Deleted.archiveError (deleted : w.Deleted sha256 key first o₁) :
    w.archiveError.Deleted sha256 key first o₁ :=
  ⟨Or.inl rfl, deleted.kept, deleted.owned, deleted.labels⟩

end Hold

section Make

variable (i : Identity)

theorem make_made_lt (old : ∃ j, w.made[o]? = some j) : o < w.made.length := by
  obtain ⟨j, placed⟩ := old
  exact (List.getElem?_eq_some_iff.mp placed).1

theorem make_made (old : o < w.made.length) : (w.make i).2.made[o]? = w.made[o]? :=
  List.getElem?_append_left old

theorem Keyed.make (keyed : w.Keyed) : (w.make i).2.Keyed := by
  constructor
  · intro k o found
    have before := keyed.found k o found
    rw [make_made i (make_made_lt (before.imp fun _ both => both.1))]
    exact before
  · intro o member
    have before := keyed.recent o member
    rw [make_made i (make_made_lt (before.imp fun _ both => both.1))]
    exact before

theorem Keyed.noticeOf_make (keyed : w.Keyed) (found : w.registry.identities k = some o) :
    (w.make i).2.noticeOf o = w.noticeOf o :=
  noticeOf_make_old i (make_made_lt ((keyed.found k o found).imp fun _ both => both.1))

theorem Backed.make (backed : w.Backed sha256 key) : (w.make i).2.Backed sha256 key := by
  apply backed.frame
  · exact fun failed => failed
  · rfl
  · intro o member found noticed
    rw [noticeOf_make_old i (lt_of_noticeOf noticed)]
    exact ⟨member, found, noticed⟩

theorem Sound.make (sound : w.Sound sha256) : (w.make i).2.Sound sha256 := by
  apply sound.frame (sound.keyed.make i)
  · intro k showing
    obtain ⟨o, found, noticed⟩ := showing
    rw [sound.keyed.noticeOf_make i found] at noticed
    exact Or.inl ⟨o, found, noticed⟩
  · intro k _ backed
    exact backed.make i

theorem strongCount_make (old : o < w.made.length) :
    (w.make i).2.strongCount o = w.strongCount o := by
  unfold strongCount Store.make
  rw [List.count_cons_of_ne (by omega)]

theorem Deleted.make (deleted : w.Deleted sha256 key first o₁) (keyed : w.Keyed) :
    (w.make i).2.Deleted sha256 key first o₁ := by
  have old : o₁ < w.made.length := lt_of_noticeOf (by rw [deleted.kept]; rfl)
  constructor
  · exact deleted.backed.make i
  · rw [noticeOf_make_old i old]
    exact deleted.kept
  · intro alive
    rw [strongCount_make i old] at alive
    exact deleted.owned alive
  · intro o n found noticed
    rw [keyed.noticeOf_make i found] at noticed
    exact deleted.labels o n found noticed

end Make

section Name

variable {i : Identity}

/-- On record whatever becomes of the identities. -/
def Firm (sha256 : Bytes → Bytes) (w : Store) (key : RedactionKey) : Prop :=
  w.registry.archiveFailed = true ∨
    ∃ rows, w.registry.archived = some rows ∧ archiveRow sha256 key ∈ rows

theorem Firm.backed (firm : w.Firm sha256 key) : w.Backed sha256 key :=
  firm.imp_right Or.inl

theorem identities_point (entry : Option Nat) (k : RedactionKey) :
    (w.point key entry).registry.identities k =
      if k = key then entry else w.registry.identities k := rfl

theorem noticeOf_eq {j : Identity} (placed : w.made[o]? = some j) : w.noticeOf o = j.notice := by
  rw [noticeOf, placed]
  rfl

/-- A new identity takes the place of one that shows no notice or that nobody holds. -/
theorem Keyed.name (keyed : w.Keyed) (same : i.key = key)
    (dim : ∀ o, w.upgrade key = some o → w.noticeOf o = none) :
    ((w.make i).2.point key (some w.made.length)).Keyed := by
  have made := keyed.make i
  constructor
  · intro k o found
    rw [identities_point] at found
    split at found
    · rename_i here
      cases found
      exact ⟨i, by simp [Store.make, Store.point], same.trans here.symm⟩
    · exact made.found k o found
  · intro o member
    have recent : o ∈ w.registry.recent := member
    obtain ⟨j, placed, noticed, found⟩ := keyed.recent o recent
    have other : j.key ≠ key := by
      intro here
      rw [here] at found
      have alive : w.upgrade key = some o :=
        Option.filter_eq_some_iff.mpr ⟨found, by simpa using strongCount_of_recent recent⟩
      have none := dim o alive
      rw [noticeOf_eq placed] at none
      rw [none] at noticed
      cases noticed
    refine ⟨j, ?_, noticed, ?_⟩
    · exact (make_made i (make_made_lt ⟨j, placed⟩)).trans placed
    · rw [identities_point, if_neg other]
      exact found

theorem Backed.name (backed : w.Backed sha256 k) (other : k ≠ key) :
    ((w.make i).2.point key (some w.made.length)).Backed sha256 k := by
  apply (backed.make i).frame
  · exact fun failed => failed
  · rfl
  · intro o member found noticed
    rw [identities_point, if_neg other]
    exact ⟨member, found, noticed⟩

theorem Sound.name (sound : w.Sound sha256) (same : i.key = key)
    (dim : ∀ o, w.upgrade key = some o → w.noticeOf o = none)
    (firm : i.notice.isSome → w.Firm sha256 key) :
    ((w.make i).2.point key (some w.made.length)).Sound sha256 := by
  have at_key : ((w.make i).2.point key (some w.made.length)).Shown key →
      ((w.make i).2.point key (some w.made.length)).Backed sha256 key := by
    intro showing
    obtain ⟨o, found, noticed⟩ := showing
    rw [identities_point, if_pos rfl] at found
    cases found
    rw [noticeOf_point, noticeOf_make_new] at noticed
    exact (firm noticed).imp_right Or.inl
  apply (sound.make i).frame (sound.keyed.name same dim)
  · intro k showing
    by_cases here : k = key
    · subst here
      exact Or.inr (at_key showing)
    · obtain ⟨o, found, noticed⟩ := showing
      rw [identities_point, if_neg here] at found
      exact Or.inl ⟨o, found, noticed⟩
  · intro k showing backed
    by_cases here : k = key
    · subst here
      exact at_key showing
    · apply backed.frame
      · exact fun failed => failed
      · rfl
      · intro o member found noticed
        rw [identities_point, if_neg here]
        exact ⟨member, found, noticed⟩

/-- A stand-in made for another key leaves the record of this one alone. -/
theorem Deleted.name_other (deleted : w.Deleted sha256 k first o₁) (keyed : w.Keyed)
    (other : k ≠ key) :
    ((w.make i).2.point key (some w.made.length)).Deleted sha256 k first o₁ := by
  have made := deleted.make i keyed
  constructor
  · exact deleted.backed.name other
  · exact made.kept
  · intro alive
    rw [identities_point, if_neg other]
    exact made.owned alive
  · intro o n found noticed
    rw [identities_point, if_neg other] at found
    exact made.labels o n found noticed

/-- A stand-in for the key itself is made when nobody holds the first identity any more. -/
theorem Deleted.name_self (deleted : w.Deleted sha256 key first o₁)
    (dim : ∀ o, w.upgrade key = some o → w.noticeOf o = none) (firm : w.Firm sha256 key)
    (text : i.notice = some messageDeleted ∨ i.notice = some messageUnavailable) :
    ((w.make i).2.point key (some w.made.length)).Deleted sha256 key first o₁ := by
  have old : o₁ < w.made.length := lt_of_noticeOf (by rw [deleted.kept]; rfl)
  constructor
  · exact firm.imp_right Or.inl
  · rw [noticeOf_point, noticeOf_make_old i old]
    exact deleted.kept
  · intro alive
    have held : 0 < w.strongCount o₁ := by
      rw [← strongCount_make i old]
      exact alive
    have found : w.upgrade key = some o₁ :=
      Option.filter_eq_some_iff.mpr ⟨deleted.owned held, by simpa using held⟩
    have gone := dim o₁ found
    rw [deleted.kept] at gone
    cases gone
  · intro o n found noticed
    rw [identities_point, if_pos rfl] at found
    cases found
    rw [noticeOf_point, noticeOf_make_new] at noticed
    rcases text with stored | unavailable
    · rw [stored] at noticed
      cases noticed
      exact Or.inr (Or.inl rfl)
    · rw [unavailable] at noticed
      cases noticed
      exact Or.inr (Or.inr rfl)

end Name

section Look

/-- What tracking a key comes to, after the sweep: the identity somebody holds, a stand-in with a
fixed notice, or a new identity with none. -/
inductive TrackCase (sha256 : Bytes → Bytes) (w : Store) (key : RedactionKey) :
    Nat × Store → Prop where
  | held (o : Nat) (alive : w.upgrade key = some o)
      (plain : w.noticeOf o = none → ¬w.Backed sha256 key) : TrackCase sha256 w key (o, w.hold o)
  | stood (v : Store) (i : Identity) (from_ : v = w ∨ v = w.archiveError) (same : i.key = key)
      (text : i.notice = some messageDeleted ∨ i.notice = some messageUnavailable)
      (firm : v.Firm sha256 key) (dim : ∀ o, w.upgrade key = some o → w.noticeOf o = none) :
      TrackCase sha256 w key (v.made.length, (v.make i).2.point key (some v.made.length))
  | fresh (dead : w.upgrade key = none) (plain : ¬w.Backed sha256 key) :
      TrackCase sha256 w key
        (w.made.length, (w.make ⟨key, none⟩).2.point key (some w.made.length))

theorem track_cases : TrackCase sha256 w.sweep key (w.track sha256 fails key) := by
  have looked : GetCase sha256 w.sweep key (w.sweep.get sha256 fails key) := get_cases
  unfold track
  generalize w.sweep.get sha256 fails key = answer at looked
  cases looked with
  | held o alive plain =>
      have found : (w.sweep.hold o).registry.identities key = some o := (upgrade_eq_some alive).1
      simp only [point_self found]
      exact TrackCase.held o alive plain
  | stored rows listed row dim =>
      exact TrackCase.stood w.sweep ⟨key, some messageDeleted⟩ (Or.inl rfl) rfl (Or.inl rfl)
        (Or.inr ⟨rows, listed, row⟩) dim
  | unavailable dim =>
      exact TrackCase.stood w.sweep.archiveError ⟨key, some messageUnavailable⟩ (Or.inr rfl) rfl
        (Or.inr rfl) (Or.inl rfl) dim
  | unknown dead plain => exact TrackCase.fresh dead plain

theorem Sound.get (sound : w.Sound sha256) : (w.get sha256 fails key).2.Sound sha256 := by
  have looked : GetCase sha256 w key (w.get sha256 fails key) := get_cases
  generalize w.get sha256 fails key = answer at looked
  cases looked with
  | held o alive plain => exact sound.hold o
  | stored rows listed row dim => exact sound.make _
  | unavailable dim => exact sound.archiveError.make _
  | unknown dead plain => exact sound

theorem Sound.track (sound : w.Sound sha256) : (w.track sha256 fails key).2.Sound sha256 := by
  have looked : TrackCase sha256 w.sweep key (w.track sha256 fails key) := track_cases
  generalize w.track sha256 fails key = answer at looked
  cases looked with
  | held o alive plain => exact sound.sweep.hold o
  | stood v i from_ same text firm dim =>
      rcases from_ with rfl | rfl
      · exact sound.sweep.name same dim fun _ => firm
      · exact sound.sweep.archiveError.name same dim fun _ => firm
  | fresh dead plain =>
      have same : (Identity.mk key none).key = key := rfl
      apply sound.sweep.name same
      · intro o alive
        rw [dead] at alive
        cases alive
      · intro noticed
        cases noticed

theorem Deleted.get (deleted : w.Deleted sha256 k first o₁) (keyed : w.Keyed) :
    (w.get sha256 fails key).2.Deleted sha256 k first o₁ := by
  have looked : GetCase sha256 w key (w.get sha256 fails key) := get_cases
  generalize w.get sha256 fails key = answer at looked
  cases looked with
  | held o alive plain => exact deleted.hold (upgrade_eq_some alive).2
  | stored rows listed row dim => exact deleted.make _ keyed
  | unavailable dim => exact deleted.archiveError.make _ ⟨keyed.found, keyed.recent⟩
  | unknown dead plain => exact deleted

theorem Deleted.track (deleted : w.Deleted sha256 k first o₁) (sound : w.Sound sha256) :
    (w.track sha256 fails key).2.Deleted sha256 k first o₁ := by
  have looked : TrackCase sha256 w.sweep key (w.track sha256 fails key) := track_cases
  have keyed := sound.sweep.keyed
  generalize w.track sha256 fails key = answer at looked
  cases looked with
  | held o alive plain => exact deleted.sweep.hold (upgrade_eq_some alive).2
  | stood v i from_ same text firm dim =>
      by_cases here : k = key
      · subst here
        rcases from_ with rfl | rfl
        · exact deleted.sweep.name_self dim firm text
        · exact deleted.sweep.archiveError.name_self dim firm text
      · rcases from_ with rfl | rfl
        · exact deleted.sweep.name_other keyed here
        · exact deleted.sweep.archiveError.name_other ⟨keyed.found, keyed.recent⟩ here
  | fresh dead plain =>
      apply deleted.sweep.name_other keyed
      intro here
      rw [← here] at plain
      exact plain deleted.sweep.backed

/-- What is shown for the key: the first notice while somebody holds its identity, and at any time
no other than that or the two fixed texts. -/
def Shows (w : Store) (first : Str) (o₁ : Nat) (answer : Option Nat × Store) : Prop :=
  ∃ n, noticeSeen answer = some n ∧ (n = first ∨ n = messageDeleted ∨ n = messageUnavailable) ∧
    (0 < w.strongCount o₁ → n = first)

theorem Deleted.shows_held (deleted : w.Deleted sha256 key first o₁)
    (alive : w.upgrade key = some o) (plain : w.noticeOf o = none → ¬w.Backed sha256 key) :
    w.Shows first o₁ (some o, w.hold o) := by
  have found := (upgrade_eq_some alive).1
  cases noticed : w.noticeOf o with
  | none => exact absurd deleted.backed (plain noticed)
  | some n =>
      refine ⟨n, noticed, deleted.labels o n found noticed, ?_⟩
      intro holding
      have same := (deleted.owned holding).symm.trans found
      cases same
      exact Option.some.inj (noticed.symm.trans deleted.kept)

theorem Deleted.shows_stood (deleted : w.Deleted sha256 key first o₁)
    (dim : ∀ o, w.upgrade key = some o → w.noticeOf o = none) (answer : Option Nat × Store)
    (text : noticeSeen answer = some messageDeleted ∨ noticeSeen answer = some messageUnavailable) :
    w.Shows first o₁ answer := by
  have unheld : ¬0 < w.strongCount o₁ := by
    intro holding
    have found : w.upgrade key = some o₁ :=
      Option.filter_eq_some_iff.mpr ⟨deleted.owned holding, by simpa using holding⟩
    have gone := dim o₁ found
    rw [deleted.kept] at gone
    cases gone
  rcases text with stored | unavailable
  · exact ⟨_, stored, Or.inr (Or.inl rfl), fun holding => absurd holding unheld⟩
  · exact ⟨_, unavailable, Or.inr (Or.inr rfl), fun holding => absurd holding unheld⟩

theorem Deleted.shows_get (deleted : w.Deleted sha256 key first o₁) :
    w.Shows first o₁ (w.get sha256 fails key) := by
  have looked : GetCase sha256 w key (w.get sha256 fails key) := get_cases
  generalize w.get sha256 fails key = answer at looked
  cases looked with
  | held o alive plain => exact deleted.shows_held alive plain
  | stored rows listed row dim =>
      exact deleted.shows_stood dim _ (Or.inl (noticeOf_make_new _))
  | unavailable dim =>
      exact deleted.shows_stood dim _ (Or.inr (noticeOf_make_new (w := w.archiveError) _))
  | unknown dead plain => exact absurd deleted.backed plain

theorem Deleted.shows_track (deleted : w.Deleted sha256 key first o₁) :
    w.Shows first o₁
      (some (w.track sha256 fails key).1, (w.track sha256 fails key).2) := by
  have looked : TrackCase sha256 w.sweep key (w.track sha256 fails key) := track_cases
  have shown : w.sweep.Shows first o₁
      (some (w.track sha256 fails key).1, (w.track sha256 fails key).2) := by
    generalize w.track sha256 fails key = answer at looked
    cases looked with
    | held o alive plain => exact deleted.sweep.shows_held alive plain
    | stood v i from_ same text firm dim =>
        apply deleted.sweep.shows_stood dim
        have seen : noticeSeen (some v.made.length,
            (v.make i).2.point key (some v.made.length)) = i.notice := noticeOf_make_new i
        rw [seen]
        exact text
    | fresh dead plain => exact absurd deleted.sweep.backed plain
  unfold Shows at shown ⊢
  rw [strongCount_sweep] at shown
  exact shown

end Look

section Redact

/-- A first deletion written to its identity and put among the recent ones. -/
def record (w : Store) (o : Nat) (notice : Str) : Store := (w.setNotice o notice).pushRecent o

theorem record_made (notice : Str) (p : Nat) :
    (w.record o notice).made[p]? =
      if o = p then w.made[p]?.map fun i => { i with notice := some notice } else w.made[p]? := by
  show (w.made.modify o _)[p]? = _
  rw [List.getElem?_modify]
  split
  · rfl
  · exact Option.map_id'

theorem noticeOf_record (notice : Str) (p : Nat) (other : o ≠ p) :
    (w.record o notice).noticeOf p = w.noticeOf p := by
  unfold noticeOf
  rw [record_made, if_neg other]

theorem noticeOf_record_self (notice : Str) (placed : ∃ i, w.made[o]? = some i) :
    (w.record o notice).noticeOf o = some notice := by
  obtain ⟨i, placed⟩ := placed
  unfold noticeOf
  rw [record_made, if_pos rfl, placed]
  rfl

theorem noticeOf_record_isSome (notice : Str) (p : Nat) (noticed : (w.noticeOf p).isSome) :
    ((w.record o notice).noticeOf p).isSome := by
  by_cases same : o = p
  · subst same
    have old := lt_of_noticeOf noticed
    rw [noticeOf_record_self notice ⟨_, List.getElem?_eq_getElem old⟩]
    rfl
  · rw [noticeOf_record notice p same]
    exact noticed

theorem Backed.record (backed : w.Backed sha256 k) (notice : Str) :
    (w.record o notice).Backed sha256 k := by
  apply backed.frame
  · exact fun failed => failed
  · rfl
  · intro p member found noticed
    exact ⟨List.mem_append_left [o] member, found, noticeOf_record_isSome notice p noticed⟩

variable {notice : Str}

theorem Sound.record (sound : w.Sound sha256) (found : w.registry.identities key = some o) :
    (w.record o notice).Sound sha256 := by
  obtain ⟨i, placed, named⟩ := sound.keyed.found key o found
  have keyed : (w.record o notice).Keyed := by
    constructor
    · intro k p entry
      obtain ⟨j, there, same⟩ := sound.keyed.found k p entry
      rw [record_made, there]
      split
      · exact ⟨_, rfl, same⟩
      · exact ⟨j, rfl, same⟩
    · intro p member
      by_cases same : o = p
      · subst same
        refine ⟨{ i with notice := some notice }, ?_, rfl, ?_⟩
        · rw [record_made, if_pos rfl, placed]
          rfl
        · show w.registry.identities i.key = some o
          rw [named]
          exact found
      · have old : p ∈ w.registry.recent := by
          rcases List.mem_append.mp member with before | new
          · exact before
          · exact absurd (List.mem_singleton.mp new).symm same
        rw [record_made, if_neg same]
        exact sound.keyed.recent p old
  apply sound.frame keyed
  · intro k showing
    obtain ⟨p, entry, noticed⟩ := showing
    by_cases same : o = p
    · subst same
      refine Or.inr (Or.inr (Or.inr ⟨o, ?_, entry, noticed⟩))
      exact List.mem_append_right _ (List.mem_singleton.mpr rfl)
    · rw [noticeOf_record notice p same] at noticed
      exact Or.inl ⟨p, entry, noticed⟩
  · intro k _ backed
    exact backed.record notice

/-- The record of one key is not touched by the first deletion of another. -/
theorem Deleted.record (deleted : w.Deleted sha256 k first o₁) (keyed : w.Keyed)
    (found : w.registry.identities key = some o) (other : k ≠ key) (dim : w.noticeOf o = none) :
    (w.record o notice).Deleted sha256 k first o₁ := by
  have apart : o ≠ o₁ := by
    intro same
    rw [same, deleted.kept] at dim
    cases dim
  constructor
  · exact deleted.backed.record notice
  · rw [noticeOf_record notice o₁ apart]
    exact deleted.kept
  · intro alive
    apply deleted.owned
    have counted : (w.record o notice).registry.recent.count o₁ = w.registry.recent.count o₁ := by
      show (w.registry.recent ++ [o]).count o₁ = _
      rw [List.count_append, List.count_singleton, if_neg (by simpa using apart), Nat.add_zero]
    unfold strongCount at alive
    rw [counted] at alive
    exact alive
  · intro p n entry noticed
    have different : o ≠ p := by
      intro same
      subst same
      obtain ⟨i, placed, named⟩ := keyed.found key o found
      obtain ⟨j, there, same⟩ := keyed.found k o entry
      rw [placed] at there
      cases there
      exact other (same.symm.trans named)
    rw [noticeOf_record notice p different] at noticed
    exact deleted.labels p n entry noticed

/-- The record begins with the first deletion of the key. -/
theorem deleted_record (found : w.registry.identities key = some o)
    (placed : ∃ i, w.made[o]? = some i) :
    (w.record o notice).Deleted sha256 key notice o := by
  have noticed := noticeOf_record_self notice placed
  constructor
  · refine Or.inr (Or.inr ⟨o, ?_, found, ?_⟩)
    · exact List.mem_append_right _ (List.mem_singleton.mpr rfl)
    · rw [noticed]
      rfl
  · exact noticed
  · intro _
    exact found
  · intro p n entry label
    have same := found.symm.trans entry
    cases same
    exact Or.inl (Option.some.inj (label.symm.trans noticed))

/-- The record of a key that already shows a notice begins with that notice. -/
theorem Sound.deleted_of_shown (sound : w.Sound sha256)
    (found : w.registry.identities key = some o) (noticed : w.noticeOf o = some first) :
    w.Deleted sha256 key first o := by
  constructor
  · apply sound.honest
    exact ⟨o, found, by rw [noticed]; rfl⟩
  · exact noticed
  · intro _
    exact found
  · intro p n entry label
    have same := found.symm.trans entry
    cases same
    exact Or.inl (Option.some.inj (label.symm.trans noticed))

end Redact

section Evict

/-- What archiving leaves as it was, and that the key is on record afterwards whether or not the
database took it. -/
structure Archived (sha256 : Bytes → Bytes) (w w' : Store) (key : RedactionKey) : Prop where
  made : w'.made = w.made
  handles : w'.handles = w.handles
  recent : w'.registry.recent = w.registry.recent
  identities : w'.registry.identities = w.registry.identities
  firm : ∀ k, w.Firm sha256 k → w'.Firm sha256 k
  done : w'.Firm sha256 key

/-- Archiving with a failure marked. -/
def archiveMarked (sha256 : Bytes → Bytes) (fails : Statement → Bool) (w : Store)
    (key : RedactionKey) : Store :=
  match w.archive sha256 fails key with
  | (.ok _, stored) => stored
  | (.error _, stored) => stored.archiveError

theorem archived_archiveMarked : w.Archived sha256 (w.archiveMarked sha256 fails key) key := by
  unfold archiveMarked archive
  split
  · rename_i r _ stored answered
    split at answered
    · cases answered
    · split at answered
      · cases answered
      · cases answered
        have kept : ∀ row, row ∈ (w.registry.archived.getD []) ∨ row = archiveRow sha256 key →
            row ∈ (if archiveRow sha256 key ∈ w.registry.archived.getD []
              then w.registry.archived.getD []
              else w.registry.archived.getD [] ++ [archiveRow sha256 key]) := by
          intro row old
          split
          · rename_i present
            rcases old with before | same
            · exact before
            · rw [same]
              exact present
          · rcases old with before | same
            · exact List.mem_append_left _ before
            · exact List.mem_append_right _ (List.mem_singleton.mpr same)
        refine ⟨rfl, rfl, rfl, rfl, ?_, ?_⟩
        · intro k firm
          rcases firm with failed | ⟨rows, listed, row⟩
          · exact Or.inl failed
          · exact Or.inr ⟨_, rfl, kept _ (Or.inl (by rw [listed]; exact row))⟩
        · exact Or.inr ⟨_, rfl, kept _ (Or.inr rfl)⟩
  · rename_i r _ stored answered
    split at answered
    · cases answered
      exact ⟨rfl, rfl, rfl, rfl, fun _ _ => Or.inl rfl, Or.inl rfl⟩
    · split at answered
      · cases answered
        exact ⟨rfl, rfl, rfl, rfl, fun _ _ => Or.inl rfl, Or.inl rfl⟩
      · cases answered

/-- The store with the oldest recent deletion taken out of the list. -/
def popped (w : Store) (rest : List Nat) : Store :=
  { w with registry := { w.registry with recent := rest } }

theorem evictOldest_eq {expired : Nat} {rest : List Nat} {i : Identity}
    (recent : w.registry.recent = expired :: rest) (placed : w.made[expired]? = some i) :
    w.evictOldest sha256 fails =
      if ((w.popped rest).archiveMarked sha256 fails i.key).strongCount expired = 0 then
        ((w.popped rest).archiveMarked sha256 fails i.key).point i.key none
      else (w.popped rest).archiveMarked sha256 fails i.key := by
  unfold evictOldest
  simp only [recent, placed]
  rfl

/-- What an eviction does: the key of the oldest deletion is on record for good, and its identity
is forgotten when nobody holds it. -/
inductive EvictCase (sha256 : Bytes → Bytes) (w : Store) : Store → Prop where
  | none (empty : w.registry.recent = []) : EvictCase sha256 w w
  | moved (expired : Nat) (rest : List Nat) (i : Identity) (v : Store) (entry : Bool)
      (recent : w.registry.recent = expired :: rest) (placed : w.made[expired]? = some i)
      (archived : (w.popped rest).Archived sha256 v i.key)
      (unheld : entry = true → v.strongCount expired = 0) :
      EvictCase sha256 w (if entry then v.point i.key none else v)

theorem evict_cases (keyed : w.Keyed) : EvictCase sha256 w (w.evictOldest sha256 fails) := by
  cases recent : w.registry.recent with
  | nil =>
      have same : w.evictOldest sha256 fails = w := by
        unfold evictOldest
        rw [recent]
      rw [same]
      exact EvictCase.none recent
  | cons expired rest =>
      obtain ⟨i, placed, -, -⟩ := keyed.recent expired (by rw [recent]; exact List.mem_cons_self)
      have archived : (w.popped rest).Archived sha256
          ((w.popped rest).archiveMarked sha256 fails i.key) i.key := archived_archiveMarked
      rw [evictOldest_eq recent placed]
      by_cases unheld : ((w.popped rest).archiveMarked sha256 fails i.key).strongCount expired = 0
      · rw [if_pos unheld]
        exact EvictCase.moved expired rest i _ true recent placed archived fun _ => unheld
      · rw [if_neg unheld]
        exact EvictCase.moved expired rest i _ false recent placed archived (by simp)

theorem Archived.noticeOf {v : Store} {rest : List Nat}
    (archived : (w.popped rest).Archived sha256 v key) (o : Nat) :
    v.noticeOf o = w.noticeOf o := by
  unfold Store.noticeOf
  rw [archived.made]
  rfl

theorem Archived.strongCount_le {v : Store} {expired : Nat} {rest : List Nat}
    (archived : (w.popped rest).Archived sha256 v key)
    (recent : w.registry.recent = expired :: rest) (o : Nat) :
    v.strongCount o ≤ w.strongCount o := by
  unfold strongCount
  rw [archived.recent, archived.handles, recent, List.count_cons]
  show rest.count o + w.handles.count o ≤ _
  omega

/-- A deletion on record stays on record when the oldest leaves the recent ones. -/
theorem Backed.evict {v : Store} {expired : Nat} {rest : List Nat} {i : Identity}
    (backed : w.Backed sha256 k) (keyed : w.Keyed) (entry : Bool)
    (recent : w.registry.recent = expired :: rest) (placed : w.made[expired]? = some i)
    (archived : (w.popped rest).Archived sha256 v i.key) :
    (if entry then v.point i.key none else v).Backed sha256 k := by
  have firm : ∀ k, v.Firm sha256 k → (if entry then v.point i.key none else v).Firm sha256 k := by
    intro k firm
    cases entry
    · exact firm
    · exact firm
  by_cases here : k = i.key
  · rw [here]
    exact (firm _ archived.done).backed
  · rcases backed with failed | listed | ⟨o, member, found, noticed⟩
    · exact (firm k (archived.firm k (Or.inl failed))).backed
    · exact (firm k (archived.firm k (Or.inr listed))).backed
    · have later : o ∈ rest := by
        rw [recent] at member
        rcases List.mem_cons.mp member with same | later
        · obtain ⟨j, there, named⟩ := keyed.found k o found
          rw [same, placed] at there
          cases there
          exact absurd named.symm here
        · exact later
      have shown : (v.noticeOf o).isSome := by
        rw [archived.noticeOf]
        exact noticed
      have inRecent : o ∈ v.registry.recent := by
        rw [archived.recent]
        exact later
      have entries : v.registry.identities k = some o := by
        rw [archived.identities]
        exact found
      cases entry
      · exact Or.inr (Or.inr ⟨o, inRecent, entries, shown⟩)
      · refine Or.inr (Or.inr ⟨o, inRecent, ?_, shown⟩)
        rw [if_pos rfl, identities_point, if_neg here]
        exact entries

theorem Sound.evict (sound : w.Sound sha256) : (w.evictOldest sha256 fails).Sound sha256 := by
  have evicted : EvictCase sha256 w (w.evictOldest sha256 fails) := evict_cases sound.keyed
  generalize w.evictOldest sha256 fails = w' at evicted
  cases evicted with
  | none empty => exact sound
  | moved expired rest i v entry recent placed archived unheld =>
      have entries : ∀ k o, (if entry then v.point i.key none else v).registry.identities k = some o →
          w.registry.identities k = some o := by
        intro k o found
        cases entry
        · rw [if_neg (by simp), archived.identities] at found
          exact found
        · rw [if_pos rfl, identities_point] at found
          split at found
          · cases found
          · rw [archived.identities] at found
            exact found
      have made : (if entry then v.point i.key none else v).made = w.made := by
        cases entry
        · exact archived.made
        · exact archived.made
      have notices : ∀ o, (if entry then v.point i.key none else v).noticeOf o = w.noticeOf o := by
        intro o
        unfold noticeOf
        rw [made]
      have keyed : (if entry then v.point i.key none else v).Keyed := by
        constructor
        · intro k o found
          rw [made]
          exact sound.keyed.found k o (entries k o found)
        · intro o member
          have later : o ∈ v.registry.recent := by
            cases entry
            · exact member
            · exact member
          have before : o ∈ w.registry.recent := by
            rw [archived.recent] at later
            rw [recent]
            exact List.mem_cons_of_mem expired later
          obtain ⟨j, there, noticed, found⟩ := sound.keyed.recent o before
          refine ⟨j, by rw [made]; exact there, noticed, ?_⟩
          have kept : v.registry.identities j.key = some o := by
            rw [archived.identities]
            exact found
          cases entry
          · exact kept
          · rw [if_pos rfl, identities_point]
            split
            · rename_i same
              have entry : w.registry.identities i.key = some expired := by
                obtain ⟨l, there', -, found'⟩ := sound.keyed.recent expired
                  (by rw [recent]; exact List.mem_cons_self)
                rw [placed] at there'
                cases there'
                exact found'
              rw [same, entry] at found
              cases found
              exact absurd (unheld rfl) (Nat.pos_iff_ne_zero.mp (strongCount_of_recent later))
            · exact kept
      apply sound.frame keyed
      · intro k showing
        obtain ⟨o, found, noticed⟩ := showing
        rw [notices] at noticed
        exact Or.inl ⟨o, entries k o found, noticed⟩
      · intro k _ backed
        exact backed.evict sound.keyed entry recent placed archived

theorem Deleted.evict (deleted : w.Deleted sha256 k first o₁) (keyed : w.Keyed) :
    (w.evictOldest sha256 fails).Deleted sha256 k first o₁ := by
  have evicted : EvictCase sha256 w (w.evictOldest sha256 fails) := evict_cases keyed
  generalize w.evictOldest sha256 fails = w' at evicted
  cases evicted with
  | none empty => exact deleted
  | moved expired rest i v entry recent placed archived unheld =>
      constructor
      · exact deleted.backed.evict keyed entry recent placed archived
      · cases entry
        · exact (archived.noticeOf o₁).trans deleted.kept
        · exact (archived.noticeOf o₁).trans deleted.kept
      · intro alive
        have counted : 0 < v.strongCount o₁ := by
          cases entry
          · exact alive
          · exact alive
        have found := deleted.owned
          (Nat.lt_of_lt_of_le counted (archived.strongCount_le recent o₁))
        have kept : v.registry.identities k = some o₁ := by
          rw [archived.identities]
          exact found
        cases entry
        · exact kept
        · rw [if_pos rfl, identities_point]
          split
          · rename_i same
            obtain ⟨l, there, -, entry⟩ := keyed.recent expired
              (by rw [recent]; exact List.mem_cons_self)
            rw [placed] at there
            cases there
            rw [same, entry] at found
            cases found
            exact absurd (unheld rfl) (Nat.pos_iff_ne_zero.mp counted)
          · exact kept
      · intro o n found noticed
        have before : w.registry.identities k = some o := by
          cases entry
          · rw [if_neg (by simp), archived.identities] at found
            exact found
          · rw [if_pos rfl, identities_point] at found
            split at found
            · cases found
            · rw [archived.identities] at found
              exact found
        have same : w.noticeOf o = some n := by
          rw [← archived.noticeOf]
          cases entry
          · exact noticed
          · exact noticed
        exact deleted.labels o n before same

end Evict

section Steps

theorem sound_rounds (sound : w.Sound sha256) (rounds : Nat) :
    ((fun s => s.evictOldest sha256 fails)^[rounds] w).Sound sha256 := by
  induction rounds generalizing w with
  | zero => exact sound
  | succ rounds ih =>
      rw [Function.iterate_succ_apply]
      exact ih sound.evict

theorem Sound.evictOver (sound : w.Sound sha256) : (w.evictOver sha256 fails).Sound sha256 :=
  sound_rounds sound _

theorem Deleted.evictOver (deleted : w.Deleted sha256 k first o₁) (sound : w.Sound sha256) :
    (w.evictOver sha256 fails).Deleted sha256 k first o₁ := by
  unfold Store.evictOver
  generalize w.registry.recent.length - w.registry.recentLimit = rounds
  induction rounds with
  | zero => exact deleted
  | succ rounds ih =>
      rw [Function.iterate_succ_apply']
      exact ih.evict (sound_rounds sound rounds).keyed

/-- The tracked identity is the one found under the key. -/
theorem track_found :
    (w.track sha256 fails key).2.registry.identities key = some (w.track sha256 fails key).1 := by
  have looked : TrackCase sha256 w.sweep key (w.track sha256 fails key) := track_cases
  generalize w.track sha256 fails key = answer at looked
  cases looked with
  | held o alive plain => exact (upgrade_eq_some alive).1
  | stood v i from_ same text firm dim => exact if_pos rfl
  | fresh dead plain => exact if_pos rfl

theorem redact_eq (notice : Str) : w.redact sha256 fails key notice =
    if ((w.track sha256 fails key).2.noticeOf (w.track sha256 fails key).1).isSome then
      w.track sha256 fails key
    else ((w.track sha256 fails key).1,
      ((w.track sha256 fails key).2.record (w.track sha256 fails key).1 notice).evictOver sha256
        fails) := rfl

theorem Sound.redact (sound : w.Sound sha256) (notice : Str) :
    (w.redact sha256 fails key notice).2.Sound sha256 := by
  rw [redact_eq]
  split
  · exact sound.track
  · exact (sound.track.record track_found).evictOver

/-- A redaction puts the deletion of its key on record, under the notice the key had already shown
or else its own. -/
theorem Sound.deleted_redact (sound : w.Sound sha256) (notice : Str) :
    (w.redact sha256 fails key notice).2.Deleted sha256 key
      (((w.track sha256 fails key).2.noticeOf (w.track sha256 fails key).1).getD notice)
      (w.redact sha256 fails key notice).1 := by
  have tracked : (w.track sha256 fails key).2.Sound sha256 := sound.track
  have found : (w.track sha256 fails key).2.registry.identities key =
      some (w.track sha256 fails key).1 := track_found
  rw [redact_eq]
  cases noticed : (w.track sha256 fails key).2.noticeOf (w.track sha256 fails key).1 with
  | some first =>
      exact tracked.deleted_of_shown found noticed
  | none =>
      obtain ⟨i, placed, -⟩ := tracked.keyed.found key _ found
      exact (deleted_record found ⟨i, placed⟩).evictOver (tracked.record found)

theorem Deleted.redact (deleted : w.Deleted sha256 k first o₁) (sound : w.Sound sha256)
    (notice : Str) : (w.redact sha256 fails key notice).2.Deleted sha256 k first o₁ := by
  have tracked : (w.track sha256 fails key).2.Sound sha256 := sound.track
  have kept : (w.track sha256 fails key).2.Deleted sha256 k first o₁ := deleted.track sound
  rw [redact_eq]
  split
  · exact kept
  · rename_i dim
    have other : k ≠ key := by
      intro here
      subst here
      obtain ⟨n, shown, -⟩ : w.Shows first o₁
          (some (w.track sha256 fails k).1, (w.track sha256 fails k).2) := deleted.shows_track
      have seen : (w.track sha256 fails k).2.noticeOf (w.track sha256 fails k).1 = some n := shown
      rw [seen] at dim
      exact dim rfl
    exact (kept.record tracked.keyed track_found other (by simpa using dim)).evictOver
      (tracked.record track_found)

theorem Deleted.shows_redact (deleted : w.Deleted sha256 key first o₁) (notice : Str) :
    w.Shows first o₁ (some (w.redact sha256 fails key notice).1,
      (w.redact sha256 fails key notice).2) := by
  have shows : w.Shows first o₁
      (some (w.track sha256 fails key).1, (w.track sha256 fails key).2) := deleted.shows_track
  obtain ⟨n, shown, -⟩ := id shows
  have seen : (w.track sha256 fails key).2.noticeOf (w.track sha256 fails key).1 = some n := shown
  rw [redact_eq, if_pos (by rw [seen]; rfl)]
  exact shows

theorem Sound.drop (sound : w.Sound sha256) (handles : List Nat) :
    Sound sha256 { w with handles } :=
  ⟨⟨sound.keyed.found, sound.keyed.recent⟩, sound.honest⟩

theorem Deleted.drop (deleted : w.Deleted sha256 key first o₁) (handles : List Nat)
    (fewer : ∀ p, handles.count p ≤ w.handles.count p) :
    Deleted sha256 { w with handles } key first o₁ := by
  constructor
  · exact deleted.backed
  · exact deleted.kept
  · intro alive
    apply deleted.owned
    have less := fewer o₁
    unfold strongCount at alive ⊢
    simp only at alive
    omega
  · exact deleted.labels

end Steps

section Retain

variable {active : List Str}

theorem retainScopes_made : (w.retainScopes sha256 fails active).made = w.made := by
  unfold retainScopes deleteScopes
  split <;> rfl

theorem retainScopes_handles : (w.retainScopes sha256 fails active).handles = w.handles := by
  unfold retainScopes deleteScopes
  split <;> rfl

theorem retainScopes_recent : (w.retainScopes sha256 fails active).registry.recent =
    w.registry.recent.filter fun o =>
      (w.made[o]?).any fun (identity : Identity) => decide (identity.key.1 ∈ active) := by
  unfold retainScopes deleteScopes
  split <;> rfl

theorem noticeOf_retainScopes :
    (w.retainScopes sha256 fails active).noticeOf o = w.noticeOf o := by
  unfold noticeOf
  rw [retainScopes_made]

theorem strongCount_retainScopes_le :
    (w.retainScopes sha256 fails active).strongCount o ≤ w.strongCount o := by
  unfold strongCount
  rw [retainScopes_recent, retainScopes_handles]
  apply Nat.add_le_add_right
  exact List.filter_sublist.count_le o

/-- An identity is found afterwards when its scope is retained and it is still held. -/
theorem retainScopes_identities :
    (w.retainScopes sha256 fails active).registry.identities k = some o ↔
      k.1 ∈ active ∧ w.registry.identities k = some o ∧
        0 < (w.retainScopes sha256 fails active).strongCount o := by
  unfold retainScopes deleteScopes
  split
  · by_cases inScope : k.1 ∈ active
    · simp [inScope, Option.filter_eq_some_iff, strongCount]
    · simp [inScope]
  · by_cases inScope : k.1 ∈ active
    · simp [inScope, Option.filter_eq_some_iff, strongCount]
    · simp [inScope]

theorem mem_retainScopes_recent (keyed : w.Keyed) (member : o ∈ w.registry.recent)
    (found : w.registry.identities k = some o) (inScope : k.1 ∈ active) :
    o ∈ (w.retainScopes sha256 fails active).registry.recent := by
  obtain ⟨i, placed, named⟩ := keyed.found k o found
  rw [retainScopes_recent, List.mem_filter]
  refine ⟨member, ?_⟩
  rw [placed]
  simpa [named] using inScope

theorem retainScopes_archived {rows : List (Bytes × Bytes)} (some_ : active ≠ [])
    (listed : w.registry.archived = some rows) :
    (w.retainScopes sha256 fails active).registry.archived = some (rows.filter fun row =>
      ((w.registry.archivedScopes.filter fun scope => decide (scope ∉ active)).filter
        fun scope => !fails (.delete scope)).all
          fun scope => decide (row.1 ≠ scopeDigest sha256 scope)) := by
  unfold retainScopes deleteScopes
  simp [listed, some_]

theorem Backed.retain (backed : w.Backed sha256 k) (keyed : w.Keyed)
    (collisionFree : Function.Injective sha256) (inScope : k.1 ∈ active) :
    (w.retainScopes sha256 fails active).Backed sha256 k := by
  have some : active ≠ [] := List.ne_nil_of_mem inScope
  rcases backed with failed | ⟨rows, listed, row⟩ | ⟨o, member, found, noticed⟩
  · left
    unfold retainScopes deleteScopes
    split
    · simpa [some] using failed
    · simp [some, failed]
  · right
    left
    refine ⟨_, retainScopes_archived some listed, ?_⟩
    rw [List.mem_filter]
    refine ⟨row, ?_⟩
    simp only [List.all_eq_true, List.mem_filter, decide_eq_true_eq]
    intro scope gone same
    have equal : k.1 = scope := utf8_injective _ _ (collisionFree same)
    rw [equal] at inScope
    exact gone.1.2 inScope
  · have kept : o ∈ (w.retainScopes sha256 fails active).registry.recent :=
      mem_retainScopes_recent keyed member found inScope
    refine Or.inr (Or.inr ⟨o, kept, ?_, ?_⟩)
    · exact retainScopes_identities.mpr ⟨inScope, found, strongCount_of_recent kept⟩
    · rw [noticeOf_retainScopes]
      exact noticed

theorem Sound.retain (sound : w.Sound sha256) (collisionFree : Function.Injective sha256) :
    (w.retainScopes sha256 fails active).Sound sha256 := by
  have keyed : (w.retainScopes sha256 fails active).Keyed := by
    constructor
    · intro k o found
      rw [retainScopes_made]
      exact sound.keyed.found k o (retainScopes_identities.mp found).2.1
    · intro o member
      have counted := strongCount_of_recent member
      rw [retainScopes_recent, List.mem_filter] at member
      obtain ⟨i, placed, noticed, found⟩ := sound.keyed.recent o member.1
      have inScope : i.key.1 ∈ active := by
        have inside := member.2
        rw [placed] at inside
        simpa using inside
      rw [retainScopes_made]
      exact ⟨i, placed, noticed, retainScopes_identities.mpr ⟨inScope, found, counted⟩⟩
  apply sound.frame keyed
  · intro k showing
    obtain ⟨o, found, noticed⟩ := showing
    rw [noticeOf_retainScopes] at noticed
    exact Or.inl ⟨o, (retainScopes_identities.mp found).2.1, noticed⟩
  · intro k showing backed
    obtain ⟨o, found, -⟩ := showing
    exact backed.retain sound.keyed collisionFree (retainScopes_identities.mp found).1

theorem Deleted.retain (deleted : w.Deleted sha256 key first o₁) (keyed : w.Keyed)
    (collisionFree : Function.Injective sha256) (inScope : key.1 ∈ active) :
    (w.retainScopes sha256 fails active).Deleted sha256 key first o₁ := by
  constructor
  · exact deleted.backed.retain keyed collisionFree inScope
  · rw [noticeOf_retainScopes]
    exact deleted.kept
  · intro alive
    have before := deleted.owned (Nat.lt_of_lt_of_le alive strongCount_retainScopes_le)
    exact retainScopes_identities.mpr ⟨inScope, before, alive⟩
  · intro o n found noticed
    rw [noticeOf_retainScopes] at noticed
    exact deleted.labels o n (retainScopes_identities.mp found).2.1 noticed

end Retain

end Store

/-- The scope is among those the step leaves active. -/
def RegistryStep.Retains (scope : Str) (step : RegistryStep) : Prop :=
  ∀ active, step.op = .retainScopes active → scope ∈ active

/-- The step returns the identity of the key. -/
def RegistryStep.Reads (key : RedactionKey) (step : RegistryStep) : Prop :=
  step.op = .get key ∨ step.op = .track key ∨ ∃ notice, step.op = .redact key notice

open Store

theorem sound_exec (collisionFree : Function.Injective sha256) (step : RegistryStep)
    (sound : w.Sound sha256) : (w.exec sha256 step).Sound sha256 := by
  obtain ⟨op, fails⟩ := step
  cases op with
  | get key => exact sound.get
  | track key => exact sound.track
  | redact key notice => exact sound.redact notice
  | retainScopes active => exact sound.retain collisionFree
  | clone o =>
      unfold Store.exec Store.answer
      simp only
      split
      · exact sound.hold o
      · exact sound
  | drop o => exact sound.drop _

theorem deleted_exec (collisionFree : Function.Injective sha256) (step : RegistryStep)
    {first : Str} {o₁ : Nat} (sound : w.Sound sha256) (deleted : w.Deleted sha256 key first o₁)
    (retains : step.Retains key.1) : (w.exec sha256 step).Deleted sha256 key first o₁ := by
  obtain ⟨op, fails⟩ := step
  cases op with
  | get k => exact deleted.get sound.keyed
  | track k => exact deleted.track sound
  | redact k notice => exact deleted.redact sound notice
  | retainScopes active =>
      exact deleted.retain sound.keyed collisionFree (retains active rfl)
  | clone o =>
      unfold Store.exec Store.answer
      simp only
      split
      · rename_i held
        apply deleted.hold
        have counted := List.count_pos_iff.mpr held
        unfold strongCount
        omega
      · exact deleted
  | drop o =>
      apply deleted.drop
      intro p
      exact List.erase_sublist.count_le p

theorem sound_new (recentLimit : Nat) : (Store.new recentLimit).Sound sha256 := by
  constructor
  · constructor
    · intro k o found
      cases found
    · intro o member
      cases member
  · intro k showing
    obtain ⟨o, found, -⟩ := showing
    cases found

/-- From the step that redacts a key on, while its scope is retained, whoever looks at the key or
redacts it again gets a notice: the one first recorded as long as its identity is held, and
otherwise no other than that or one of the fixed texts. -/
theorem redaction_is_fail_closed (sha256 : Bytes → Bytes)
    (collisionFree : Function.Injective sha256) (recentLimit : Nat)
    (before after : List RegistryStep) (key : RedactionKey) (notice : Str)
    (fails : Statement → Bool) (retained : ∀ step ∈ after, step.Retains key.1) :
    let w₀ := runFrom (Store.exec sha256) (.new recentLimit) before
    let tracked := w₀.track sha256 fails key
    let redacted := w₀.redact sha256 fails key notice
    let w := runFrom (Store.exec sha256) redacted.2 after
    let first := (tracked.2.noticeOf tracked.1).getD notice
    redacted.2.noticeOf redacted.1 = some first ∧
      ∀ step, RegistryStep.Reads key step →
        w.Shows first redacted.1 (w.answer sha256 step) := by
  intro w₀ tracked redacted w first
  have sound₀ : w₀.Sound sha256 :=
    runFrom_invariant (fun w : Store => w.Sound sha256) (fun _ step => sound_exec collisionFree step) _
      before (sound_new recentLimit)
  have recorded : redacted.2.Deleted sha256 key first redacted.1 := sound₀.deleted_redact notice
  have later : ∀ steps : List RegistryStep, (∀ step ∈ steps, step.Retains key.1) →
      ∀ s : Store, s.Sound sha256 → s.Deleted sha256 key first redacted.1 →
        (runFrom (Store.exec sha256) s steps).Deleted sha256 key first redacted.1 := by
    intro steps
    induction steps with
    | nil => exact fun _ s _ deleted => deleted
    | cons step rest ih =>
        intro within s sound deleted
        rw [runFrom_cons]
        apply ih fun other member => within other (List.mem_cons_of_mem step member)
        · exact sound_exec collisionFree step sound
        · exact deleted_exec collisionFree step sound deleted (within step List.mem_cons_self)
  have deleted : w.Deleted sha256 key first redacted.1 :=
    later after retained redacted.2 (sound₀.redact notice) recorded
  constructor
  · exact recorded.kept
  · intro step reads
    obtain ⟨op, fails'⟩ := step
    rcases reads with rfl | rfl | ⟨other, rfl⟩
    · exact deleted.shows_get
    · exact deleted.shows_track
    · exact deleted.shows_redact other

def keyA : RedactionKey := (['s'], ['t'], ['a'])

def keyB : RedactionKey := (['s'], ['t'], ['b'])

/-- The holder lets go, another deletion takes the only recent place, and the scope is retained. -/
def evictingSteps : List RegistryStep :=
  [⟨.drop 0, fun _ => false⟩, ⟨.redact keyB ['y'], fun _ => false⟩,
    ⟨.retainScopes [['s']], fun _ => false⟩]

theorem redaction_is_fail_closed_evicted :
    let redacted := (Store.new 1).redact id (fun _ => false) keyA ['x']
    let w := runFrom (Store.exec id) redacted.2 evictingSteps
    w.Shows ['x'] 0 (w.answer id ⟨.redact keyA ['z'], fun _ => true⟩) :=
  (redaction_is_fail_closed id Function.injective_id 1 [] evictingSteps keyA ['x'] (fun _ => false)
    (by
      intro step member active retaining
      fin_cases member
      · cases retaining
      · cases retaining
      · cases retaining
        exact List.mem_singleton.mpr rfl)).2
    ⟨.redact keyA ['z'], fun _ => true⟩ (Or.inr (Or.inr ⟨['z'], rfl⟩))

/-- Once the identity is let go and evicted, a fixed text stands where the first notice stood. -/
theorem evicted_notice_is_not_the_first :
    ¬∀ (sha256 : Bytes → Bytes), Function.Injective sha256 → ∀ (recentLimit : Nat)
        (before after : List RegistryStep) (key : RedactionKey) (notice : Str)
        (fails : Statement → Bool), (∀ step ∈ after, step.Retains key.1) →
      let w₀ := runFrom (Store.exec sha256) (.new recentLimit) before
      let redacted := w₀.redact sha256 fails key notice
      let w := runFrom (Store.exec sha256) redacted.2 after
      ∀ step, RegistryStep.Reads key step →
        noticeSeen (w.answer sha256 step) = redacted.2.noticeOf redacted.1 := by
  intro always
  have same := always id Function.injective_id 1 [] evictingSteps keyA ['x'] (fun _ => false)
    (by
      intro step member active retaining
      fin_cases member
      · cases retaining
      · cases retaining
      · cases retaining
        exact List.mem_singleton.mpr rfl) ⟨.get keyA, fun _ => false⟩ (Or.inl rfl)
  have differs : noticeSeen ((runFrom (Store.exec id)
      ((Store.new 1).redact id (fun _ => false) keyA ['x']).2 evictingSteps).answer id
        ⟨.get keyA, fun _ => false⟩) = some messageDeleted := by decide
  rw [runFrom_nil] at same
  rw [differs] at same
  exact absurd same (by decide)

end Repartee.State
