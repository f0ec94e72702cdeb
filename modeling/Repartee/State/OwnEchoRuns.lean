import Repartee.State.OwnEchoes

/-!
Runs of the reflection records. A message's records are kept or dropped together in every run if and
only if no message files more records than the cap or takes so long to file them that one of them
expires meanwhile: the message that files is not spared when its own records reach the cap.
-/

namespace Repartee.State

open Repartee.Lib
open Repartee.Translate (WireOrigin)

/-- The records of one message. -/
def ofMessage (id : Nat) (records : List OwnEchoDecoration) : List OwnEchoDecoration :=
  records.filter fun d => decide (d.echoId = id)

section Dropping

variable {entries others own : List OwnEchoDecoration} {dropped : List Nat} {id now : Nat}

theorem ofMessage_append (id : Nat) (a b : List OwnEchoDecoration) :
    ofMessage id (a ++ b) = ofMessage id a ++ ofMessage id b :=
  List.filter_append a b

theorem ofMessage_none (absent : ∀ d ∈ entries, d.echoId ≠ id) : ofMessage id entries = [] := by
  apply List.filter_eq_nil_iff.mpr
  intro d member
  simpa using absent d member

theorem ofMessage_all (all_ : ∀ d ∈ entries, d.echoId = id) : ofMessage id entries = entries := by
  apply List.filter_eq_self.mpr
  intro d member
  simpa using all_ d member

theorem ofMessage_without (dropped : List Nat) (id : Nat) (entries : List OwnEchoDecoration) :
    ofMessage id (without entries dropped) = if id ∈ dropped then [] else ofMessage id entries := by
  rw [ofMessage, without, List.filter_filter]
  split
  · next gone =>
      apply List.filter_eq_nil_iff.mpr
      intro d _
      simp only [Bool.and_eq_true, decide_eq_true_eq, not_and, not_not]
      intro same
      rw [same]
      exact gone
  · next kept =>
      apply List.filter_congr
      intro d _
      by_cases same : d.echoId = id
      · simp [same, kept]
      · simp [same]

theorem without_append (dropped : List Nat) (a b : List OwnEchoDecoration) :
    without (a ++ b) dropped = without a dropped ++ without b dropped :=
  List.filter_append a b

theorem without_own (same : ∀ d ∈ own, d.echoId = id) :
    without own dropped = if id ∈ dropped then [] else own := by
  rw [← ofMessage_all same]
  have commute : without (ofMessage id own) dropped = ofMessage id (without own dropped) := by
    rw [ofMessage, ofMessage, without, without, List.filter_filter, List.filter_filter]
    apply List.filter_congr
    intro d _
    exact Bool.and_comm _ _
  rw [commute, ofMessage_without]

theorem mem_expiredIds :
    id ∈ expiredIds entries now ↔ ∃ d ∈ entries, d.echoId = id ∧ d.expired now = true := by
  have gather (late : List OwnEchoDecoration) (start : List Nat) :
      id ∈ late.foldl (fun dropped d =>
          if d.echoId ∈ dropped then dropped else dropped ++ [d.echoId]) start ↔
        id ∈ start ∨ ∃ d ∈ late, d.echoId = id := by
    induction late generalizing start with
    | nil => simp
    | cons d rest ih =>
        rw [List.foldl_cons, ih]
        by_cases known : d.echoId ∈ start
        · rw [if_pos known]
          constructor
          · rintro (before | ⟨e, member, same⟩)
            · exact Or.inl before
            · exact Or.inr ⟨e, List.mem_cons_of_mem d member, same⟩
          · rintro (before | ⟨e, member, same⟩)
            · exact Or.inl before
            · rcases List.mem_cons.mp member with rfl | later
              · exact Or.inl (same ▸ known)
              · exact Or.inr ⟨e, later, same⟩
        · rw [if_neg known]
          simp only [List.mem_append, List.mem_singleton, List.exists_mem_cons_iff, or_assoc,
            eq_comm]
  rw [expiredIds, gather]
  simp only [List.not_mem_nil, false_or, List.mem_filter, and_assoc]
  constructor
  · rintro ⟨d, member, late, same⟩
    exact ⟨d, member, same, late⟩
  · rintro ⟨d, member, same, late⟩
    exact ⟨d, member, late, same⟩

theorem evictOldest_keeps (rounds : Nat) (gone : id ∈ dropped) :
    id ∈ evictOldest entries rounds dropped := by
  induction rounds generalizing dropped with
  | zero => exact gone
  | succ rounds ih =>
      rw [evictOldest]
      split
      · split
        · exact ih (List.mem_append_left _ gone)
        · exact gone
      · exact gone

/-- A record that survives is dropped with its message, so that fewer survive. -/
theorem without_shorter {oldest : OwnEchoDecoration}
    (first : (without entries dropped).head? = some oldest) :
    (without entries (dropped ++ [oldest.echoId])).length < (without entries dropped).length := by
  have inside : oldest ∈ without entries dropped := List.mem_of_mem_head? first
  have fewer : without entries (dropped ++ [oldest.echoId]) =
      (without entries dropped).filter fun d => decide (d.echoId ≠ oldest.echoId) := by
    rw [without, without, List.filter_filter]
    apply List.filter_congr
    intro d _
    simp [not_or, and_comm]
  rw [fewer]
  apply List.length_filter_lt_length_iff_exists.mpr
  exact ⟨oldest, inside, by simp⟩

/-- With as many rounds as records the cap is met. -/
theorem evictOldest_below (rounds : Nat) (enough : (without entries dropped).length ≤ rounds) :
    (without entries (evictOldest entries rounds dropped)).length < ownEchoMax := by
  induction rounds generalizing dropped with
  | zero =>
      rw [evictOldest, Nat.le_zero.mp enough]
      decide
  | succ rounds ih =>
      rw [evictOldest]
      split
      · cases first : (without entries dropped).head? with
        | some oldest =>
            apply ih
            have shorter := without_shorter first
            omega
        | none =>
            rw [List.head?_eq_none_iff.mp first]
            decide
      · next below => exact Nat.lt_of_not_le below

/-- A message at the end of the queue that is below the cap is spared. -/
theorem evictOldest_spares (rounds : Nat) (same : ∀ d ∈ own, d.echoId = id)
    (apart : ∀ d ∈ others, d.echoId ≠ id) (few : own.length < ownEchoMax) (kept : id ∉ dropped) :
    id ∉ evictOldest (others ++ own) rounds dropped := by
  induction rounds generalizing dropped with
  | zero => exact kept
  | succ rounds ih =>
      have survivors : without (others ++ own) dropped = without others dropped ++ own := by
        rw [without_append, without_own same, if_neg kept]
      rw [evictOldest, survivors]
      split
      · next reached =>
          cases rest : without others dropped with
          | nil =>
              rw [rest, List.nil_append] at reached
              exact absurd few (Nat.not_lt.mpr reached)
          | cons oldest later =>
              apply ih
              intro member
              rcases List.mem_append.mp member with before | last
              · exact kept before
              · have inside : oldest ∈ without others dropped := by
                  rw [rest]
                  exact List.mem_cons_self
                have other := apart oldest (List.mem_filter.mp inside).1
                exact other (List.mem_singleton.mp last).symm
      · exact kept

end Dropping

section Filing

variable {others own : List OwnEchoDecoration} {id now : Nat}

/-- What the records of the message that files become. -/
def ownStep (own : List OwnEchoDecoration) (filing : OwnEchoDecoration × Nat) :
    List OwnEchoDecoration :=
  if own.length < ownEchoMax ∧ ∀ d ∈ own, d.expired filing.2 = false then own ++ [filing.1]
  else [filing.1]

theorem droppedFor_own (same : ∀ d ∈ own, d.echoId = id) (apart : ∀ d ∈ others, d.echoId ≠ id) :
    without own (droppedFor (others ++ own) now) =
      if own.length < ownEchoMax ∧ ∀ d ∈ own, d.expired now = false then own else [] := by
  rw [without_own same]
  split
  · next gone =>
      split
      · next holds =>
          exfalso
          have early : id ∉ expiredIds (others ++ own) now := by
            intro member
            rcases mem_expiredIds.mp member with ⟨d, inside, same_, late⟩
            rcases List.mem_append.mp inside with before | mine
            · exact apart d before same_
            · rw [holds.2 d mine] at late
              cases late
          exact evictOldest_spares _ same apart holds.1 early gone
      · rfl
  · next kept =>
      split
      · rfl
      · next fails =>
          by_contra some_
          apply fails
          constructor
          · have enough : (without (others ++ own) (expiredIds (others ++ own) now)).length ≤
                (others ++ own).length := List.length_filter_le _ _
            have below := evictOldest_below _ enough
            rw [← droppedFor, without_append, List.length_append, without_own same, if_neg kept]
              at below
            omega
          · intro d member
            by_contra late
            rw [Bool.not_eq_false] at late
            apply kept
            apply evictOldest_keeps
            exact mem_expiredIds.mpr ⟨d, List.mem_append_right _ member, same d member, late⟩

/-- Other messages are kept whole or dropped whole. -/
def Thinned (before after : List OwnEchoDecoration) : Prop :=
  ∀ id, ofMessage id after = [] ∨ ofMessage id after = ofMessage id before

theorem thinned_without (dropped : List Nat) (entries : List OwnEchoDecoration) :
    Thinned entries (without entries dropped) := by
  intro id
  rw [ofMessage_without]
  split
  · exact Or.inl rfl
  · exact Or.inr rfl

theorem Thinned.trans {a b c : List OwnEchoDecoration} (first : Thinned a b) (second : Thinned b c) :
    Thinned a c := by
  intro id
  rcases second id with none_ | same
  · exact Or.inl none_
  · rw [same]
    exact first id

/-- Filing one record of a message at the end of the queue. -/
theorem decorateOwnEcho_own (filing : OwnEchoDecoration × Nat) (same : ∀ d ∈ own, d.echoId = id)
    (apart : ∀ d ∈ others, d.echoId ≠ id) :
    ∃ rest, (decorateOwnEcho (others ++ own) filing.1 filing.2).1 = rest ++ ownStep own filing ∧
      Thinned others rest ∧ ∀ d ∈ rest, d.echoId ≠ id := by
  refine ⟨without others (droppedFor (others ++ own) filing.2), ?_, thinned_without _ _, ?_⟩
  · rw [decorateOwnEcho, without_append, droppedFor_own same apart, ownStep, List.append_assoc]
    split
    · rfl
    · rfl
  · intro d member
    exact apart d (List.mem_filter.mp member).1

/-- The records of a message after all of them have been filed. -/
def filedOwn (filings : List (OwnEchoDecoration × Nat)) : List OwnEchoDecoration :=
  filings.foldl ownStep []

theorem filedOwn_snoc (filings : List (OwnEchoDecoration × Nat)) (last : OwnEchoDecoration × Nat) :
    filedOwn (filings ++ [last]) = ownStep (filedOwn filings) last := by
  rw [filedOwn, List.foldl_append]
  rfl

theorem ownStep_length (own : List OwnEchoDecoration) (filing : OwnEchoDecoration × Nat) :
    0 < (ownStep own filing).length ∧ (ownStep own filing).length ≤ own.length + 1 := by
  rw [ownStep]
  split
  · simp
  · simp

theorem filedOwn_length (filings : List (OwnEchoDecoration × Nat)) :
    (filedOwn filings).length ≤ filings.length := by
  induction filings using List.reverseRecOn with
  | nil => exact le_refl 0
  | append_singleton filings last ih =>
      have step := (ownStep_length (filedOwn filings) last).2
      rw [filedOwn_snoc, List.length_append, List.length_singleton]
      omega

theorem mem_filedOwn (filings : List (OwnEchoDecoration × Nat)) :
    ∀ d ∈ filedOwn filings, ∃ f ∈ filings, f.1 = d := by
  induction filings using List.reverseRecOn with
  | nil =>
      intro d member
      cases member
  | append_singleton filings last ih =>
      intro d member
      rw [filedOwn_snoc, ownStep] at member
      have cases_ : d ∈ filedOwn filings ∨ d = last.1 := by
        split at member
        · exact (List.mem_append.mp member).imp id List.mem_singleton.mp
        · exact Or.inr (List.mem_singleton.mp member)
      rcases cases_ with before | rfl
      · rcases ih d before with ⟨f, inside, same⟩
        exact ⟨f, List.mem_append_left _ inside, same⟩
      · exact ⟨last, List.mem_append_right _ (List.mem_singleton_self last), rfl⟩

/-- The records of one message fit: they do not exceed the cap, and none expires while the others
are filed. -/
def FilingsFit (filings : List (OwnEchoDecoration × Nat)) : Prop :=
  filings.length ≤ ownEchoMax ∧
    filings.Pairwise fun earlier later => earlier.1.expired later.2 = false

/-- All records of a message are there once it has been filed, if and only if they fit. -/
theorem filedOwn_whole (filings : List (OwnEchoDecoration × Nat)) :
    filedOwn filings = filings.map Prod.fst ↔ FilingsFit filings := by
  induction filings using List.reverseRecOn with
  | nil => simp [filedOwn, FilingsFit]
  | append_singleton filings last ih =>
      have fit : FilingsFit (filings ++ [last]) ↔ FilingsFit filings ∧
          filings.length < ownEchoMax ∧ ∀ f ∈ filings, f.1.expired last.2 = false := by
        simp only [FilingsFit, List.pairwise_append, List.length_append, List.length_singleton,
          List.pairwise_singleton, List.mem_singleton, forall_eq, true_and]
        constructor
        · rintro ⟨few, before, live⟩
          exact ⟨⟨by omega, before⟩, by omega, live⟩
        · rintro ⟨⟨_, before⟩, few, live⟩
          exact ⟨by omega, before, live⟩
      rw [filedOwn_snoc, fit, ← ih, List.map_append, ownStep]
      split
      · next holds =>
          constructor
          · intro whole
            have same := (List.append_inj_left' whole rfl)
            rw [same] at holds
            refine ⟨same, by simpa using holds.1, ?_⟩
            intro f member
            exact holds.2 f.1 (List.mem_map_of_mem member)
          · rintro ⟨same, _, _⟩
            rw [same]
            rfl
      · next fails =>
          constructor
          · intro whole
            have none_ : filings.map Prod.fst = [] := by
              have size := congrArg List.length whole
              apply List.length_eq_zero_iff.mp
              simp only [List.length_append, List.map_cons, List.map_nil, List.length_singleton]
                at size
              omega
            exfalso
            apply fails
            have nothing : filings = [] := List.map_eq_nil_iff.mp none_
            rw [nothing]
            exact ⟨by decide, fun d member => by cases member⟩
          · rintro ⟨same, few, live⟩
            exfalso
            apply fails
            rw [same]
            refine ⟨by simpa using few, ?_⟩
            intro d member
            rcases List.mem_map.mp member with ⟨f, inside, rfl⟩
            exact live f inside

end Filing

section World

variable {s : Reflections} {buffer : Str} {id : Nat}

/-- In each buffer a message has all the records that are owed, or none. -/
def AllOrNone (s : Reflections) : Prop :=
  ∀ buffer id, ofMessage id (s.decorations buffer) = [] ∨
    ofMessage id (s.decorations buffer) = ofMessage id s.owed

/-- The records of a message are in one buffer. -/
def OneBuffer (s : Reflections) : Prop :=
  ∀ a b id, ofMessage id (s.decorations a) ≠ [] → ofMessage id (s.decorations b) ≠ [] → a = b

structure Kept (s : Reflections) : Prop where
  whole : AllOrNone s
  placed : OneBuffer s

theorem kept_new : Kept .new := by
  constructor
  · intro buffer id
    exact Or.inl rfl
  · intro a b id some_
    exact absurd rfl some_

@[simp] theorem put_same (entries : List OwnEchoDecoration) :
    (s.put buffer entries).decorations buffer = entries := Function.update_self _ _ _

theorem put_other {other : Str} (entries : List OwnEchoDecoration) (apart : other ≠ buffer) :
    (s.put buffer entries).decorations other = s.decorations other :=
  Function.update_of_ne apart _ _

theorem recordsOf_id (echoId : Nat) (display : Option (Str × WireOrigin)) (lines : List WireLine) :
    ∀ f ∈ recordsOf echoId display lines, f.1.echoId = echoId := by
  induction lines with
  | nil =>
      intro f member
      cases member
  | cons line rest ih =>
      intro f member
      rcases List.mem_cons.mp member with rfl | later
      · rfl
      · exact ih f later

theorem file_owed (filings : List (OwnEchoDecoration × Nat)) (s : Reflections) (buffer : Str) :
    (filings.foldl (Reflections.file buffer) s).owed = s.owed ++ filings.map Prod.fst := by
  induction filings generalizing s with
  | nil => exact (List.append_nil _).symm
  | cons filing rest ih =>
      rw [List.foldl_cons, ih, List.map_cons, ← List.singleton_append, ← List.append_assoc]
      rfl

/-- Filing the records of a message nothing is there of yet. -/
theorem file_all (filings : List (OwnEchoDecoration × Nat)) (same : ∀ f ∈ filings, f.1.echoId = id)
    (fresh : ofMessage id (s.decorations buffer) = []) :
    ∃ rest, (filings.foldl (Reflections.file buffer) s).decorations buffer =
        rest ++ filedOwn filings ∧
      Thinned (s.decorations buffer) rest ∧ (∀ d ∈ rest, d.echoId ≠ id) ∧
      ∀ other, other ≠ buffer →
        (filings.foldl (Reflections.file buffer) s).decorations other = s.decorations other := by
  induction filings using List.reverseRecOn with
  | nil =>
      refine ⟨s.decorations buffer, (List.append_nil _).symm, fun _ => Or.inr rfl, ?_, ?_⟩
      · intro d member tie
        have inside : d ∈ ofMessage id (s.decorations buffer) :=
          List.mem_filter.mpr ⟨member, by simpa using tie⟩
        rw [fresh] at inside
        cases inside
      · intro other _
        rfl
  | append_singleton filings last ih =>
      rcases ih fun f member => same f (List.mem_append_left _ member) with
        ⟨rest, shape, thinned, apart, others⟩
      have own : ∀ d ∈ filedOwn filings, d.echoId = id := by
        intro d member
        rcases mem_filedOwn filings d member with ⟨f, inside, rfl⟩
        exact same f (List.mem_append_left _ inside)
      rcases decorateOwnEcho_own last own apart with ⟨left_, filed, thinner, apart'⟩
      refine ⟨left_, ?_, thinned.trans thinner, apart', ?_⟩
      · rw [List.foldl_append, List.foldl_cons, List.foldl_nil, Reflections.file, filedOwn_snoc]
        change ((filings.foldl (Reflections.file buffer) s).put buffer _).decorations buffer = _
        rw [put_same, shape, filed]
      · intro other different
        rw [List.foldl_append, List.foldl_cons, List.foldl_nil, Reflections.file]
        change ((filings.foldl (Reflections.file buffer) s).put buffer _).decorations other = _
        rw [put_other _ different, others other different]

theorem AllOrNone.fresh (whole : AllOrNone s) (unsent : ∀ d ∈ s.owed, d.echoId ≠ id) :
    ∀ buffer, ofMessage id (s.decorations buffer) = [] := by
  intro buffer
  have nothing := ofMessage_none unsent
  rcases whole buffer id with none_ | same
  · exact none_
  · rw [same, nothing]

theorem ofMessage_self (id : Nat) (display : Option (Str × WireOrigin)) (lines : List WireLine) :
    ofMessage id ((recordsOf id display lines).map Prod.fst) =
      (recordsOf id display lines).map Prod.fst := by
  apply ofMessage_all
  intro d member
  rcases List.mem_map.mp member with ⟨f, inside, rfl⟩
  exact recordsOf_id id display lines f inside

theorem ofMessage_other {other : Nat} (apart : other ≠ id) (display : Option (Str × WireOrigin))
    (lines : List WireLine) : ofMessage other ((recordsOf id display lines).map Prod.fst) = [] := by
  apply ofMessage_none
  intro d member same
  rcases List.mem_map.mp member with ⟨f, inside, rfl⟩
  rw [recordsOf_id id display lines f inside] at same
  exact apart same.symm

/-- After a send the store keeps the messages whole if and only if the records sent fit. -/
theorem send_whole (kept : Kept s) (unsent : ∀ d ∈ s.owed, d.echoId ≠ id)
    (display : Option (Str × WireOrigin)) (lines : List WireLine) :
    AllOrNone (s.expectOwnReflection buffer id display lines) ↔
      FilingsFit (recordsOf id display lines) := by
  have fresh := kept.whole.fresh unsent
  rcases file_all (recordsOf id display lines) (recordsOf_id id display lines) (fresh buffer) with
    ⟨rest, shape, thinned, apart, others⟩
  have owed := file_owed (recordsOf id display lines) s buffer
  have mine : ofMessage id (rest ++ filedOwn (recordsOf id display lines)) =
      filedOwn (recordsOf id display lines) := by
    rw [ofMessage_append, ofMessage_none apart, List.nil_append]
    apply ofMessage_all
    intro d member
    rcases mem_filedOwn _ d member with ⟨f, inside, rfl⟩
    exact recordsOf_id id display lines f inside
  rw [← filedOwn_whole]
  constructor
  · intro whole
    rcases whole buffer id with none_ | same
    · rw [Reflections.expectOwnReflection, shape, mine] at none_
      cases given : recordsOf id display lines using List.reverseRecOn with
      | nil => rfl
      | append_singleton filings last =>
          have some_ := (ownStep_length (filedOwn filings) last).1
          rw [given, filedOwn_snoc] at none_
          rw [none_] at some_
          cases some_
    · rw [Reflections.expectOwnReflection, shape, mine, owed, ofMessage_append,
        ofMessage_none unsent, List.nil_append, ofMessage_self] at same
      exact same
  · intro all_ other_buffer other
    rw [Reflections.expectOwnReflection, owed, ofMessage_append]
    by_cases here : other_buffer = buffer
    · rw [here, shape]
      by_cases same : other = id
      · right
        rw [same, mine, all_, ofMessage_none unsent, List.nil_append, ofMessage_self]
      · have foreign : ofMessage other (filedOwn (recordsOf id display lines)) = [] := by
          rw [all_]
          exact ofMessage_other same display lines
        rw [ofMessage_append, foreign, List.append_nil, ofMessage_other same, List.append_nil]
        rcases thinned other with none_ | kept_
        · exact Or.inl none_
        · rw [kept_]
          exact kept.whole buffer other
    · rw [others other_buffer here]
      by_cases same : other = id
      · exact Or.inl (same ▸ fresh other_buffer)
      · rw [ofMessage_other same, List.append_nil]
        exact kept.whole other_buffer other

theorem send_placed (kept : Kept s) (unsent : ∀ d ∈ s.owed, d.echoId ≠ id)
    (display : Option (Str × WireOrigin)) (lines : List WireLine) :
    OneBuffer (s.expectOwnReflection buffer id display lines) := by
  have fresh := kept.whole.fresh unsent
  rcases file_all (recordsOf id display lines) (recordsOf_id id display lines) (fresh buffer) with
    ⟨rest, shape, thinned, apart, others⟩
  have before : ∀ a other, other ≠ id →
      ofMessage other ((s.expectOwnReflection buffer id display lines).decorations a) ≠ [] →
      ofMessage other (s.decorations a) ≠ [] := by
    intro a other different some_
    rw [Reflections.expectOwnReflection] at some_
    by_cases here : a = buffer
    · have foreign : ofMessage other (filedOwn (recordsOf id display lines)) = [] := by
        apply ofMessage_none
        intro d member same
        rcases mem_filedOwn _ d member with ⟨f, inside, rfl⟩
        rw [recordsOf_id id display lines f inside] at same
        exact different same.symm
      rw [here, shape, ofMessage_append, foreign, List.append_nil] at some_
      rcases thinned other with none_ | same
      · exact absurd none_ some_
      · rw [here, ← same]
        exact some_
    · rw [others a here] at some_
      exact some_
  intro a b other first second
  by_cases same : other = id
  · have only : ∀ c, ofMessage other
        ((s.expectOwnReflection buffer id display lines).decorations c) ≠ [] → c = buffer := by
      intro c some_
      by_contra elsewhere
      rw [Reflections.expectOwnReflection, others c elsewhere, same] at some_
      exact some_ (fresh c)
    rw [only a first, only b second]
  · exact kept.placed a b other (before a other same first) (before b other same second)

/-- Dropping whole messages from a buffer. -/
theorem Kept.put {entries : List OwnEchoDecoration} (kept : Kept s)
    (thinned : Thinned (s.decorations buffer) entries) : Kept (s.put buffer entries) := by
  have less : ∀ a id, ofMessage id ((s.put buffer entries).decorations a) = [] ∨
      ofMessage id ((s.put buffer entries).decorations a) = ofMessage id (s.decorations a) := by
    intro a id
    by_cases here : a = buffer
    · rw [here, put_same]
      exact thinned id
    · rw [put_other entries here]
      exact Or.inr rfl
  constructor
  · intro a id
    rcases less a id with none_ | same
    · exact Or.inl none_
    · rw [same]
      exact kept.whole a id
  · intro a b id first second
    rw [(less a id).resolve_left first] at first
    rw [(less b id).resolve_left second] at second
    exact kept.placed a b id first second

theorem eraseP_found {records : List OwnEchoDecoration} {p : OwnEchoDecoration → Bool}
    {d : OwnEchoDecoration} (found : records.find? p = some d) : records.eraseP p = records.erase d := by
  induction records with
  | nil => cases found
  | cons c rest ih =>
      by_cases held : p c = true
      · rw [List.find?_cons_of_pos held] at found
        cases found
        rw [List.eraseP_cons_of_pos held, List.erase_cons_head]
      · have later : rest.find? p = some d := by rwa [List.find?_cons_of_neg held] at found
        have apart : c ≠ d := by
          rintro rfl
          exact held (List.find?_some later)
        rw [List.eraseP_cons_of_neg held, ih later, List.erase_cons_tail (by simpa using apart)]

theorem ofMessage_erase (id : Nat) (records : List OwnEchoDecoration) (d : OwnEchoDecoration) :
    ofMessage id (records.erase d) = (ofMessage id records).erase d :=
  List.erase_filter.symm

/-- Taking a record takes it from what is owed as well. -/
theorem take_kept (kept : Kept s) (wireText : Str) (now : Nat) :
    Kept (s.take buffer wireText now) := by
  have thinned := thinned_without (expiredIds (s.decorations buffer) now) (s.decorations buffer)
  have live := kept.put thinned
  simp only [Reflections.take, takeOwnEchoDecoration]
  cases found : (without (s.decorations buffer) (expiredIds (s.decorations buffer) now)).find?
      fun d => decide (d.wireText = wireText) with
  | none =>
      rw [List.eraseP_of_forall_not (List.find?_eq_none.mp found)]
      exact live
  | some d =>
      rw [eraseP_found found]
      have inside := List.mem_of_find?_eq_some found
      have here : ofMessage d.echoId (s.decorations buffer) ≠ [] := by
        apply List.ne_nil_of_mem
        exact List.mem_filter.mpr ⟨(List.mem_filter.mp inside).1, by simp⟩
      have taken (id : Nat) : ofMessage id ((without (s.decorations buffer)
            (expiredIds (s.decorations buffer) now)).erase d) = [] ∨
          ofMessage id ((without (s.decorations buffer)
            (expiredIds (s.decorations buffer) now)).erase d) =
              (ofMessage id (s.decorations buffer)).erase d := by
        rw [ofMessage_erase]
        rcases thinned id with none_ | same
        · rw [none_]
          exact Or.inl rfl
        · rw [same]
          exact Or.inr rfl
      constructor
      · intro a id
        change ofMessage id ((s.put buffer _).decorations a) = [] ∨
          ofMessage id ((s.put buffer _).decorations a) = ofMessage id (s.owed.erase d)
        rw [ofMessage_erase]
        by_cases same : a = buffer
        · rw [same, put_same]
          rcases taken id with none_ | rest
          · exact Or.inl none_
          · rw [rest]
            rcases kept.whole buffer id with none_ | owed
            · rw [none_]
              exact Or.inl rfl
            · rw [owed]
              exact Or.inr rfl
        · rw [put_other _ same]
          rcases kept.whole a id with none_ | owed
          · exact Or.inl none_
          · by_cases some_ : ofMessage id (s.decorations a) = []
            · exact Or.inl some_
            · have other : d.echoId ≠ id := by
                rintro rfl
                exact same (kept.placed a buffer _ some_ here)
              have foreign : d ∉ ofMessage id s.owed := by
                intro member
                exact other (by simpa using (List.mem_filter.mp member).2)
              rw [List.erase_of_not_mem foreign]
              exact Or.inr owed
      · have before (a : Str) (id : Nat)
            (some_ : ofMessage id ((s.put buffer ((without (s.decorations buffer)
              (expiredIds (s.decorations buffer) now)).erase d)).decorations a) ≠ []) :
            ofMessage id (s.decorations a) ≠ [] := by
          by_cases same : a = buffer
          · rw [same, put_same] at some_
            rw [same]
            intro none_
            rcases taken id with gone | rest
            · exact some_ gone
            · rw [rest, none_] at some_
              exact some_ rfl
          · rwa [put_other _ same] at some_
        intro a b id first second
        exact kept.placed a b id (before a id first) (before b id second)

theorem rekey_decorations (old new other : Str) :
    (s.rekey old new).decorations other =
      if other = new then (if old = new then [] else s.decorations old)
      else if other = old then [] else s.decorations other := by
  simp only [Reflections.rekey, Reflections.retire, Reflections.put, Function.update_apply]
  by_cases here : other = new
  · rw [if_pos here, if_pos here]
  · rw [if_neg here, if_neg here, if_neg here]

theorem rekey_kept (kept : Kept s) (old new : Str) : Kept (s.rekey old new) := by
  constructor
  · intro a id
    rw [rekey_decorations]
    split
    · split
      · exact Or.inl rfl
      · exact kept.whole old id
    · split
      · exact Or.inl rfl
      · exact kept.whole a id
  · have from_ (a : Str) (id : Nat)
        (some_ : ofMessage id ((s.rekey old new).decorations a) ≠ []) :
        a = new ∧ ofMessage id (s.decorations old) ≠ [] ∨
          a ≠ old ∧ ofMessage id (s.decorations a) ≠ [] := by
      rw [rekey_decorations] at some_
      split at some_
      · next here =>
          split at some_
          · exact absurd rfl some_
          · exact Or.inl ⟨here, some_⟩
      · split at some_
        · exact absurd rfl some_
        · next apart => exact Or.inr ⟨apart, some_⟩
    intro a b id first second
    rcases from_ a id first with ⟨rfl, moved⟩ | ⟨apart, stayed⟩
    · rcases from_ b id second with ⟨same, _⟩ | ⟨apart, stayed⟩
      · exact same.symm
      · exact absurd (kept.placed b old id stayed moved) apart
    · rcases from_ b id second with ⟨rfl, moved⟩ | ⟨_, other⟩
      · exact absurd (kept.placed a old id stayed moved) apart
      · exact kept.placed a b id stayed other

end World

section Runs

abbrev echoRun (ops : List EchoOp) : Reflections := runFrom EchoOp.exec .new ops

/-- The wire lines of a message do not exceed the cap, and none of them is filed when a record of an
earlier one has expired. -/
def EchoOp.Fits : EchoOp → Prop
  | .send _ _ _ lines =>
      lines.length ≤ ownEchoMax ∧
        lines.Pairwise fun earlier later => later.now - earlier.filedAt < ownEchoTtl
  | _ => True

/-- No two sends have the same id. -/
def FreshSends (ops : List EchoOp) : Prop := (ops.filterMap EchoOp.sentId).Nodup

/-- In every state of the run a message has all the records it is owed, or none, and an echo that
finds a record finds all the others of its message as well. -/
structure WholeMessages (ops : List EchoOp) : Prop where
  store : ∀ front back, ops = front ++ back → AllOrNone (echoRun front)
  echo : ∀ front buffer wireText now back d,
    ops = front ++ .echo buffer wireText now :: back →
    (takeOwnEchoDecoration ((echoRun front).decorations buffer) wireText now).found = some d →
    ofMessage d.echoId ((echoRun front).decorations buffer) =
      ofMessage d.echoId (echoRun front).owed

theorem filingsFit_lines (id : Nat) (display : Option (Str × WireOrigin)) (lines : List WireLine) :
    FilingsFit (recordsOf id display lines) ↔
      lines.length ≤ ownEchoMax ∧
        lines.Pairwise fun earlier later => later.now - earlier.filedAt < ownEchoTtl := by
  have clocks : (recordsOf id display lines).map (fun f => (f.1.filedAt, f.2)) =
      lines.map fun line => (line.filedAt, line.now) := by
    induction lines with
    | nil => rfl
    | cons line rest ih => rw [recordsOf, List.map_cons, List.map_cons, ih]
  have size : (recordsOf id display lines).length = lines.length := by
    simpa using congrArg List.length clocks
  have pairs := congrArg
    (List.Pairwise fun earlier later : Nat × Nat => later.2 - earlier.1 < ownEchoTtl) clocks
  rw [List.pairwise_map, List.pairwise_map] at pairs
  rw [FilingsFit, size, ← pairs]
  simp only [OwnEchoDecoration.expired, decide_eq_false_iff_not, Nat.not_le]

theorem echoRun_snoc (ops : List EchoOp) (op : EchoOp) :
    echoRun (ops ++ [op]) = op.exec (echoRun ops) := by
  rw [echoRun, runFrom_append]
  rfl

/-- What is owed was sent. -/
theorem owed_sent (ops : List EchoOp) :
    ∀ d ∈ (echoRun ops).owed, d.echoId ∈ ops.filterMap EchoOp.sentId := by
  induction ops using List.reverseRecOn with
  | nil =>
      intro d member
      cases member
  | append_singleton ops op ih =>
      intro d member
      rw [echoRun_snoc] at member
      rw [List.filterMap_append]
      have before (inside : d ∈ (echoRun ops).owed) :
          d.echoId ∈ ops.filterMap EchoOp.sentId ++ [op].filterMap EchoOp.sentId :=
        List.mem_append_left _ (ih d inside)
      cases op with
      | send buffer id display lines =>
          have whole := file_owed (recordsOf id display lines) (echoRun ops) buffer
          change d ∈ ((recordsOf id display lines).foldl (Reflections.file buffer)
            (echoRun ops)).owed at member
          rw [whole] at member
          rcases List.mem_append.mp member with inside | new
          · exact before inside
          · rcases List.mem_map.mp new with ⟨f, sent, rfl⟩
            rw [recordsOf_id id display lines f sent]
            exact List.mem_append_right _ (List.mem_singleton_self id)
      | echo buffer wireText now =>
          apply before
          cases found : (takeOwnEchoDecoration ((echoRun ops).decorations buffer) wireText
              now).found with
          | none => simpa [EchoOp.exec, Reflections.take, found] using member
          | some e =>
              have rest : d ∈ (echoRun ops).owed.erase e := by
                simpa [EchoOp.exec, Reflections.take, found] using member
              exact List.mem_of_mem_erase rest
      | forget buffer ids => exact before member
      | retire buffer => exact before member
      | rekey old new => exact before member

theorem unsent_of_fresh {ops more : List EchoOp} {op : EchoOp} {id : Nat}
    (fresh : FreshSends (ops ++ op :: more)) (sends : op.sentId = some id) :
    ∀ d ∈ (echoRun ops).owed, d.echoId ≠ id := by
  intro d member same
  rw [FreshSends, List.filterMap_append, List.filterMap_cons_some sends] at fresh
  have apart := (List.nodup_append.mp fresh).2.2
  exact apart d.echoId (owed_sent ops d member) id List.mem_cons_self same

theorem exec_kept {s : Reflections} (op : EchoOp) (kept : Kept s) (fits : op.Fits)
    (unsent : ∀ id, op.sentId = some id → ∀ d ∈ s.owed, d.echoId ≠ id) : Kept (op.exec s) := by
  cases op with
  | send buffer id display lines =>
      constructor
      · apply (send_whole kept (unsent id rfl) display lines).mpr
        exact (filingsFit_lines id display lines).mpr fits
      · exact send_placed kept (unsent id rfl) display lines
  | echo buffer wireText now => exact take_kept kept wireText now
  | forget buffer ids => exact kept.put (thinned_without ids _)
  | retire buffer => exact kept.put fun _ => Or.inl rfl
  | rekey old new => exact rekey_kept kept old new

theorem echoRun_kept (front back : List EchoOp) (fresh : FreshSends (front ++ back))
    (fits : ∀ op ∈ front, op.Fits) : Kept (echoRun front) := by
  induction front using List.reverseRecOn generalizing back with
  | nil => exact kept_new
  | append_singleton ops op ih =>
      rw [List.append_assoc, List.singleton_append] at fresh
      rw [echoRun_snoc]
      apply exec_kept op
      · exact ih (op :: back) fresh fun earlier member => fits earlier (List.mem_append_left _ member)
      · exact fits op (List.mem_append_right _ (List.mem_singleton_self op))
      · intro id sends
        exact unsent_of_fresh fresh sends

/-- An echo that finds a record finds it among those of its buffer. -/
theorem found_inside {entries : List OwnEchoDecoration} {wireText : Str} {now : Nat}
    {d : OwnEchoDecoration} (found : (takeOwnEchoDecoration entries wireText now).found = some d) :
    ofMessage d.echoId entries ≠ [] := by
  have inside := List.mem_of_find?_eq_some found
  apply List.ne_nil_of_mem
  exact List.mem_filter.mpr ⟨(List.mem_filter.mp inside).1, by simp⟩

/-- An operation that leaves the messages whole fits. -/
theorem fits_of_whole {s : Reflections} (op : EchoOp) (kept : Kept s)
    (unsent : ∀ id, op.sentId = some id → ∀ d ∈ s.owed, d.echoId ≠ id)
    (after : AllOrNone (op.exec s)) : op.Fits := by
  cases op with
  | send buffer id display lines =>
      have holds := (send_whole kept (unsent id rfl) display lines).mp after
      exact (filingsFit_lines id display lines).mp holds
  | echo buffer wireText now => trivial
  | forget buffer ids => trivial
  | retire buffer => trivial
  | rekey old new => trivial

/-- A message of so many wire lines, each filed the instant its record is stamped. -/
def sendLines (count : Nat) : EchoOp :=
  .send "net/#a".toList 1 none ((List.range count).map fun i => ⟨Text.natText i, 0, 0⟩)

end Runs

end Repartee.State
