import Mathlib

/-!
Keyed tables: a list of rows no two of which share their key. The writes are the SQL statements
on a primary key, and a map is the table of its entries.
-/

namespace Repartee.Lib

structure Table {α κ : Type} (key : α → κ) where
  rows : List α
  unique : (rows.map key).Nodup

namespace Table

variable {α κ γ : Type} [DecidableEq κ] {key : α → κ}

instance : Membership α (Table key) := ⟨fun t r => r ∈ t.rows⟩

omit [DecidableEq κ] in
theorem mem_iff (t : Table key) (r : α) : r ∈ t ↔ r ∈ t.rows := Iff.rfl

def empty : Table key := ⟨[], List.nodup_nil⟩

instance : Inhabited (Table key) := ⟨empty⟩

def find? (t : Table key) (k : κ) : Option α := t.rows.find? fun r => decide (key r = k)

/-- The table without the rows the predicate selects. -/
def delete (t : Table key) (p : α → Bool) : Table key :=
  ⟨t.rows.filter fun r => !p r, t.unique.sublist (List.filter_sublist.map key)⟩

def erase (t : Table key) (k : κ) : Table key := t.delete fun r => decide (key r = k)

omit [DecidableEq κ] in
theorem appended_unique (t : Table key) (r : α) (fresh : ∀ x ∈ t, key x ≠ key r) :
    ((t.rows ++ [r]).map key).Nodup := by
  rw [List.map_append]
  refine List.Nodup.append t.unique (List.nodup_singleton _) ?_
  intro k present single
  obtain ⟨x, member, rfl⟩ := List.mem_map.mp present
  simp only [List.map_cons, List.map_nil, List.mem_singleton] at single
  exact fresh x member single

/-- The row takes the place of the one with its key. -/
def replace (t : Table key) (r : α) : Table key :=
  ⟨(t.erase (key r)).rows ++ [r], by
    refine appended_unique (t.erase (key r)) r ?_
    intro x member same
    have kept := (List.mem_filter.mp member).2
    simp [same] at kept⟩

/-- An insert without a conflict clause: nothing when the row's key is taken. -/
def insert? (t : Table key) (r : α) : Option (Table key) :=
  if absent : ∀ x ∈ t.rows, key x ≠ key r then some ⟨t.rows ++ [r], appended_unique t r absent⟩
  else none

def insertOrIgnore (t : Table key) (r : α) : Table key :=
  if absent : ∀ x ∈ t.rows, key x ≠ key r then ⟨t.rows ++ [r], appended_unique t r absent⟩ else t

/-- Rewrites rows in place; the rewriting keeps every key. -/
def modify (t : Table key) (f : α → α) (keeps : ∀ r, key (f r) = key r) : Table key :=
  ⟨t.rows.map f, by
    rw [List.map_map]
    have same : key ∘ f = key := funext keeps
    rw [same]
    exact t.unique⟩

/-- An insert whose conflict clause merges the new row into the stored one. -/
def insertOrMerge (t : Table key) (r : α) (merge : α → α)
    (keeps : ∀ x, key (merge x) = key x) : Table key :=
  if absent : ∀ x ∈ t.rows, key x ≠ key r then ⟨t.rows ++ [r], appended_unique t r absent⟩
  else t.modify (fun x => if key x = key r then merge x else x) fun x => by
    split
    · exact keeps x
    · rfl

/-- Gives the selected rows a new key, except where a row already has it. -/
def renameOrIgnore (t : Table key) (p : α → Bool) (rename : α → α)
    (apart : ∀ a b, p a = true → p b = true → key (rename a) = key (rename b) → key a = key b) :
    Table key :=
  ⟨t.rows.map fun r => if p r && !t.rows.any fun x => decide (key x = key (rename r))
      then rename r else r, by
    rw [List.map_map]
    refine (List.nodup_map_iff_inj_on (List.Nodup.of_map key t.unique)).mpr ?_
    intro a inA b inB same
    have inj := List.inj_on_of_nodup_map t.unique
    have free {r x : α} (chosen : (p r && !t.rows.any fun x => decide (key x = key (rename r))) = true)
        (member : x ∈ t.rows) : key x ≠ key (rename r) := by
      simp only [Bool.and_eq_true, Bool.not_eq_true', List.any_eq_false, decide_eq_true_eq] at chosen
      exact chosen.2 x member
    simp only [Function.comp_apply] at same
    split at same
    · rename_i first
      split at same
      · rename_i second
        simp only [Bool.and_eq_true] at first second
        exact inj inA inB (apart a b first.1 second.1 same)
      · exact absurd same.symm (free first inB)
    · split at same
      · rename_i second
        exact absurd same (free second inA)
      · exact inj inA inB same⟩

section Lookup

variable (t : Table key) (k : κ) (r x : α)

theorem find?_eq_some : t.find? k = some r ↔ r ∈ t ∧ key r = k := by
  constructor
  · intro found
    exact ⟨List.mem_of_find?_eq_some found, by simpa using List.find?_some found⟩
  · rintro ⟨member, rfl⟩
    cases found : t.find? (key r) with
    | none =>
        have missing := List.find?_eq_none.mp found r member
        simp at missing
    | some y =>
        have same : key y = key r := by simpa using List.find?_some found
        rw [List.inj_on_of_nodup_map t.unique (List.mem_of_find?_eq_some found) member same]

theorem find?_eq_none : t.find? k = none ↔ ∀ r ∈ t, key r ≠ k := by
  unfold find?
  simp only [List.find?_eq_none, decide_eq_true_eq]
  rfl

theorem find?_congr (u : Table key) (agree : ∀ r, key r = k → (r ∈ t ↔ r ∈ u)) :
    t.find? k = u.find? k := by
  cases found : u.find? k with
  | none =>
      rw [find?_eq_none] at found ⊢
      exact fun r member same => found r ((agree r same).mp member) same
  | some r =>
      rw [find?_eq_some] at found ⊢
      exact ⟨(agree r found.2).mpr found.1, found.2⟩

end Lookup

section Members

variable (t : Table key) (r x : α)

omit [DecidableEq κ] in
@[simp] theorem not_mem_empty : x ∉ (empty : Table key) := List.not_mem_nil

omit [DecidableEq κ] in
@[simp] theorem mem_delete (p : α → Bool) : x ∈ t.delete p ↔ x ∈ t ∧ p x = false := by
  simp [mem_iff, delete]

@[simp] theorem mem_erase (k : κ) : x ∈ t.erase k ↔ x ∈ t ∧ key x ≠ k := by
  simp [erase]

@[simp] theorem mem_replace : x ∈ t.replace r ↔ (x ∈ t ∧ key x ≠ key r) ∨ x = r := by
  have kept := mem_erase t x (key r)
  simp only [mem_iff] at kept
  simp [mem_iff, replace, kept]

omit [DecidableEq κ] in
@[simp] theorem mem_modify (f : α → α) (keeps : ∀ r, key (f r) = key r) :
    x ∈ t.modify f keeps ↔ ∃ y ∈ t, f y = x := by
  simp [mem_iff, modify]

theorem mem_insertOrIgnore :
    x ∈ t.insertOrIgnore r ↔ x ∈ t ∨ (x = r ∧ ∀ y ∈ t, key y ≠ key r) := by
  unfold insertOrIgnore
  split
  · rename_i absent
    simp only [mem_iff, List.mem_append, List.mem_singleton]
    exact or_congr Iff.rfl ⟨fun same => ⟨same, absent⟩, fun both => both.1⟩
  · rename_i present
    exact ⟨Or.inl, fun h => h.resolve_right fun both => present both.2⟩

theorem mem_insertOrMerge (merge : α → α) (keeps : ∀ y, key (merge y) = key y) :
    x ∈ t.insertOrMerge r merge keeps ↔
      (x ∈ t ∧ key x ≠ key r) ∨ (∃ y ∈ t, key y = key r ∧ x = merge y) ∨
        (x = r ∧ ∀ y ∈ t, key y ≠ key r) := by
  unfold insertOrMerge
  split
  · rename_i absent
    simp only [mem_iff, List.mem_append, List.mem_singleton]
    constructor
    · rintro (member | rfl)
      · exact Or.inl ⟨member, absent x member⟩
      · exact Or.inr (Or.inr ⟨rfl, absent⟩)
    · rintro (⟨member, -⟩ | ⟨y, member, same, -⟩ | ⟨rfl, -⟩)
      · exact Or.inl member
      · exact absurd same (absent y member)
      · exact Or.inr rfl
  · rename_i present
    rw [mem_modify]
    constructor
    · rintro ⟨y, member, rfl⟩
      by_cases same : key y = key r
      · simp only [if_pos same]
        exact Or.inr (Or.inl ⟨y, member, same, rfl⟩)
      · simp only [if_neg same]
        exact Or.inl ⟨member, same⟩
    · rintro (⟨member, other⟩ | ⟨y, member, same, rfl⟩ | ⟨-, absent⟩)
      · exact ⟨x, member, if_neg other⟩
      · exact ⟨y, member, if_pos same⟩
      · exact absurd absent present

theorem mem_renameOrIgnore (p : α → Bool) (rename : α → α)
    (apart : ∀ a b, p a = true → p b = true → key (rename a) = key (rename b) → key a = key b) :
    x ∈ t.renameOrIgnore p rename apart ↔
      (x ∈ t ∧ (p x = true → ∃ y ∈ t, key y = key (rename x))) ∨
        ∃ y ∈ t, p y = true ∧ (∀ z ∈ t, key z ≠ key (rename y)) ∧ rename y = x := by
  have taken (y : α) : (p y && !t.rows.any fun z => decide (key z = key (rename y))) = true ↔
      p y = true ∧ ∀ z ∈ t, key z ≠ key (rename y) := by
    simp [mem_iff]
  simp only [mem_iff, renameOrIgnore, List.mem_map]
  constructor
  · rintro ⟨y, member, rfl⟩
    by_cases moved : p y = true ∧ ∀ z ∈ t, key z ≠ key (rename y)
    · rw [if_pos ((taken y).mpr moved)]
      exact Or.inr ⟨y, member, moved.1, moved.2, rfl⟩
    · rw [if_neg fun chosen => moved ((taken y).mp chosen)]
      refine Or.inl ⟨member, fun selected => ?_⟩
      by_contra free
      exact moved ⟨selected, fun z inside same => free ⟨z, inside, same⟩⟩
  · rintro (⟨member, blocked⟩ | ⟨y, member, selected, free, rfl⟩)
    · refine ⟨x, member, if_neg fun chosen => ?_⟩
      obtain ⟨selected, free⟩ := (taken x).mp chosen
      obtain ⟨z, inside, same⟩ := blocked selected
      exact free z inside same
    · exact ⟨y, member, if_pos ((taken y).mpr ⟨selected, free⟩)⟩

omit [DecidableEq κ] in
theorem mem_eq (x y : α) (first : x ∈ t) (second : y ∈ t) (same : key x = key y) : x = y :=
  List.inj_on_of_nodup_map t.unique first second same

omit [DecidableEq κ] in
/-- Tables with the same rows of a kind list them alike, up to their order. -/
theorem filter_perm (u : Table key) (p : α → Bool)
    (agree : ∀ r, p r = true → (r ∈ t ↔ r ∈ u)) : (t.rows.filter p).Perm (u.rows.filter p) := by
  have nodup (v : Table key) : (v.rows.filter p).Nodup := (List.Nodup.of_map key v.unique).filter p
  refine (List.perm_ext_iff_of_nodup (nodup t) (nodup u)).mpr fun r => ?_
  simp only [List.mem_filter]
  exact and_congr_left fun chosen => agree r chosen

end Members

section Rewriting

variable (t : Table key) (r : α) (k : κ)

@[simp] theorem find?_empty : (empty : Table key).find? k = none := rfl

theorem find?_replace : (t.replace r).find? k = if key r = k then some r else t.find? k := by
  split
  · rename_i same
    exact (find?_eq_some _ _ _).mpr ⟨(mem_replace t r r).mpr (Or.inr rfl), same⟩
  · rename_i other
    refine find?_congr _ k t fun x keyed => ?_
    rw [mem_replace]
    constructor
    · rintro (⟨member, -⟩ | rfl)
      · exact member
      · exact absurd keyed other
    · intro member
      exact Or.inl ⟨member, fun same => other (same ▸ keyed)⟩

@[simp] theorem find?_replace_self : (t.replace r).find? (key r) = some r := by
  simp [find?_replace]

theorem find?_delete (p : α → Bool) : (t.delete p).find? k = (t.find? k).filter fun r => !p r := by
  cases found : t.find? k with
  | none =>
      rw [find?_eq_none] at found
      exact (find?_eq_none _ _).mpr fun x member => found x ((mem_delete t x p).mp member).1
  | some x =>
      obtain ⟨member, keyed⟩ := (find?_eq_some t k x).mp found
      by_cases chosen : p x = true
      · simp only [Option.filter, chosen, Bool.not_true, Bool.false_eq_true, if_false]
        refine (find?_eq_none _ _).mpr fun y kept same => ?_
        obtain ⟨inside, outside⟩ := (mem_delete t y p).mp kept
        rw [mem_eq t y x inside member (same.trans keyed.symm), chosen] at outside
        exact Bool.noConfusion outside
      · simp only [Option.filter, chosen, Bool.not_false, if_true]
        have outside : p x = false := by simpa using chosen
        exact (find?_eq_some _ _ _).mpr ⟨(mem_delete t x p).mpr ⟨member, outside⟩, keyed⟩

theorem find?_modify (f : α → α) (keeps : ∀ r, key (f r) = key r) :
    (t.modify f keeps).find? k = (t.find? k).map f := by
  cases found : t.find? k with
  | none =>
      rw [find?_eq_none] at found
      refine (find?_eq_none _ _).mpr fun x member => ?_
      obtain ⟨y, inside, rfl⟩ := (mem_modify t x f keeps).mp member
      rw [keeps]
      exact found y inside
  | some x =>
      obtain ⟨member, keyed⟩ := (find?_eq_some t k x).mp found
      exact (find?_eq_some _ _ _).mpr
        ⟨(mem_modify t (f x) f keeps).mpr ⟨x, member, rfl⟩, (keeps x).trans keyed⟩

end Rewriting

section Moving

variable (t : Table key) (p : α → Bool) (rename : α → α)
  (apart : ∀ a b, p a = true → p b = true → key (rename a) = key (rename b) → key a = key b)
  (escapes : ∀ r, p (rename r) = false)

include escapes in
/-- Rows are moved by renaming those that can be and deleting the rest. -/
theorem mem_move (x : α) :
    x ∈ (t.renameOrIgnore p rename apart).delete p ↔ (x ∈ t ∧ p x = false) ∨
      ∃ y ∈ t, p y = true ∧ (∀ z ∈ t, key z ≠ key (rename y)) ∧ rename y = x := by
  rw [mem_delete, mem_renameOrIgnore]
  constructor
  · rintro ⟨⟨member, -⟩ | moved, outside⟩
    · exact Or.inl ⟨member, outside⟩
    · exact Or.inr moved
  · rintro (⟨member, outside⟩ | ⟨y, member, chosen, free, rfl⟩)
    · refine ⟨Or.inl ⟨member, fun chosen => ?_⟩, outside⟩
      rw [outside] at chosen
      cases chosen
    · exact ⟨Or.inr ⟨y, member, chosen, free, rfl⟩, escapes y⟩

include escapes in
theorem find?_move_elsewhere (k : κ) (outside : ∀ r, key r = k → p r = false)
    (away : ∀ r, p r = true → key (rename r) ≠ k) :
    ((t.renameOrIgnore p rename apart).delete p).find? k = t.find? k := by
  refine find?_congr _ k t fun x keyed => ?_
  rw [mem_move t p rename apart escapes]
  constructor
  · rintro (⟨member, -⟩ | ⟨y, -, chosen, -, rfl⟩)
    · exact member
    · exact absurd keyed (away y chosen)
  · exact fun member => Or.inl ⟨member, outside x keyed⟩

theorem find?_move_source (k : κ) (inside : ∀ r, key r = k → p r = true) :
    ((t.renameOrIgnore p rename apart).delete p).find? k = none := by
  refine (find?_eq_none _ _).mpr fun x member keyed => ?_
  have outside : p x = false := ((mem_delete _ _ _).mp member).2
  rw [inside x keyed] at outside
  cases outside

include escapes in
/-- Where rows are moved to, the rows already there come first. -/
theorem find?_move_target (k source : κ) (inside : ∀ r, key r = source → p r = true)
    (outside : ∀ r, key r = k → p r = false)
    (lands : ∀ r, p r = true → (key (rename r) = k ↔ key r = source)) :
    ((t.renameOrIgnore p rename apart).delete p).find? k =
      (t.find? k).or ((t.find? source).map rename) := by
  cases here : t.find? k with
  | some x =>
      obtain ⟨member, keyed⟩ := (find?_eq_some _ _ _).mp here
      exact (find?_eq_some _ _ _).mpr
        ⟨(mem_move t p rename apart escapes x).mpr (Or.inl ⟨member, outside x keyed⟩), keyed⟩
  | none =>
      have free := (find?_eq_none _ _).mp here
      cases there : t.find? source with
      | some y =>
          obtain ⟨member, keyed⟩ := (find?_eq_some _ _ _).mp there
          have landed := (lands y (inside y keyed)).mpr keyed
          refine (find?_eq_some _ _ _).mpr ⟨(mem_move t p rename apart escapes _).mpr
            (Or.inr ⟨y, member, inside y keyed, fun z inT same => ?_, rfl⟩), landed⟩
          exact free z inT (same.trans landed)
      | none =>
          have missing := (find?_eq_none _ _).mp there
          refine (find?_eq_none _ _).mpr fun x member keyed => ?_
          rcases (mem_move t p rename apart escapes x).mp member with
            ⟨kept, -⟩ | ⟨y, inT, chosen, -, rfl⟩
          · exact free x kept keyed
          · exact missing y inT ((lands y chosen).mp keyed)

omit [DecidableEq κ] in
theorem filter_moved (rows : List α) (moves shown : α → Bool)
    (moving : ∀ r, moves r = true → p r = true) (before : ∀ r ∈ rows, p r = true → shown r = false)
    (after : ∀ r ∈ rows, p r = true → shown (rename r) = false) :
    ((rows.map fun r => if moves r then rename r else r).filter fun r => !p r).filter shown =
      rows.filter shown := by
  rw [List.filter_filter]
  induction rows with
  | nil => rfl
  | cons r rest ih =>
      have tail := ih (fun x member => before x (List.mem_cons_of_mem r member))
        fun x member => after x (List.mem_cons_of_mem r member)
      rw [List.map_cons, List.filter_cons, List.filter_cons, tail]
      cases chosen : p r with
      | true =>
          have hidden := before r List.mem_cons_self chosen
          have hiddenAfter := after r List.mem_cons_self chosen
          split <;> simp [hidden, hiddenAfter]
      | false =>
          have stays : moves r = false := by
            rw [Bool.eq_false_iff]
            exact fun goes => by simp [moving r goes] at chosen
          simp [stays, chosen]

/-- A list that shows neither the rows that move nor where they move to stays as it is. -/
theorem filter_move (shown : α → Bool) (before : ∀ r ∈ t, p r = true → shown r = false)
    (after : ∀ r ∈ t, p r = true → shown (rename r) = false) :
    ((t.renameOrIgnore p rename apart).delete p).rows.filter shown = t.rows.filter shown := by
  refine filter_moved p rename t.rows _ shown (fun r goes => ?_) before after
  simp only [Bool.and_eq_true] at goes
  exact goes.1

theorem stays_of_move (x : α) (member : x ∈ t) (outside : p x = false) :
    x ∈ (t.renameOrIgnore p rename apart).delete p := by
  refine (mem_delete _ _ _).mpr ⟨(mem_renameOrIgnore _ _ _ _ _).mpr (Or.inl ⟨member, ?_⟩), outside⟩
  intro chosen
  rw [outside] at chosen
  cases chosen

include escapes in
/-- What holds of a row afterwards and not of a renamed one, held of a row that is not moved. -/
theorem exists_of_move (q : α → Prop) (target : ∀ r, ¬q (rename r)) (x : α)
    (member : x ∈ (t.renameOrIgnore p rename apart).delete p) (holds : q x) :
    x ∈ t ∧ p x = false := by
  rcases (mem_move t p rename apart escapes x).mp member with kept | ⟨y, -, -, -, rfl⟩
  · exact kept
  · exact absurd holds (target y)

section Listing

variable (front back : α → Prop) (group : α → γ)

/-- A listing puts rows in front and adds those in the back whose group has none in front. -/
def Listed (x : α) : Prop :=
  x ∈ t ∧ (front x ∨ back x ∧ ∀ y ∈ t, front y → group y ≠ group x)

include escapes in
/-- Moving the rows in the back to the front changes no entry of the listing, provided no row
that is not listed itself keeps one from moving. -/
theorem listed_move {β : Type} (entry : α → β) (same : ∀ r, entry (rename r) = entry r)
    (source : ∀ r, back r → p r = true) (clean : ∀ r, front r → p r = false)
    (lands : ∀ r, p r = true → (front (rename r) ↔ back r))
    (taken : ∀ y r, front y → back r → group y = group r → key y = key (rename r))
    (blocked : ∀ z ∈ t, ∀ r ∈ t, back r → key z = key (rename r) → front z ∧ group z = group r)
    (e : β) :
    (∃ x, ((t.renameOrIgnore p rename apart).delete p).Listed front back group x ∧ entry x = e) ↔
      ∃ x, t.Listed front back group x ∧ entry x = e := by
  have inFront (x : α) (shown : front x) (member : x ∈ t) :
      x ∈ (t.renameOrIgnore p rename apart).delete p :=
    (mem_move t p rename apart escapes x).mpr (Or.inl ⟨member, clean x shown⟩)
  constructor
  · rintro ⟨x, ⟨member, place⟩, rfl⟩
    rcases (mem_move t p rename apart escapes x).mp member with
      ⟨kept, outside⟩ | ⟨y, inT, chosen, free, rfl⟩
    · have shown : front x := place.resolve_right fun behind => by
        rw [source x behind.1] at outside
        cases outside
      exact ⟨x, ⟨kept, Or.inl shown⟩, rfl⟩
    · have shown : front (rename y) := place.resolve_right fun behind => by
        have outside := escapes y
        rw [source _ behind.1] at outside
        cases outside
      have behind := (lands y chosen).mp shown
      refine ⟨y, ⟨inT, Or.inr ⟨behind, fun z inZ there alike => ?_⟩⟩, (same y).symm⟩
      exact free z inZ (taken z y there behind alike)
  · rintro ⟨x, ⟨member, shown | ⟨behind, alone⟩⟩, rfl⟩
    · exact ⟨x, ⟨inFront x shown member, Or.inl shown⟩, rfl⟩
    · have chosen := source x behind
      refine ⟨rename x, ⟨(mem_move t p rename apart escapes _).mpr (Or.inr ⟨x, member, chosen,
        fun z inZ keyed => ?_, rfl⟩), Or.inl ((lands x chosen).mpr behind)⟩, same x⟩
      obtain ⟨there, alike⟩ := blocked z inZ x member behind keyed
      exact alone z inZ there alike

include escapes in
theorem listed_move_elsewhere (stays : ∀ r, front r ∨ back r → p r = false)
    (away : ∀ r, p r = true → ¬(front (rename r) ∨ back (rename r))) (x : α) :
    ((t.renameOrIgnore p rename apart).delete p).Listed front back group x ↔
      t.Listed front back group x := by
  have kept (r : α) (shown : front r ∨ back r) :
      r ∈ (t.renameOrIgnore p rename apart).delete p ↔ r ∈ t := by
    rw [mem_move t p rename apart escapes]
    constructor
    · rintro (⟨member, -⟩ | ⟨y, -, chosen, -, rfl⟩)
      · exact member
      · exact absurd shown (away y chosen)
    · exact fun member => Or.inl ⟨member, stays r shown⟩
  constructor
  · rintro ⟨member, shown | ⟨behind, alone⟩⟩
    · exact ⟨(kept x (Or.inl shown)).mp member, Or.inl shown⟩
    · exact ⟨(kept x (Or.inr behind)).mp member, Or.inr ⟨behind, fun y inT there =>
        alone y ((kept y (Or.inl there)).mpr inT) there⟩⟩
  · rintro ⟨member, shown | ⟨behind, alone⟩⟩
    · exact ⟨(kept x (Or.inl shown)).mpr member, Or.inl shown⟩
    · exact ⟨(kept x (Or.inr behind)).mpr member, Or.inr ⟨behind, fun y inT there =>
        alone y ((kept y (Or.inl there)).mp inT) there⟩⟩

end Listing

include escapes in
/-- A read that tries a key and then the one its rows are moved from. -/
theorem find?_or_move {β : Type} (entry : α → β) (same : ∀ r, entry (rename r) = entry r) (k source : κ)
    (inside : ∀ r, key r = source → p r = true) (outside : ∀ r, key r = k → p r = false)
    (lands : ∀ r, p r = true → (key (rename r) = k ↔ key r = source)) :
    ((((t.renameOrIgnore p rename apart).delete p).find? k).or
        (((t.renameOrIgnore p rename apart).delete p).find? source)).map entry =
      ((t.find? k).or (t.find? source)).map entry := by
  rw [find?_move_target t p rename apart escapes k source inside outside lands,
    find?_move_source t p rename apart source inside]
  cases t.find? k with
  | some x => rfl
  | none => cases t.find? source with
      | some y => exact congrArg some (same y)
      | none => rfl

end Moving

end Table

/-- A map is a table of entries keyed by their first component. -/
abbrev Map (κ ν : Type) : Type := Table (Prod.fst : κ × ν → κ)

namespace Map

variable {κ ν : Type} [DecidableEq κ]

def get? (m : Map κ ν) (k : κ) : Option ν := (m.find? k).map Prod.snd

def insert (m : Map κ ν) (k : κ) (v : ν) : Map κ ν := m.replace (k, v)

/-- Rewrites the values in place. -/
def mapValues (m : Map κ ν) (f : κ → ν → ν) : Map κ ν :=
  m.modify (fun e => (e.1, f e.1 e.2)) fun _ => rfl

/-- Rewrites the value of one key, if it has one. -/
def adjust (m : Map κ ν) (k : κ) (f : ν → ν) : Map κ ν :=
  m.mapValues fun x v => if x = k then f v else v

def retain (m : Map κ ν) (p : κ → ν → Bool) : Map κ ν := m.delete fun e => !p e.1 e.2

theorem get?_eq_some (m : Map κ ν) (k : κ) (v : ν) : m.get? k = some v ↔ (k, v) ∈ m := by
  unfold get?
  simp only [Option.map_eq_some_iff, Table.find?_eq_some]
  constructor
  · rintro ⟨⟨k', v'⟩, ⟨member, rfl⟩, rfl⟩
    exact member
  · intro member
    exact ⟨(k, v), ⟨member, rfl⟩, rfl⟩

theorem get?_insert (m : Map κ ν) (k x : κ) (v : ν) :
    (m.insert k v).get? x = if k = x then some v else m.get? x := by
  unfold get? insert
  rw [Table.find?_replace]
  split <;> rfl

theorem get?_erase (m : Map κ ν) (k x : κ) :
    Map.get? (m.erase k) x = if k = x then none else m.get? x := by
  unfold get? Table.erase
  rw [Table.find?_delete]
  cases found : m.find? x with
  | none => simp
  | some e =>
      have same := ((Table.find?_eq_some m x e).mp found).2
      by_cases other : k = x
      · simp [same, other]
      · have kept : e.1 ≠ k := fun here => other (here.symm.trans same)
        simp only [Option.filter, kept, decide_false, Bool.not_false, if_true, other, if_false]

theorem get?_mapValues (m : Map κ ν) (f : κ → ν → ν) (k : κ) :
    (m.mapValues f).get? k = (m.get? k).map (f k) := by
  unfold get? mapValues
  rw [Table.find?_modify, Option.map_map, Option.map_map]
  cases found : m.find? k with
  | none => rfl
  | some e =>
      have same := ((Table.find?_eq_some m k e).mp found).2
      simp [← same]

theorem get?_adjust (m : Map κ ν) (k x : κ) (f : ν → ν) :
    (m.adjust k f).get? x = if x = k then (m.get? x).map f else m.get? x := by
  rw [adjust, get?_mapValues]
  split
  · simp
  · simp

theorem get?_retain (m : Map κ ν) (p : κ → ν → Bool) (k : κ) :
    (m.retain p).get? k = (m.get? k).filter (p k) := by
  unfold get? retain
  rw [Table.find?_delete]
  cases found : m.find? k with
  | none => rfl
  | some e =>
      have same := ((Table.find?_eq_some m k e).mp found).2
      cases kept : p e.1 e.2 <;> simp [← same, Option.filter, kept]

omit [DecidableEq κ] in
@[simp] theorem mem_retain (m : Map κ ν) (p : κ → ν → Bool) (e : κ × ν) :
    e ∈ m.retain p ↔ e ∈ m ∧ p e.1 e.2 = true := by
  simp [retain]

end Map

end Repartee.Lib
