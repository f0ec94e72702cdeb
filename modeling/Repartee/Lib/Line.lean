import Mathlib

/-!
A line of entries that carry a key: new entries join at the end, settled ones leave at the head,
and an entry that is not settled yet may be replaced where it stands.
-/

namespace Repartee.Lib

variable {α κ : Type}

/-- The list around the first element the test accepts. -/
def splitAtFirst (test : α → Bool) : List α → Option (List α × α × List α)
  | [] => none
  | a :: rest =>
      if test a then some ([], a, rest)
      else (splitAtFirst test rest).map fun found => (a :: found.1, found.2)

theorem splitAtFirst_eq_some (test : α → Bool) (line pre post : List α) (a : α)
    (found : splitAtFirst test line = some (pre, a, post)) :
    line = pre ++ a :: post ∧ test a = true ∧ ∀ x ∈ pre, test x = false := by
  induction line generalizing pre with
  | nil => simp [splitAtFirst] at found
  | cons first rest ih =>
      unfold splitAtFirst at found
      split at found
      · rename_i accepted
        simp only [Option.some.injEq, Prod.mk.injEq] at found
        obtain ⟨rfl, rfl, rfl⟩ := found
        simp [accepted]
      · rename_i rejected
        simp only [Option.map_eq_some_iff, Prod.mk.injEq] at found
        obtain ⟨⟨before, b, after⟩, inner, rfl, rfl, rfl⟩ := found
        obtain ⟨rfl, accepted, earlier⟩ := ih before inner
        refine ⟨rfl, accepted, ?_⟩
        intro x member
        cases member with
        | head => simpa using rejected
        | tail _ member => exact earlier x member

theorem splitAtFirst_eq_none (test : α → Bool) (line : List α) :
    splitAtFirst test line = none ↔ ∀ x ∈ line, test x = false := by
  induction line with
  | nil => simp [splitAtFirst]
  | cons first rest ih =>
      by_cases accepted : test first = true
      · simp [splitAtFirst, accepted]
      · simp [splitAtFirst, accepted, ih]

/-- The element is the first the test accepts. -/
theorem splitAtFirst_append (test : α → Bool) (pre post : List α) (a : α)
    (accepted : test a = true) (earlier : ∀ x ∈ pre, test x = false) :
    splitAtFirst test (pre ++ a :: post) = some (pre, a, post) := by
  induction pre with
  | nil => simp [splitAtFirst, accepted]
  | cons first rest ih =>
      have later := ih fun x member => earlier x (List.mem_cons_of_mem first member)
      simp [splitAtFirst, earlier first List.mem_cons_self, later]

section Ordered

variable [LinearOrder κ] (key : α → κ) (settled : α → Prop)

/-- One entry stands before another: by its key, or both are settled under one key. -/
def Before (a b : α) : Prop := key a < key b ∨ key a = key b ∧ settled a ∧ settled b

/-- The keys never decrease along the line, and an entry that is not settled is the only one with
its key. -/
def Orderly (line : List α) : Prop := line.Pairwise (Before key settled)

variable {key settled} {line pre post news : List α} {a b : α}

theorem Orderly.sorted (orderly : Orderly key settled line) :
    line.Pairwise fun a b => key a ≤ key b := by
  apply List.Pairwise.imp _ orderly
  intro a b before
  rcases before with less | same
  · exact le_of_lt less
  · exact le_of_eq same.1

theorem Orderly.snoc (orderly : Orderly key settled line) (later : ∀ x ∈ line, key x < key a) :
    Orderly key settled (line ++ [a]) := by
  apply List.pairwise_append.mpr
  refine ⟨orderly, List.pairwise_singleton _ a, ?_⟩
  intro x member y last
  rw [List.mem_singleton.mp last]
  exact Or.inl (later x member)

/-- Settled entries under the key of the one they replace stand where it stood. -/
theorem Orderly.replace (orderly : Orderly key settled (pre ++ a :: post))
    (same : ∀ x ∈ news, key x = key a) (settle : ∀ x ∈ news, settled x) :
    Orderly key settled (pre ++ news ++ post) := by
  obtain ⟨first, second, across⟩ := List.pairwise_append.mp orderly
  obtain ⟨following, rest⟩ := List.pairwise_cons.mp second
  rw [List.append_assoc]
  apply List.pairwise_append.mpr
  refine ⟨first, List.pairwise_append.mpr ⟨?_, rest, ?_⟩, ?_⟩
  · apply List.pairwise_of_forall_mem_list
    intro x mine y yours
    exact Or.inr ⟨(same x mine).trans (same y yours).symm, settle x mine, settle y yours⟩
  · intro x mine y after
    rcases following y after with less | tied
    · exact Or.inl (lt_of_eq_of_lt (same x mine) less)
    · exact Or.inr ⟨(same x mine).trans tied.1, settle x mine, tied.2.2⟩
  · intro x before y later
    rcases List.mem_append.mp later with mine | after
    · rcases across x before a List.mem_cons_self with less | tied
      · exact Or.inl (lt_of_lt_of_eq less (same y mine).symm)
      · exact Or.inr ⟨tied.1.trans (same y mine).symm, tied.2.1, settle y mine⟩
    · exact across x before y (List.mem_cons_of_mem a after)

/-- The same when the entry stays unsettled under its key. -/
theorem Orderly.update (orderly : Orderly key settled (pre ++ a :: post)) (waits : ¬settled a)
    (same : key b = key a) : Orderly key settled (pre ++ b :: post) := by
  obtain ⟨first, second, across⟩ := List.pairwise_append.mp orderly
  obtain ⟨following, rest⟩ := List.pairwise_cons.mp second
  apply List.pairwise_append.mpr
  refine ⟨first, List.pairwise_cons.mpr ⟨?_, rest⟩, ?_⟩
  · intro y after
    rcases following y after with less | tied
    · exact Or.inl (lt_of_eq_of_lt same less)
    · exact absurd tied.2.1 waits
  · intro x before y later
    cases later with
    | head =>
        rcases across x before a List.mem_cons_self with less | tied
        · exact Or.inl (lt_of_lt_of_eq less same.symm)
        · exact absurd tied.2.2 waits
    | tail _ after => exact across x before y (List.mem_cons_of_mem a after)

/-- An entry that is not settled shares its key with no other. -/
theorem Orderly.alone (orderly : Orderly key settled (pre ++ a :: post)) (waits : ¬settled a) :
    ∀ x ∈ pre ++ post, key x ≠ key a := by
  obtain ⟨_, second, across⟩ := List.pairwise_append.mp orderly
  have following := (List.pairwise_cons.mp second).1
  intro x member tie
  rcases List.mem_append.mp member with before | after
  · rcases across x before a List.mem_cons_self with less | tied
    · exact absurd tie (ne_of_lt less)
    · exact waits tied.2.2
  · rcases following x after with less | tied
    · exact absurd tie.symm (ne_of_lt less)
    · exact waits tied.2.1

theorem Orderly.eq_of_waiting (orderly : Orderly key settled line) {x : α} (member : a ∈ line)
    (waits : ¬settled a) (other : x ∈ line) (same : key x = key a) : x = a := by
  obtain ⟨pre, post, rfl⟩ := List.append_of_mem member
  rcases List.mem_append.mp other with before | later
  · exact absurd same (orderly.alone waits x (List.mem_append_left post before))
  · cases later with
    | head => rfl
    | tail _ after => exact absurd same (orderly.alone waits x (List.mem_append_right pre after))

end Ordered

section Apart

variable (key : α → κ) (settled : α → Prop)

/-- An entry that is not settled is the only one with its key; the keys need not be in order. -/
def Apart (line : List α) : Prop :=
  line.Pairwise fun a b => key a = key b → settled a ∧ settled b

variable {key settled} {line pre post news : List α} {a b : α}

theorem Apart.alone (apart : Apart key settled (pre ++ a :: post)) (waits : ¬settled a) :
    ∀ x ∈ pre ++ post, key x ≠ key a := by
  rcases List.pairwise_append.mp apart with ⟨_, second, across⟩
  intro x member tie
  rcases List.mem_append.mp member with before | after
  · exact waits (across x before a List.mem_cons_self tie).2
  · exact waits ((List.pairwise_cons.mp second).1 x after tie.symm).1

theorem Apart.snoc (apart : Apart key settled line) (fresh : ∀ x ∈ line, key x ≠ key a) :
    Apart key settled (line ++ [a]) := by
  apply List.pairwise_append.mpr
  refine ⟨apart, List.pairwise_singleton _ a, ?_⟩
  intro x member y last tie
  rw [List.mem_singleton.mp last] at tie
  exact absurd tie (fresh x member)

/-- Any entries with keys no one waits under may stand anywhere, settled. -/
theorem Apart.put (apart : Apart key settled (pre ++ post)) (settle : ∀ x ∈ news, settled x)
    (free : ∀ x ∈ news, ∀ y ∈ pre ++ post, key x = key y → settled y) :
    Apart key settled (pre ++ news ++ post) := by
  rcases List.pairwise_append.mp apart with ⟨first, second, across⟩
  rw [List.append_assoc]
  apply List.pairwise_append.mpr
  refine ⟨first, List.pairwise_append.mpr ⟨?_, second, ?_⟩, ?_⟩
  · apply List.pairwise_of_forall_mem_list
    intro x mine y yours _
    exact ⟨settle x mine, settle y yours⟩
  · intro x mine y after tie
    exact ⟨settle x mine, free x mine y (List.mem_append_right pre after) tie⟩
  · intro x before y later tie
    rcases List.mem_append.mp later with mine | after
    · exact ⟨free y mine x (List.mem_append_left post before) tie.symm, settle y mine⟩
    · exact across x before y after tie

theorem Apart.drop (apart : Apart key settled (pre ++ a :: post)) : Apart key settled (pre ++ post) :=
  List.Pairwise.sublist (List.Sublist.append_left (List.sublist_cons_self a post) pre) apart

/-- Settled entries under the key of the one they replace stand where it stood. -/
theorem Apart.replace (apart : Apart key settled (pre ++ a :: post)) (waits : ¬settled a)
    (same : ∀ x ∈ news, key x = key a) (settle : ∀ x ∈ news, settled x) :
    Apart key settled (pre ++ news ++ post) := by
  apply apart.drop.put settle
  intro x mine y member tie
  exact absurd (tie.symm.trans (same x mine)) (apart.alone waits y member)

/-- An entry may change where it stands as long as its key stays. -/
theorem Apart.update (apart : Apart key settled (pre ++ a :: post)) (waits : ¬settled a)
    (same : key b = key a) : Apart key settled (pre ++ b :: post) := by
  have alone := apart.alone waits
  rcases List.pairwise_append.mp apart with ⟨first, second, across⟩
  apply List.pairwise_append.mpr
  refine ⟨first, List.pairwise_cons.mpr ⟨?_, (List.pairwise_cons.mp second).2⟩, ?_⟩
  · intro y after tie
    exact absurd (tie.symm.trans same) (alone y (List.mem_append_right pre after))
  · intro x before y later tie
    rcases List.mem_cons.mp later with rfl | after
    · exact absurd (tie.trans same) (alone x (List.mem_append_left post before))
    · exact across x before y (List.mem_cons_of_mem a after) tie

end Apart

/-- A block of the line that the replaced element is not in stays a block. -/
theorem infix_replace {block pre post : List α} {a : α} (news : List α)
    (inside : block <:+: pre ++ a :: post) (outside : a ∉ block) :
    block <:+: pre ++ news ++ post := by
  obtain ⟨left, right, split⟩ := inside
  rw [List.append_assoc] at split
  rcases List.append_eq_append_iff.mp split with ⟨more, whole, shared⟩ | ⟨more, whole, shared⟩
  · rcases List.append_eq_append_iff.mp shared with ⟨rest, inner, tail⟩ | ⟨rest, inner, tail⟩
    · rw [whole, inner]
      exact ⟨left, rest ++ news ++ post, by simp⟩
    · cases rest with
      | nil =>
          rw [List.append_nil] at inner
          rw [whole, ← inner]
          exact ⟨left, news ++ post, by simp⟩
      | cons b rest =>
          rw [List.cons_append, List.cons.injEq] at tail
          rw [inner, ← tail.1] at outside
          simp at outside
  · cases more with
    | nil =>
        rw [List.nil_append] at shared
        cases block with
        | nil => exact List.nil_infix
        | cons b block =>
            rw [List.cons_append, List.cons.injEq] at shared
            rw [← shared.1] at outside
            simp at outside
    | cons b more =>
        rw [List.cons_append, List.cons.injEq] at shared
        rw [shared.2]
        exact ⟨pre ++ news ++ more, right, by simp⟩

section Settling

variable {M : Type} [AddCommMonoid M] (key : α → κ) (settled : α → Prop) (weight : α → M)

/-- One entry that waits becomes settled entries under its key, of the same weight in all. -/
inductive Settles : List α → List α → Prop where
  | settle (pre news post : List α) (a : α) (waits : ¬settled a)
      (rows : ∀ x ∈ news, key x = key a ∧ settled x)
      (balance : (news.map weight).sum = weight a) : Settles (pre ++ a :: post) (pre ++ news ++ post)

/-- Any number of them, one after the other. -/
abbrev SettlesAll : List α → List α → Prop := Relation.ReflTransGen (Settles key settled weight)

variable {key settled weight} {line last : List α}

theorem SettlesAll.behind (settles : SettlesAll key settled weight line last) (front : List α) :
    SettlesAll key settled weight (front ++ line) (front ++ last) := by
  induction settles with
  | refl => exact .refl
  | tail _ one ih =>
      apply ih.tail
      cases one with
      | settle pre news post a waits rows balance =>
          have moved := Settles.settle (front ++ pre) news post a waits rows balance
          simpa only [List.append_assoc] using moved

theorem SettlesAll.weight_eq (settles : SettlesAll key settled weight line last) :
    (last.map weight).sum = (line.map weight).sum := by
  induction settles with
  | refl => rfl
  | tail _ one ih =>
      rw [← ih]
      cases one with
      | settle pre news post a waits rows balance =>
          simp only [List.map_append, List.sum_append, List.map_cons, List.sum_cons, balance,
            add_assoc]

theorem SettlesAll.orderly [LinearOrder κ] (settles : SettlesAll key settled weight line last)
    (orderly : Orderly key settled line) : Orderly key settled last := by
  induction settles with
  | refl => exact orderly
  | tail _ one ih =>
      cases one with
      | settle pre news post a waits rows balance =>
          exact ih.replace (fun x member => (rows x member).1) (fun x member => (rows x member).2)

theorem SettlesAll.apart (settles : SettlesAll key settled weight line last)
    (apart : Apart key settled line) : Apart key settled last := by
  induction settles with
  | refl => exact apart
  | tail _ one ih =>
      cases one with
      | settle pre news post a waits rows balance =>
          exact ih.replace waits (fun x member => (rows x member).1)
            (fun x member => (rows x member).2)

/-- An entry that still waits waited before. -/
theorem SettlesAll.waited (settles : SettlesAll key settled weight line last) {b : α}
    (member : b ∈ last) (waits : ¬settled b) : b ∈ line := by
  induction settles with
  | refl => exact member
  | tail _ one ih =>
      cases one with
      | settle pre news post a _ rows _ =>
          apply ih
          rcases List.mem_append.mp member with front | after
          · rcases List.mem_append.mp front with before | new
            · exact List.mem_append_left _ before
            · exact absurd (rows b new).2 waits
          · exact List.mem_append_right _ (List.mem_cons_of_mem a after)

/-- The keys in the line are those that were there. -/
theorem SettlesAll.keys (settles : SettlesAll key settled weight line last) {b : α}
    (member : b ∈ last) : ∃ a ∈ line, key b = key a := by
  induction settles generalizing b with
  | refl => exact ⟨b, member, rfl⟩
  | tail _ one ih =>
      cases one with
      | settle pre news post a _ rows _ =>
          rcases List.mem_append.mp member with front | after
          · rcases List.mem_append.mp front with before | new
            · exact ih (List.mem_append_left _ before)
            · obtain ⟨c, there, same⟩ := ih (List.mem_append_right pre List.mem_cons_self)
              exact ⟨c, there, (rows b new).1.trans same⟩
          · exact ih (List.mem_append_right _ (List.mem_cons_of_mem a after))

/-- A block of settled entries stays a block. -/
theorem SettlesAll.block (settles : SettlesAll key settled weight line last) {block : List α}
    (ready : ∀ x ∈ block, settled x) (inside : block <:+: line) : block <:+: last := by
  induction settles with
  | refl => exact inside
  | tail _ one ih =>
      cases one with
      | settle pre news post a waits rows _ =>
          exact infix_replace news ih fun member => waits (ready a member)

end Settling

end Repartee.Lib
