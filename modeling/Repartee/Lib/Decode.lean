import Repartee.Lib.Prog

/-!
Decoding a list element by element: the results stand one by one beside what they were decoded
from, and an order of the list is an order of the results.
-/

namespace Repartee.Lib

variable {ε α β κ : Type}

theorem mapM_eq_ok (f : α → Except ε β) (items : List α) (results : List β) :
    items.mapM f = .ok results ↔ List.Forall₂ (fun a b => f a = .ok b) items results := by
  induction items generalizing results with
  | nil =>
      rw [List.mapM_nil, List.forall₂_nil_left_iff]
      exact ⟨fun same => (Except.ok.inj same).symm, fun same => by rw [same]; rfl⟩
  | cons a rest ih =>
      rw [List.mapM_cons, bind_eq_ok, List.forall₂_cons_left_iff]
      constructor
      · intro decoded
        obtain ⟨b, head, later⟩ := decoded
        obtain ⟨bs, tail, same⟩ := (bind_eq_ok _ _ _).mp later
        exact ⟨b, bs, head, (ih bs).mp tail, (Except.ok.inj same).symm⟩
      · intro decoded
        obtain ⟨b, bs, head, tail, rfl⟩ := decoded
        exact ⟨b, head, (bind_eq_ok _ _ _).mpr ⟨bs, (ih bs).mpr tail, rfl⟩⟩

theorem mapM_perm (f : α → Except ε β) (items other : List α) (results : List β)
    (perm : other.Perm items) (decoded : List.Forall₂ (fun a b => f a = .ok b) items results) :
    ∃ listed, other.mapM f = .ok listed ∧ listed.Perm results := by
  obtain ⟨listed, read, same⟩ := List.perm_comp_forall₂ perm decoded
  exact ⟨listed, (mapM_eq_ok _ _ _).mpr read, same⟩

/-- What was encoded element by element, each with its index, is decoded to what it was. -/
theorem mapM_zipIdx_map (encode : β → α) (f : α × Nat → Except ε β) (items : List β) (first : Nat)
    (decodes : ∀ b ∈ items, ∀ idx, f (encode b, idx) = .ok b) :
    ((items.map encode).zipIdx first).mapM f = .ok items := by
  apply (mapM_eq_ok _ _ _).mpr
  induction items generalizing first with
  | nil => exact List.Forall₂.nil
  | cons b rest ih =>
      exact List.Forall₂.cons (decodes b List.mem_cons_self first)
        (ih (first + 1) fun c member => decodes c (List.mem_cons_of_mem b member))

theorem forM_eq_ok (f : α → Except ε Unit) (items : List α) :
    items.forM f = .ok () ↔ ∀ a ∈ items, f a = .ok () := by
  induction items with
  | nil => exact ⟨fun _ _ member => absurd member List.not_mem_nil, fun _ => rfl⟩
  | cons a rest ih =>
      have step : (a :: rest).forM f = f a >>= fun _ => rest.forM f := rfl
      rw [step, bind_eq_ok, List.forall_mem_cons, ← ih]
      exact ⟨fun both => ⟨both.choose_spec.1, both.choose_spec.2⟩, fun both => ⟨(), both⟩⟩

/-- Where decoding keeps the key, the keys of the results are those of what was decoded. -/
theorem keys_of_decoded (f : α → Except ε β) (key : α → κ) (keyOf : β → κ)
    (keeps : ∀ a b, f a = .ok b → key a = keyOf b) (items : List α) (results : List β)
    (decoded : List.Forall₂ (fun a b => f a = .ok b) items results) :
    results.map keyOf = items.map key := by
  induction decoded with
  | nil => rfl
  | cons head _ ih => rw [List.map_cons, List.map_cons, ih, keeps _ _ head]

theorem exists_of_forall₂ (rel : α → β → Prop) (items : List α) (results : List β)
    (beside : List.Forall₂ rel items results) : ∀ b ∈ results, ∃ a ∈ items, rel a b := by
  induction beside with
  | nil => exact fun b member => absurd member List.not_mem_nil
  | cons head _ ih =>
      intro b member
      rcases List.mem_cons.mp member with rfl | later
      · exact ⟨_, List.mem_cons_self, head⟩
      · obtain ⟨a, inside, read⟩ := ih b later
        exact ⟨a, List.mem_cons_of_mem _ inside, read⟩

end Repartee.Lib
