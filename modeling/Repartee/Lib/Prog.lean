import Mathlib

/-!
Stateful programs that may fail part way. An error keeps the state reached so far, so a program
says for both exits which states it can stop in.
-/

namespace Repartee.Lib

theorem bind_eq_ok {ε α β : Type} (x : Except ε α) (f : α → Except ε β) (b : β) :
    x >>= f = .ok b ↔ ∃ a, x = .ok a ∧ f a = .ok b := by
  cases x with
  | ok a => simp [bind, Except.bind]
  | error e => simp [bind, Except.bind]

theorem mapError_eq_ok {ε ε' α : Type} (f : ε → ε') (x : Except ε α) (a : α) :
    x.mapError f = .ok a ↔ x = .ok a := by
  cases x <;> simp [Except.mapError]

def Prog (σ ε α : Type) : Type := σ → Except ε α × σ

namespace Prog

variable {σ ε α β : Type}

instance : Monad (Prog σ ε) where
  pure a := fun s => (.ok a, s)
  bind m f := fun s => match m s with
    | (.ok a, s') => f a s'
    | (.error e, s') => (.error e, s')

def fail (e : ε) : Prog σ ε α := fun s => (.error e, s)

def read (f : σ → α) : Prog σ ε α := fun s => (.ok (f s), s)

def change (f : σ → σ) : Prog σ ε Unit := fun s => (.ok (), f s)

/-- Reads a value and replaces the state in one step. -/
def update (f : σ → α × σ) : Prog σ ε α := fun s => (.ok (f s).1, (f s).2)

def lift (r : Except ε α) : Prog σ ε α := fun s => (r, s)

def ensure (c : Bool) (e : ε) : Prog σ ε Unit := if c then pure () else fail e

def onlyIf (c : Bool) (m : Prog σ ε Unit) : Prog σ ε Unit := if c then m else pure ()

/-- Runs a program and hands its error to the caller as a value. -/
def attempt (m : Prog σ ε α) : Prog σ ε (Except ε α) := fun s => (.ok (m s).1, (m s).2)

/-- Runs a program on a part of the state. -/
def zoom {τ : Type} (get : σ → τ) (put : τ → σ → σ) (m : Prog τ ε α) : Prog σ ε α := fun s =>
  ((m (get s)).1, put (m (get s)).2 s)

def mapError {ε' : Type} (f : ε → ε') (m : Prog σ ε α) : Prog σ ε' α := fun s =>
  ((m s).1.mapError f, (m s).2)

/-- Runs the body on every element in order and stops at the first error. -/
def each (f : α → Prog σ ε Unit) : List α → Prog σ ε Unit
  | [] => pure ()
  | a :: rest => f a >>= fun _ => each f rest

def collect (f : α → Prog σ ε β) : List α → Prog σ ε (List β)
  | [] => pure []
  | a :: rest => f a >>= fun b => collect f rest >>= fun bs => pure (b :: bs)

section Runs

variable {s s' : σ}

theorem bind_of_ok {m : Prog σ ε α} {f : α → Prog σ ε β} {a : α} (ran : m s = (.ok a, s')) :
    (m >>= f) s = f a s' := by
  show (match m s with | (.ok a, s') => f a s' | (.error e, s') => (.error e, s')) = _
  rw [ran]

theorem bind_of_error {m : Prog σ ε α} {f : α → Prog σ ε β} {e : ε} (ran : m s = (.error e, s')) :
    (m >>= f) s = (.error e, s') := by
  show (match m s with | (.ok a, s') => f a s' | (.error e, s') => (.error e, s')) = _
  rw [ran]

theorem mapError_of_ok {ε' : Type} {f : ε → ε'} {m : Prog σ ε α} {a : α} (ran : m s = (.ok a, s')) :
    mapError f m s = (.ok a, s') := by
  rw [mapError, ran]
  rfl

theorem mapError_of_error {ε' : Type} {f : ε → ε'} {m : Prog σ ε α} {e : ε}
    (ran : m s = (.error e, s')) : mapError f m s = (.error (f e), s') := by
  rw [mapError, ran]
  rfl

theorem attempt_of {m : Prog σ ε α} {r : Except ε α} (ran : m s = (r, s')) :
    attempt m s = (.ok r, s') := by
  rw [attempt, ran]

end Runs

/-- From state s, a result satisfies the first condition and an error the second. -/
def After (s : σ) (m : Prog σ ε α) (Q : α → σ → Prop) (E : ε → σ → Prop) : Prop :=
  match m s with
  | (.ok a, s') => Q a s'
  | (.error e, s') => E e s'

section Rules

variable {s : σ} {Q Q' : α → σ → Prop} {E E' : ε → σ → Prop}

@[simp] theorem after_pure (a : α) : After s (pure a : Prog σ ε α) Q E ↔ Q a s := Iff.rfl

@[simp] theorem after_fail (e : ε) : After s (fail e : Prog σ ε α) Q E ↔ E e s := Iff.rfl

@[simp] theorem after_read (f : σ → α) : After s (read f : Prog σ ε α) Q E ↔ Q (f s) s := Iff.rfl

@[simp] theorem after_change (f : σ → σ) {Q : Unit → σ → Prop} :
    After s (change f : Prog σ ε Unit) Q E ↔ Q () (f s) := Iff.rfl

@[simp] theorem after_update (f : σ → α × σ) :
    After s (update f : Prog σ ε α) Q E ↔ Q (f s).1 (f s).2 := Iff.rfl

theorem after_lift (r : Except ε α) :
    After s (lift r : Prog σ ε α) Q E ↔ (∀ a, r = .ok a → Q a s) ∧ ∀ e, r = .error e → E e s := by
  cases r <;> simp [After, lift]

@[simp] theorem after_bind (m : Prog σ ε β) (f : β → Prog σ ε α) :
    After s (m >>= f) Q E ↔ After s m (fun b s' => After s' (f b) Q E) E := by
  unfold After
  simp only [bind]
  rcases m s with ⟨result, s'⟩
  cases result <;> rfl

@[simp] theorem after_ite (c : Prop) [Decidable c] (m n : Prog σ ε α) :
    After s (if c then m else n) Q E ↔ (c → After s m Q E) ∧ (¬c → After s n Q E) := by
  split <;> simp [*]

@[simp] theorem after_ensure (c : Bool) (e : ε) {Q : Unit → σ → Prop} :
    After s (ensure c e) Q E ↔ (c = true → Q () s) ∧ (c = false → E e s) := by
  cases c <;> simp [ensure]

@[simp] theorem after_onlyIf (c : Bool) (m : Prog σ ε Unit) {Q : Unit → σ → Prop} :
    After s (onlyIf c m) Q E ↔ (c = true → After s m Q E) ∧ (c = false → Q () s) := by
  cases c <;> simp [onlyIf]

@[simp] theorem after_attempt (m : Prog σ ε α) {Q : Except ε α → σ → Prop} :
    After s (attempt m) Q E ↔ After s m (fun a s' => Q (.ok a) s') (fun e s' => Q (.error e) s') := by
  unfold After attempt
  rcases m s with ⟨result, s'⟩
  cases result <;> rfl

@[simp] theorem after_zoom {τ : Type} (get : σ → τ) (put : τ → σ → σ) (m : Prog τ ε α) :
    After s (zoom get put m) Q E ↔
      After (get s) m (fun a t => Q a (put t s)) (fun e t => E e (put t s)) := by
  unfold After zoom
  rcases m (get s) with ⟨result, t⟩
  cases result <;> rfl

@[simp] theorem after_mapError {ε' : Type} (f : ε → ε') (m : Prog σ ε α) {E : ε' → σ → Prop} :
    After s (mapError f m) Q E ↔ After s m Q (fun e s' => E (f e) s') := by
  unfold After mapError
  rcases m s with ⟨result, s'⟩
  cases result <;> rfl

theorem After.mono {m : Prog σ ε α} (before : After s m Q E)
    (result : ∀ a s', Q a s' → Q' a s') (error : ∀ e s', E e s' → E' e s') : After s m Q' E' := by
  unfold After at *
  rcases outcome : m s with ⟨r, s'⟩
  rw [outcome] at before
  cases r with
  | ok a => exact result a s' before
  | error e => exact error e s' before

theorem After.reaches {m : Prog σ ε α} {inv : σ → Prop}
    (after : After s m (fun _ s' => inv s') fun _ s' => inv s') : inv (m s).2 := by
  unfold After at after
  rcases outcome : m s with ⟨r, s'⟩
  rw [outcome] at after
  cases r <;> exact after

theorem After.and {m : Prog σ ε α} (left : After s m Q E) (right : After s m Q' E') :
    After s m (fun a s' => Q a s' ∧ Q' a s') (fun e s' => E e s' ∧ E' e s') := by
  unfold After at *
  rcases outcome : m s with ⟨r, s'⟩
  rw [outcome] at left right
  cases r <;> exact ⟨left, right⟩

end Rules

/-- Wherever the program stops, with a result or an error, it has only moved along the relation,
and a result comes with what is claimed of it. -/
def Ensures (R : σ → σ → Prop) (s : σ) (m : Prog σ ε α) (Post : α → σ → Prop) : Prop :=
  After s m (fun a s' => R s s' ∧ Post a s') (fun _ s' => R s s')

section Ensures

variable {R : σ → σ → Prop} {s : σ} {Post : α → σ → Prop}

theorem Ensures.mono {S : σ → σ → Prop} {m : Prog σ ε α} {Post' : α → σ → Prop}
    (before : Ensures R s m Post) (weaker : ∀ s', R s s' → S s s')
    (result : ∀ a s', R s s' → Post a s' → Post' a s') : Ensures S s m Post' :=
  After.mono before (fun a s' stop => ⟨weaker s' stop.1, result a s' stop.1 stop.2⟩)
    fun _ s' stop => weaker s' stop

theorem Ensures.post {m : Prog σ ε α} {Post' : α → σ → Prop} (before : Ensures R s m Post)
    (result : ∀ a s', R s s' → Post a s' → Post' a s') : Ensures R s m Post' :=
  before.mono (fun _ stop => stop) result

theorem Ensures.moved {m : Prog σ ε α} (before : Ensures R s m Post) : R s (m s).2 := by
  unfold Ensures After at before
  rcases outcome : m s with ⟨result, s'⟩
  rw [outcome] at before
  cases result with
  | ok a => exact before.1
  | error e => exact before

theorem Ensures.result {m : Prog σ ε α} {a : α} {s' : σ} (before : Ensures R s m Post)
    (outcome : m s = (.ok a, s')) : R s s' ∧ Post a s' := by
  unfold Ensures After at before
  rwa [outcome] at before

theorem ensures_of_after {m : Prog σ ε α} (after : After s m (fun a s' => R s s' ∧ Post a s')
    fun _ s' => R s s') : Ensures R s m Post := after

theorem ensures_update (f : σ → α × σ) (step : R s (f s).2) (post : Post (f s).1 (f s).2) :
    Ensures R s (update f : Prog σ ε α) Post := ⟨step, post⟩

theorem ensures_change (f : σ → σ) {Post : Unit → σ → Prop} (step : R s (f s))
    (post : Post () (f s)) : Ensures R s (change f : Prog σ ε Unit) Post := ⟨step, post⟩

theorem ensures_attempt {m : Prog σ ε α} (before : Ensures R s m Post) :
    Ensures R s (attempt m) fun r s' => ∀ a, r = .ok a → Post a s' := by
  refine (after_attempt m).mpr (After.mono before ?_ ?_)
  · intro a s' stop
    exact ⟨stop.1, fun b same => by cases same; exact stop.2⟩
  · intro e s' stop
    exact ⟨stop, fun b same => by cases same⟩

theorem ensures_ite {c : Prop} [Decidable c] {m n : Prog σ ε α} (yes : c → Ensures R s m Post)
    (no : ¬c → Ensures R s n Post) : Ensures R s (if c then m else n) Post := by
  split
  · exact yes ‹_›
  · exact no ‹_›

theorem ensures_read_bind (f : σ → β) {g : β → Prog σ ε α} (rest : Ensures R s (g (f s)) Post) :
    Ensures R s (read f >>= g) Post := rest

section Preorder

variable [IsPreorder σ R]

theorem ensures_pure (a : α) (post : Post a s) : Ensures R s (pure a : Prog σ ε α) Post :=
  ⟨refl_of R s, post⟩

theorem ensures_fail (e : ε) : Ensures R s (fail e : Prog σ ε α) Post := refl_of R s

theorem ensures_read (f : σ → α) (post : Post (f s) s) :
    Ensures R s (read f : Prog σ ε α) Post := ⟨refl_of R s, post⟩

theorem ensures_onlyIf (c : Bool) {m : Prog σ ε Unit} {Post : Unit → σ → Prop}
    (yes : c = true → Ensures R s m Post) (no : c = false → Post () s) :
    Ensures R s (onlyIf c m) Post :=
  (after_onlyIf c m).mpr ⟨yes, fun off => ⟨refl_of R s, no off⟩⟩

/-- A program run after some steps has moved from before them. -/
theorem Ensures.after_moved {m : Prog σ ε α} {start : σ} (moved : R start s)
    (before : Ensures R s m Post) :
    After s m (fun a s' => R start s' ∧ Post a s') (fun _ s' => R start s') :=
  After.mono before (fun _ _ stop => ⟨trans_of R moved stop.1, stop.2⟩)
    fun _ _ stop => trans_of R moved stop

theorem Ensures.bind {m : Prog σ ε β} {f : β → Prog σ ε α} {Mid : β → σ → Prop}
    (first : Ensures R s m Mid)
    (rest : ∀ b s', R s s' → Mid b s' → Ensures R s' (f b) Post) : Ensures R s (m >>= f) Post := by
  refine (after_bind m f).mpr (After.mono first ?_ fun _ _ stop => stop)
  intro b s' stop
  exact Ensures.after_moved stop.1 (rest b s' stop.1 stop.2)

/-- The same with what holds in between stated. -/
theorem ensures_bind {m : Prog σ ε β} {f : β → Prog σ ε α} (mid : β → σ → Prop)
    (first : Ensures R s m mid) (rest : ∀ b s', R s s' → mid b s' → Ensures R s' (f b) Post) :
    Ensures R s (m >>= f) Post :=
  first.bind rest

theorem ensures_lift (r : Except ε α) (post : ∀ a, r = .ok a → Post a s) :
    Ensures R s (lift r : Prog σ ε α) Post := by
  cases r with
  | ok a => exact ⟨refl_of R s, post a rfl⟩
  | error e => exact refl_of R s

theorem ensures_lift_bind (r : Except ε β) {g : β → Prog σ ε α}
    (rest : ∀ b, r = .ok b → Ensures R s (g b) Post) : Ensures R s (lift r >>= g) Post := by
  cases r with
  | ok b => exact rest b rfl
  | error e => exact refl_of R s

theorem ensures_guard_bind (c : Bool) (e : ε) {g : Unit → Prog σ ε α}
    (rest : c = true → Ensures R s (g ()) Post) : Ensures R s (ensure c e >>= g) Post := by
  cases c with
  | true => exact rest rfl
  | false => exact refl_of R s

theorem ensures_each {f : α → Prog σ ε Unit} (inv : σ → Prop) (items : List α)
    (body : ∀ a ∈ items, ∀ s', R s s' → inv s' → Ensures R s' (f a) fun _ => inv) (start : inv s) :
    Ensures R s (each f items) fun _ => inv := by
  induction items generalizing s with
  | nil => exact ensures_pure () start
  | cons a rest ih =>
      refine (body a List.mem_cons_self s (refl_of R s) start).bind fun _ s' moved held => ?_
      exact ih (fun b member s'' further =>
        body b (List.mem_cons_of_mem a member) s'' (trans_of R moved further)) held

theorem ensures_collect {f : α → Prog σ ε β} (inv : σ → Prop) (items : List α)
    (body : ∀ a ∈ items, ∀ s', R s s' → inv s' → Ensures R s' (f a) fun _ => inv) (start : inv s) :
    Ensures R s (collect f items) fun _ => inv := by
  induction items generalizing s with
  | nil => exact ensures_pure [] start
  | cons a rest ih =>
      refine (body a List.mem_cons_self s (refl_of R s) start).bind fun _ s' moved held => ?_
      refine (ih (fun b member s'' further =>
        body b (List.mem_cons_of_mem a member) s'' (trans_of R moved further)) held).bind ?_
      exact fun _ s'' _ held => ensures_pure _ held

/-- The same with what holds of each element and its result. -/
theorem ensures_collect_each {f : α → Prog σ ε β} (inv : σ → Prop) (rel : α → β → Prop)
    (items : List α) (body : ∀ a ∈ items, ∀ s', R s s' → inv s' →
      Ensures R s' (f a) fun b s'' => rel a b ∧ inv s'') (start : inv s) :
    Ensures R s (collect f items) fun bs s' => List.Forall₂ rel items bs ∧ inv s' := by
  induction items generalizing s with
  | nil => exact ensures_pure [] ⟨List.Forall₂.nil, start⟩
  | cons a rest ih =>
      apply (body a List.mem_cons_self s (refl_of R s) start).bind
      intro b s' moved first
      have later : Ensures R s' (collect f rest) fun bs s'' =>
          List.Forall₂ rel rest bs ∧ inv s'' :=
        ih (fun c member s'' further =>
          body c (List.mem_cons_of_mem a member) s'' (trans_of R moved further)) first.2
      apply later.bind
      intro bs s'' _ tail
      exact ensures_pure _ ⟨List.Forall₂.cons first.1 tail.1, tail.2⟩

end Preorder

end Ensures

end Prog

end Repartee.Lib
