import Repartee.App.SeekSteps

/-!
Seeks applied one at a time and seeks that wait for the same frame, side by side: they differ only
in when the backlog is pinned, and so in what a return to the live end drops.
-/

namespace Repartee.App

open Text Lib State Ui

variable {ρ : Type} [Inhabited ρ] (S : Setting ρ)

/-- A return to the live end may drop messages. -/
def Setting.Over (messages : List Message) : Prop :=
  S.collapses = true ∧ 0 < S.limit ∧ S.limit < messages.length

/-- How many it drops. -/
def Setting.excess (messages : List Message) : Nat := messages.length - S.limit

/-- Of those above the live view none is a highlight. -/
def Setting.Spared (messages : List Message) : Prop :=
  ∀ k < S.excess messages, k < S.liveTop messages → highlightAt messages k = false

section Returns

variable {S} {messages : List Message}

omit [Inhabited ρ] in
theorem trimmed_over (over_ : S.Over messages) :
    trimmed S.limit messages = messages.drop (S.excess messages) := if_pos ⟨over_.2.1, over_.2.2⟩

omit [Inhabited ρ] in
theorem trimmed_drop (over_ : S.Over messages) :
    trimmed S.limit (messages.drop (S.excess messages)) = messages.drop (S.excess messages) := by
  apply if_neg
  rw [List.length_drop, Setting.excess]
  have long := over_.2.2
  omega

omit [Inhabited ρ] in
theorem returned_still (within : ¬S.Over messages) (pinned : Bool) (place : Place) :
    ∃ kept, S.returned ⟨messages, pinned, place⟩ = ⟨messages, kept, .view 0⟩ := by
  unfold Setting.returned
  split
  · rename_i drops
    rw [Bool.and_eq_true] at drops
    have all : trimmed S.limit messages = messages := if_neg fun long => within ⟨drops.1, long⟩
    exact ⟨false, by rw [all]⟩
  · exact ⟨pinned, rfl⟩

omit [Inhabited ρ] in
theorem returned_place (st : Standing) : (S.returned st).place = .view 0 := by
  unfold Setting.returned
  split <;> rfl

omit [Inhabited ρ] in
theorem returned_pinned (over_ : S.Over messages) (place : Place) :
    S.returned ⟨messages, true, place⟩ = ⟨messages.drop (S.excess messages), false, .view 0⟩ := by
  simp [Setting.returned, over_.1, trimmed_over over_]

omit [Inhabited ρ] in
theorem returned_unpinned (place : Place) :
    S.returned ⟨messages, false, place⟩ = ⟨messages, false, .view 0⟩ := by
  simp [Setting.returned]

omit [Inhabited ρ] in
theorem returned_cut (over_ : S.Over messages) (pinned : Bool) (place : Place) :
    ∃ kept, S.returned ⟨messages.drop (S.excess messages), pinned, place⟩ =
      ⟨messages.drop (S.excess messages), kept, .view 0⟩ := by
  cases pinned with
  | false => exact ⟨false, returned_unpinned place⟩
  | true =>
      refine ⟨false, ?_⟩
      simp [Setting.returned, over_.1, trimmed_drop over_]

end Returns

/-- Why it does not matter that the one is pinned and the other is not. -/
inductive Calm (messages : List Message) : Bool → Bool → Prop
  | still {p q : Bool} (within : ¬S.Over messages) : Calm messages p q
  | pinned : Calm messages true true
  | unpinned (pins : S.pins = false) : Calm messages false false
  | spared {p : Bool} (spared : S.Spared messages) : Calm messages p false

/-- A place in the messages that are left, and the same place in all of them. -/
inductive SamePlace (dropped : Nat) : Place → Place → Prop
  | live : SamePlace dropped (.view 0) (.view 0)
  | on (index : Nat) : SamePlace dropped (.on index) (.on (dropped + index))

/-- The seeks applied one at a time, and those that wait together. -/
inductive Twin : Standing → Standing → Prop
  | same {messages : List Message} {p q : Bool} (place : Place) (calm : Calm S messages p q) :
      Twin ⟨messages, p, place⟩ ⟨messages, q, place⟩
  | cut {messages : List Message} {place place' : Place} (p : Bool) (over_ : S.Over messages)
      (below : S.excess messages ≤ S.liveTop messages) (spared : S.Spared messages)
      (places : SamePlace (S.excess messages) place place') :
      Twin ⟨messages.drop (S.excess messages), p, place⟩ ⟨messages, false, place'⟩
  | stuck {messages : List Message} (p : Bool) (over_ : S.Over messages)
      (above : S.liveTop messages < S.excess messages) (spared : S.Spared messages) :
      Twin ⟨messages.drop (S.excess messages), p, .view 0⟩ ⟨messages, false, .view 0⟩

omit [Inhabited ρ] in
theorem not_over_drop {messages : List Message} (over_ : S.Over messages) :
    ¬S.Over (messages.drop (S.excess messages)) := by
  rintro ⟨-, -, long⟩
  rw [List.length_drop, Setting.excess] at long
  have := over_.2.2
  omega

section Twins

variable {S} {messages : List Message} {p q : Bool}

theorem Calm.lands (calm : Calm S messages p q) : Calm S messages (p || S.pins) q := by
  cases calm with
  | still within => exact .still within
  | pinned => exact .pinned
  | unpinned pins =>
      rw [pins]
      exact .unpinned pins
  | spared spared => exact .spared spared

/-- Back at the live end, the one may have dropped what the other keeps. -/
theorem Calm.returned (calm : Calm S messages p q) (place : Place) :
    Twin S (S.returned ⟨messages, p, place⟩) (S.returned ⟨messages, q, place⟩) := by
  by_cases over_ : S.Over messages
  · cases calm with
    | still within => exact absurd over_ within
    | pinned =>
        rw [returned_pinned over_]
        exact .same _ (.still (not_over_drop S over_))
    | unpinned pins =>
        rw [returned_unpinned]
        exact .same _ (.unpinned pins)
    | spared spared =>
        rw [returned_unpinned]
        cases p with
        | false =>
            rw [returned_unpinned]
            exact .same _ (.spared spared)
        | true =>
            rw [returned_pinned over_]
            rcases Nat.lt_or_ge (S.liveTop messages) (S.excess messages) with above | below
            · exact .stuck false over_ above spared
            · exact .cut false over_ below spared .live
  · obtain ⟨kept, same⟩ := returned_still over_ p place
    obtain ⟨kept', same'⟩ := returned_still over_ q place
    rw [same, same']
    exact .same _ (.still over_)

omit [Inhabited ρ] in
theorem excess_lt (over_ : S.Over messages) : S.excess messages < messages.length := by
  rw [Setting.excess]
  have := over_.2
  omega

/-- Seeks from the same place lead to the same place, if no highlight was dropped. -/
theorem cut_outcome (loaded : S.Loaded messages) (over_ : S.Over messages)
    (below : S.excess messages ≤ S.liveTop messages) (spared : S.Spared messages)
    {place place' : Place} (places : SamePlace (S.excess messages) place place')
    (direction : SeekDirection) :
    outcome messages (S.position ⟨messages, q, place'⟩) direction =
      (outcome (messages.drop (S.excess messages))
        (S.position ⟨messages.drop (S.excess messages), p, place⟩) direction).shift
          (S.excess messages) := by
  have older : ∀ k < S.excess messages, highlightAt messages k = false := fun k before =>
    spared k before (Nat.lt_of_lt_of_le before below)
  have inside := excess_lt over_
  have some_ : messages ≠ [] := List.ne_nil_of_length_pos (by omega)
  have someLeft : messages.drop (S.excess messages) ≠ [] := by
    rw [Ne, List.drop_eq_nil_iff]
    omega
  cases places with
  | live =>
      simp only [Setting.position]
      cases direction with
      | next =>
          rw [outcome_live_next S loaded some_, outcome_live_next S (loaded.drop S _) someLeft]
          rfl
      | previous =>
          have live := edges_eq S loaded some_
          have liveLeft := (edges_drop S loaded inside live.1).2
          have top : S.liveTop messages =
              S.excess messages + (S.liveTop messages - S.excess messages) := by omega
          rw [liveLeft, live.1, outcome_view_previous, outcome_view_previous]
          rw [top, nearestHighlight_previous_drop older, ← top]
          cases nearestHighlight (messages.drop (S.excess messages)) .previous
            (some (S.liveTop messages - S.excess messages)) <;> rfl
  | on index =>
      simp only [Setting.position]
      cases direction with
      | next =>
          rw [outcome_at_next, outcome_at_next, nearestHighlight_next_drop]
          cases nearestHighlight (messages.drop (S.excess messages)) .next (some index) <;> rfl
      | previous =>
          rw [outcome_at_previous, outcome_at_previous, nearestHighlight_previous_drop older]
          cases nearestHighlight (messages.drop (S.excess messages)) .previous (some index) <;> rfl

/-- Above a live view that shows dropped messages there is nothing, before and afterwards. -/
theorem stuck_outcome (loaded : S.Loaded messages) (over_ : S.Over messages)
    (above : S.liveTop messages < S.excess messages) (spared : S.Spared messages)
    (direction : SeekDirection) :
    outcome messages (S.edges messages 0) direction =
      outcome (messages.drop (S.excess messages)) (S.edges (messages.drop (S.excess messages)) 0)
        direction ∧
    ∀ index, outcome messages (S.edges messages 0) direction ≠ .lands index := by
  have inside := excess_lt over_
  have some_ : messages ≠ [] := List.ne_nil_of_length_pos (by omega)
  have someLeft : messages.drop (S.excess messages) ≠ [] := by
    rw [Ne, List.drop_eq_nil_iff]
    omega
  cases direction with
  | next =>
      rw [outcome_live_next S loaded some_, outcome_live_next S (loaded.drop S _) someLeft]
      exact ⟨rfl, fun index absurd => by cases absurd⟩
  | previous =>
      have live := edges_eq S loaded some_
      have liveLeft := (edges_drop S loaded inside live.1).2
      have none_ : nearestHighlight messages .previous (some (S.liveTop messages)) = none := by
        rw [nearestHighlight_previous_eq_none]
        exact fun k before => spared k (before.trans above) before
      have noneLeft : nearestHighlight (messages.drop (S.excess messages)) .previous
          (some (S.liveTop messages - S.excess messages)) = none := by
        rw [nearestHighlight_previous_eq_none]
        intro k before
        omega
      rw [liveLeft, live.1, outcome_view_previous, outcome_view_previous, none_, noneLeft]
      exact ⟨rfl, fun index absurd => by cases absurd⟩

variable {a b : Standing} {direction : SeekDirection}

theorem Twin.step (loaded : S.Loaded b.messages) (twin : Twin S a b) (direction : SeekDirection) :
    Twin S (S.press a direction) (S.glide b direction) := by
  cases twin with
  | @same messages p q place calm =>
      simp only [Setting.press, Setting.glide, Setting.move, Bool.or_false]
      have here : S.position ⟨messages, p, place⟩ = S.position ⟨messages, q, place⟩ := rfl
      rw [here]
      cases outcome messages (S.position ⟨messages, q, place⟩) direction with
      | stays => exact .same place calm
      | lands index => exact .same _ calm.lands
      | live => exact calm.returned place
  | @cut messages place place' p over_ below spared places =>
      have agree := cut_outcome (p := p) (q := false) loaded over_ below spared places direction
      simp only [Setting.press, Setting.glide, Setting.move, Bool.or_false]
      rw [agree]
      cases outcome (messages.drop (S.excess messages))
        (S.position ⟨messages.drop (S.excess messages), p, place⟩) direction with
      | stays => exact .cut p over_ below spared places
      | lands index => exact .cut _ over_ below spared (.on index)
      | live =>
          obtain ⟨kept, same⟩ := returned_cut over_ p place
          simp only [Outcome.shift]
          rw [same, returned_unpinned]
          exact .cut kept over_ below spared .live
  | @stuck messages p over_ above spared =>
      have agree := stuck_outcome loaded over_ above spared direction
      simp only [Setting.press, Setting.glide, Setting.move, Setting.position]
      rw [← agree.1]
      cases reached : outcome messages (S.edges messages 0) direction with
      | stays => exact .stuck p over_ above spared
      | lands index => exact absurd reached (agree.2 index)
      | live =>
          obtain ⟨kept, same⟩ := returned_cut over_ p (.view 0)
          simp only
          rw [same, returned_unpinned]
          exact .stuck kept over_ above spared

theorem returned_loaded {st : Standing} (loaded : S.Loaded st.messages) :
    S.Loaded (S.returned st).messages := by
  unfold Setting.returned
  split
  · exact loaded.trimmed S _
  · exact loaded

theorem move_loaded {st : Standing} (loaded : S.Loaded st.messages) (pin : Bool)
    (direction : SeekDirection) : S.Loaded (S.move pin st direction).messages := by
  unfold Setting.move
  split
  · exact loaded
  · exact loaded
  · exact returned_loaded loaded

end Twins

/-- Where a standing is seen to be. -/
def Standing.landing (st : Standing) : Landing :=
  match st.place with
  | .view offset => .offset offset
  | .on index =>
      match st.messages[index]? with
      | some message => .highlight message.rest.id
      | none => .waiting

theorem Twin.landing {a b : Standing} (twin : Twin S a b) : a.landing = b.landing := by
  cases twin with
  | same place calm => rfl
  | cut p over_ below spared places =>
      cases places with
      | live => rfl
      | on index => simp only [Standing.landing, List.getElem?_drop]
  | stuck p over_ above spared => rfl

/-- Seeks in a row. -/
def Setting.moves (pin : Bool) (st : Standing) (directions : List SeekDirection) : Standing :=
  directions.foldl (S.move pin) st

theorem moves_append (pin : Bool) (st : Standing) (first second : List SeekDirection) :
    S.moves pin st (first ++ second) = S.moves pin (S.moves pin st first) second :=
  List.foldl_append

theorem moves_loaded {st : Standing} (loaded : S.Loaded st.messages) (pin : Bool)
    (directions : List SeekDirection) : S.Loaded (S.moves pin st directions).messages := by
  induction directions generalizing st with
  | nil => exact loaded
  | cons direction rest ih => exact ih (move_loaded loaded pin direction)

theorem Twin.run {a b : Standing} (loaded : S.Loaded b.messages) (twin : Twin S a b)
    (directions : List SeekDirection) :
    Twin S (S.moves S.pins a directions) (S.moves false b directions) := by
  induction directions generalizing a b with
  | nil => exact twin
  | cons direction rest ih =>
      exact ih (move_loaded loaded false direction) (twin.step loaded direction)

/-- The seeks pressed before a frame where the rows of the live view are not at hand: those after
the first return to the live end wait together. -/
def Setting.queued (st : Standing) : List SeekDirection → Standing
  | [] => st
  | direction :: rest =>
      if outcome st.messages (S.position st) direction = .live then
        S.moves false (S.press st direction) rest
      else queued (S.press st direction) rest

theorem outcome_previous_ne_live {messages : List Message} {position : SeekPosition}
    (known : position ≠ .live) : outcome messages position .previous ≠ .live := by
  cases position with
  | live => exact absurd rfl known
  | at_ index =>
      rw [outcome_at_previous]
      exact fun absurd => by cases absurd
  | view top bottom =>
      rw [outcome_view_previous]
      cases nearestHighlight messages .previous top <;> exact fun absurd => by cases absurd

theorem position_ne_live (st : Standing) : S.position st ≠ .live := by
  unfold Setting.position
  split <;> exact fun absurd => by cases absurd

/-- Nothing is lost on the way to the first return if a seek lands before it. -/
theorem queued_landing {st : Standing} (loaded : S.Loaded st.messages)
    (steady : Calm S st.messages st.pinned st.pinned ∨
      ∃ index, outcome st.messages (S.position st) .next = .lands index)
    (directions : List SeekDirection) :
    (S.moves S.pins st directions).landing = (S.queued st directions).landing := by
  induction directions generalizing st with
  | nil => rfl
  | cons direction rest ih =>
      have loaded_ : S.Loaded (S.press st direction).messages :=
        move_loaded loaded S.pins direction
      have next : S.moves S.pins st (direction :: rest) = S.moves S.pins (S.press st direction) rest :=
        rfl
      rw [next]
      unfold Setting.queued
      cases reached : outcome st.messages (S.position st) direction with
      | stays =>
          have same : S.press st direction = st := by
            simp only [Setting.press, Setting.move, reached]
          rw [if_neg (fun absurd => by cases absurd), same]
          exact ih loaded steady
      | lands index =>
          rw [if_neg (fun absurd => by cases absurd)]
          have landed : S.press st direction = ⟨st.messages, st.pinned || S.pins, .on index⟩ := by
            simp only [Setting.press, Setting.move, reached]
          apply ih loaded_
          rw [landed]
          refine .inl ?_
          cases pinned : st.pinned with
          | true => exact .pinned
          | false =>
              cases pins : S.pins with
              | true => exact .pinned
              | false => exact .unpinned pins
      | live =>
          rw [if_pos rfl]
          cases steady with
          | inl calm =>
              have both : S.press st direction = S.glide st direction := by
                simp only [Setting.press, Setting.glide, Setting.move, reached]
              have twin : Twin S st st := .same st.place calm
              have stepped := twin.step loaded direction
              rw [← both] at stepped
              exact (stepped.run S loaded_ rest).landing
          | inr lands =>
              obtain ⟨index, lands⟩ := lands
              cases direction with
              | previous => exact absurd reached (outcome_previous_ne_live (position_ne_live S st))
              | next =>
                  rw [lands] at reached
                  cases reached

section Diverging

variable {S} {messages : List Message}

omit [Inhabited ρ] in
theorem returned_ne_nil {st : Standing} (some_ : st.messages ≠ []) :
    (S.returned st).messages ≠ [] := by
  have long := List.length_pos_of_ne_nil some_
  unfold Setting.returned
  split
  · simp only [trimmed]
    split
    · rw [Ne, List.drop_eq_nil_iff]
      omega
    · exact some_
  · exact some_

theorem next_ne_stays {st : Standing} (loaded : S.Loaded st.messages) (some_ : st.messages ≠ []) :
    outcome st.messages (S.position st) .next ≠ .stays := by
  unfold Setting.position
  split
  · rename_i offset here
    obtain ⟨top, -, bottom, known⟩ := edges_known S loaded some_ offset
    rw [known, outcome_view_next]
    cases nearestHighlight st.messages .next (some bottom) <;> exact fun absurd => by cases absurd
  · exact outcome_at_ne_stays

theorem next_lands {st : Standing} {index : Nat} {i : Nat} (here : st.place = .on i)
    (lands : outcome st.messages (S.position st) .next = .lands index) :
    i < index ∧ index < st.messages.length := by
  have at_ : S.position st = .at_ i := by simp only [Setting.position, here]
  rw [at_, outcome_at_next] at lands
  cases near : nearestHighlight st.messages .next (some i) with
  | none => simp [near] at lands
  | some j =>
      rw [near] at lands
      cases lands
      rw [nearestHighlight_next_eq_some] at near
      exact ⟨near.1, highlightAt_lt near.2.1⟩

theorem lands_lt {messages : List Message} {position : SeekPosition} {index : Nat}
    (lands : outcome messages position .next = .lands index) : index < messages.length := by
  have near : ∃ i, nearestHighlight messages .next (some i) = some index := by
    cases position with
    | live => cases lands
    | at_ i =>
        rw [outcome_at_next] at lands
        refine ⟨i, ?_⟩
        cases near : nearestHighlight messages .next (some i) with
        | none => simp [near] at lands
        | some j =>
            rw [near] at lands
            cases lands
            rfl
    | view top bottom =>
        cases bottom with
        | none => cases lands
        | some i =>
            rw [outcome_view_next] at lands
            refine ⟨i, ?_⟩
            cases near : nearestHighlight messages .next (some i) with
            | none => simp [near] at lands
            | some j =>
                rw [near] at lands
                cases lands
                rfl
  obtain ⟨i, near⟩ := near
  exact highlightAt_lt (nearestHighlight_next_eq_some.mp near).2.1

/-- At the live end pressing on stays there. -/
theorem next_stable (pin : Bool) {st : Standing} (loaded : S.Loaded st.messages)
    (some_ : st.messages ≠ []) (here : st.place = .view 0) (n : Nat) :
    (S.moves pin st (List.replicate n .next)).place = .view 0 := by
  induction n generalizing st with
  | zero => exact here
  | succ n ih =>
      have live : S.position st = S.edges st.messages 0 := by simp only [Setting.position, here]
      have back : S.move pin st .next = S.returned st := by
        simp only [Setting.move, live, outcome_live_next S loaded some_]
      have next : S.moves pin st (List.replicate (n + 1) .next) =
          S.moves pin (S.move pin st .next) (List.replicate n .next) := rfl
      rw [next, back]
      exact ih (returned_loaded loaded) (returned_ne_nil some_) (returned_place st)

/-- The next seek comes to the live end, or to a highlight further down. -/
theorem next_step (pin : Bool) {st : Standing} (loaded : S.Loaded st.messages)
    (some_ : st.messages ≠ []) :
    S.move pin st .next = S.returned st ∨
      ∃ index < st.messages.length, S.move pin st .next = ⟨st.messages, st.pinned || pin, .on index⟩ ∧
        ∀ i, st.place = .on i → i < index := by
  cases reached : outcome st.messages (S.position st) .next with
  | stays => exact absurd reached (next_ne_stays loaded some_)
  | live => exact .inl (by simp only [Setting.move, reached])
  | lands index =>
      refine .inr ⟨index, ?_, by simp only [Setting.move, reached], fun i here =>
        (next_lands here reached).1⟩
      exact lands_lt reached

/-- From the live end on, however many more are pressed. -/
def Arrives (S : Setting ρ) (pin : Bool) (st : Standing) : Prop :=
  ∃ n, ∀ m ≥ n, (S.moves pin st (List.replicate m .next)).place = .view 0

theorem Arrives.of_next {pin : Bool} {st : Standing} (later : Arrives S pin (S.move pin st .next)) :
    Arrives S pin st := by
  obtain ⟨n, arrived⟩ := later
  refine ⟨n + 1, fun m enough => ?_⟩
  obtain ⟨m, rfl⟩ := Nat.exists_eq_add_of_le' (Nat.le_of_add_left_le enough)
  exact arrived m (by omega)

theorem returned_arrives (pin : Bool) {st : Standing} (loaded : S.Loaded st.messages)
    (some_ : st.messages ≠ []) : Arrives S pin (S.returned st) :=
  ⟨0, fun m _ => next_stable pin (returned_loaded loaded) (returned_ne_nil some_)
    (returned_place st) m⟩

/-- Enough seeks to the next highlight come to the live end. -/
theorem next_arrives (pin : Bool) {st : Standing} (loaded : S.Loaded st.messages)
    (some_ : st.messages ≠ []) : Arrives S pin st := by
  -- by induction on the messages below the highlight reached
  have from_ : ∀ left (st : Standing), S.Loaded st.messages → st.messages ≠ [] → ∀ i,
      st.place = .on i → st.messages.length ≤ i + left → Arrives S pin st := by
    intro left
    induction left with
    | zero =>
        intro st loaded some_ i here low
        apply Arrives.of_next
        rcases next_step pin loaded some_ with back | ⟨index, inside, -, further⟩
        · rw [back]
          exact returned_arrives pin loaded some_
        · have := further i here
          omega
    | succ left ih =>
        intro st loaded some_ i here low
        apply Arrives.of_next
        rcases next_step pin loaded some_ with back | ⟨index, inside, moved, further⟩
        · rw [back]
          exact returned_arrives pin loaded some_
        · have := further i here
          rw [moved]
          refine ih ⟨st.messages, st.pinned || pin, .on index⟩ loaded some_ index rfl ?_
          simp only
          omega
  apply Arrives.of_next
  rcases next_step pin loaded some_ with back | ⟨index, inside, moved, -⟩
  · rw [back]
    exact returned_arrives pin loaded some_
  · rw [moved]
    refine from_ st.messages.length ⟨st.messages, st.pinned || pin, .on index⟩ loaded some_ index rfl ?_
    simp only
    omega

/-- Seeks that wait together never pin, and so never drop anything. -/
theorem glides_unpinned (place : Place) (directions : List SeekDirection) :
    ∃ place', S.moves false ⟨messages, false, place⟩ directions = ⟨messages, false, place'⟩ := by
  induction directions generalizing place with
  | nil => exact ⟨place, rfl⟩
  | cons direction rest ih =>
      have one : ∃ place', S.move false ⟨messages, false, place⟩ direction =
          ⟨messages, false, place'⟩ := by
        unfold Setting.move
        split
        · exact ⟨place, rfl⟩
        · rename_i index reached
          exact ⟨.on index, rfl⟩
        · exact ⟨_, returned_unpinned place⟩
      obtain ⟨place', one⟩ := one
      have next : S.moves false ⟨messages, false, place⟩ (direction :: rest) =
          S.moves false (S.move false ⟨messages, false, place⟩ direction) rest := rfl
      rw [next, one]
      exact ih place'

/-- Seeks to the previous highlight reach any highlight above. -/
theorem previous_reaches {k : Nat} (here : highlightAt messages k = true) (left i : Nat)
    (above : k ≤ i) (near : i ≤ k + left) :
    ∃ n, S.moves false ⟨messages, false, .on i⟩ (List.replicate n .previous) =
      ⟨messages, false, .on k⟩ := by
  induction left generalizing i with
  | zero =>
      obtain rfl : i = k := by omega
      exact ⟨0, rfl⟩
  | succ left ih =>
      rcases Nat.eq_or_lt_of_le above with rfl | before
      · exact ⟨0, rfl⟩
      · obtain ⟨j, found, from_, below, -⟩ := nearestHighlight_previous_exists here before
        obtain ⟨n, reached⟩ := ih j from_ (by omega)
        refine ⟨n + 1, ?_⟩
        have one : S.move false ⟨messages, false, .on i⟩ .previous = ⟨messages, false, .on j⟩ := by
          simp only [Setting.move, Setting.position, outcome_at_previous, found, Option.getD_some,
            Bool.or_false]
        have next : S.moves false ⟨messages, false, .on i⟩ (List.replicate (n + 1) .previous) =
            S.moves false (S.move false ⟨messages, false, .on i⟩ .previous)
              (List.replicate n .previous) := rfl
        rw [next, one, reached]

variable (over_ : S.Over messages)
include over_

/-- What was dropped does not come back. -/
theorem moves_dropped (pin : Bool) {st : Standing}
    (dropped : st.messages = messages.drop (S.excess messages)) (directions : List SeekDirection) :
    (S.moves pin st directions).messages = messages.drop (S.excess messages) := by
  induction directions generalizing st with
  | nil => exact dropped
  | cons direction rest ih =>
      refine @ih (S.move pin st direction) ?_
      unfold Setting.move
      split
      · exact dropped
      · exact dropped
      · obtain ⟨held, pinned, place⟩ := st
        simp only at dropped
        subst dropped
        obtain ⟨kept, same⟩ := returned_cut over_ pinned place
        rw [same]

/-- Pinned at a highlight, the next return drops what is over the limit. -/
theorem bound_next {st : Standing}
    (bound : st.messages = messages.drop (S.excess messages) ∨
      ∃ i, st = ⟨messages, true, .on i⟩) (n : Nat) :
    (S.moves S.pins st (List.replicate n .next)).messages = messages.drop (S.excess messages) ∨
      ∃ i, S.moves S.pins st (List.replicate n .next) = ⟨messages, true, .on i⟩ := by
  induction n generalizing st with
  | zero => exact bound
  | succ n ih =>
      refine @ih (S.move S.pins st .next) ?_
      rcases bound with dropped | ⟨i, rfl⟩
      · exact .inl (moves_dropped over_ S.pins dropped [.next])
      · cases reached : outcome messages (.at_ i) .next with
        | stays => exact absurd reached outcome_at_ne_stays
        | lands j =>
            refine .inr ⟨j, ?_⟩
            simp only [Setting.move, Setting.position, reached, Bool.true_or]
        | live =>
            refine .inl ?_
            simp only [Setting.move, Setting.position, reached, returned_pinned over_]

theorem presses_drop (loaded : S.Loaded messages) {st : Standing}
    (bound : st.messages = messages.drop (S.excess messages) ∨
      ∃ i, st = ⟨messages, true, .on i⟩) :
    ∃ n, ∀ m ≥ n, (S.moves S.pins st (List.replicate m .next)).messages =
      messages.drop (S.excess messages) := by
  have inside := excess_lt over_
  have known : S.Loaded st.messages ∧ st.messages ≠ [] := by
    rcases bound with dropped | ⟨i, rfl⟩
    · rw [dropped]
      refine ⟨loaded.drop S _, ?_⟩
      rw [Ne, List.drop_eq_nil_iff]
      omega
    · exact ⟨loaded, List.ne_nil_of_length_pos (by simp only; omega)⟩
  obtain ⟨n, arrived⟩ := next_arrives S.pins known.1 known.2
  refine ⟨n, fun m enough => ?_⟩
  rcases bound_next over_ bound m with dropped | ⟨i, stuck⟩
  · exact dropped
  · have there := arrived m enough
    rw [stuck] at there
    cases there

theorem moves_whole (pin : Bool) {st : Standing} (whole : st.messages = messages)
    (directions : List SeekDirection) :
    (S.moves pin st directions).messages = messages ∨
      (S.moves pin st directions).messages = messages.drop (S.excess messages) := by
  induction directions generalizing st with
  | nil => exact .inl whole
  | cons direction rest ih =>
      have one : (S.move pin st direction).messages = messages ∨
          (S.move pin st direction).messages = messages.drop (S.excess messages) := by
        unfold Setting.move Setting.returned
        split
        · exact .inl whole
        · exact .inl whole
        · split
          · exact .inr (by rw [whole, trimmed_over over_])
          · exact .inl whole
      rcases one with same | dropped
      · exact @ih (S.move pin st direction) same
      · exact .inr (moves_dropped over_ pin dropped rest)

/-- From the live end the seeks that wait together reach the highlight. -/
theorem live_reaches (loaded : S.Loaded messages) {k : Nat} (above : k < S.liveTop messages)
    (here : highlightAt messages k = true) :
    ∃ n, S.moves false ⟨messages, false, .view 0⟩ (List.replicate n .previous) =
      ⟨messages, false, .on k⟩ := by
  have inside := excess_lt over_
  have some_ : messages ≠ [] := List.ne_nil_of_length_pos (by omega)
  obtain ⟨j, found, from_, -, -⟩ := nearestHighlight_previous_exists here above
  obtain ⟨n, reached⟩ := previous_reaches (S := S) here (j - k) j from_ (by omega)
  refine ⟨n + 1, ?_⟩
  have one : S.move false ⟨messages, false, .view 0⟩ .previous = ⟨messages, false, .on j⟩ := by
    simp only [Setting.move, Setting.position, outcome_live_previous S loaded some_, found,
      Option.map_some, Option.getD_some, Bool.or_false]
  have next : S.moves false ⟨messages, false, .view 0⟩ (List.replicate (n + 1) .previous) =
      S.moves false (S.move false ⟨messages, false, .view 0⟩ .previous)
        (List.replicate n .previous) := rfl
  rw [next, one, reached]

omit over_ in
/-- Among the messages that are left there is none that was dropped. -/
theorem landing_dropped (loaded : S.Loaded messages) {c k : Nat} {st : Standing}
    (left : st.messages = messages.drop c) {message : Message} (here : messages[k]? = some message)
    (old : k < c) : st.landing ≠ .highlight message.rest.id := by
  intro same
  unfold Standing.landing at same
  split at same
  · cases same
  · rename_i index there
    split at same
    · rename_i other found
      rw [left, List.getElem?_drop] at found
      have first := indexOf_eq_some loaded.distinct found
      rw [Landing.highlight.inj same, indexOf_eq_some loaded.distinct here,
        Option.some.injEq] at first
      omega
    · cases same

/-- A highlight above the live view that a return would drop: seeks that wait together reach it,
and seeks one at a time, which have pinned the backlog and dropped it, do not. -/
theorem moves_diverge (loaded : S.Loaded messages) (pins : S.pins = true) {k : Nat}
    (old : k < S.excess messages) (above : k < S.liveTop messages)
    (here : highlightAt messages k = true) (place : Place) :
    ∃ directions, directions ≠ [] ∧
      (S.moves S.pins ⟨messages, false, place⟩ directions).landing ≠
        (S.moves false ⟨messages, false, place⟩ directions).landing := by
  have inside := excess_lt over_
  have some_ : messages ≠ [] := List.ne_nil_of_length_pos (by omega)
  obtain ⟨j, found, -, -, -⟩ := nearestHighlight_previous_exists here above
  -- together, everything stays loaded
  have glided : ∀ place, ∃ n, ∀ m ≥ n,
      S.moves false ⟨messages, false, place⟩ (List.replicate m .next) =
        ⟨messages, false, .view 0⟩ := by
    intro place
    obtain ⟨n, arrived⟩ := @next_arrives ρ _ S false ⟨messages, false, place⟩ loaded some_
    refine ⟨n, fun m enough => ?_⟩
    have there := arrived m enough
    obtain ⟨place', kept⟩ := @glides_unpinned ρ _ S messages place
      (List.replicate m .next)
    rw [kept] at there ⊢
    rw [show place' = .view 0 from there]
  have previous : S.move false ⟨messages, false, .view 0⟩ .previous = ⟨messages, false, .on j⟩ := by
    simp only [Setting.move, Setting.position, outcome_live_previous S loaded some_, found,
      Option.map_some, Option.getD_some, Bool.or_false]
  -- one at a time, the first return after a highlight drops it
  obtain ⟨n, down⟩ := glided place
  obtain ⟨n', down'⟩ := @next_arrives ρ _ S S.pins ⟨messages, false, place⟩ loaded some_
  have both := down (max n n') (Nat.le_max_left n n')
  have alone := down' (max n n') (Nat.le_max_right n n')
  have whole := @moves_whole ρ _ S messages over_ S.pins ⟨messages, false, place⟩ rfl
    (List.replicate (max n n') .next)
  generalize reached : S.moves S.pins ⟨messages, false, place⟩ (List.replicate (max n n') .next) =
    st at *
  have bound : (S.move S.pins st .previous).messages = messages.drop (S.excess messages) ∨
      ∃ i, S.move S.pins st .previous = ⟨messages, true, .on i⟩ := by
    rcases whole with same | dropped
    · obtain ⟨held, pinned, there⟩ := st
      simp only at same alone
      subst same alone
      refine .inr ⟨j, ?_⟩
      simp only [Setting.move, Setting.position, outcome_live_previous S loaded some_, found,
        Option.map_some, Option.getD_some, pins, Bool.or_true]
    · exact .inl (moves_dropped over_ S.pins dropped [.previous])
  obtain ⟨l, drops⟩ := presses_drop over_ loaded bound
  obtain ⟨l', again⟩ := glided (.on j)
  obtain ⟨r, up⟩ := live_reaches over_ loaded above here
  refine ⟨List.replicate (max n n') .next ++ ([.previous] ++ (List.replicate (max l l') .next ++
    List.replicate r .previous)), ?_, ?_⟩
  · simp
  have queue : S.moves false ⟨messages, false, place⟩ (List.replicate (max n n') .next ++
      ([.previous] ++ (List.replicate (max l l') .next ++ List.replicate r .previous))) =
        ⟨messages, false, .on k⟩ := by
    rw [moves_append, both, moves_append, moves_append]
    have one : S.moves false ⟨messages, false, .view 0⟩ [.previous] = ⟨messages, false, .on j⟩ :=
      previous
    rw [one, again _ (Nat.le_max_right l l'), up]
  have each : (S.moves S.pins ⟨messages, false, place⟩ (List.replicate (max n n') .next ++
      ([.previous] ++ (List.replicate (max l l') .next ++ List.replicate r .previous)))).messages =
        messages.drop (S.excess messages) := by
    rw [moves_append, reached, moves_append, moves_append]
    exact moves_dropped over_ S.pins (drops _ (Nat.le_max_left l l')) _
  rw [queue]
  obtain ⟨message, found_, -⟩ := (Option.any_eq_true _ _).mp here
  have landed : (⟨messages, false, .on k⟩ : Standing).landing = .highlight message.rest.id := by
    simp only [Standing.landing, found_]
  rw [landed]
  exact landing_dropped loaded each found_ old

end Diverging

end Repartee.App
