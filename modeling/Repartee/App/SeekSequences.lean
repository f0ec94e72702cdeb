import Repartee.App.SeekAgreement

/-!
Exactly when seeks pressed before a redraw end where the same seeks do with a redraw after each.
-/

namespace Repartee.App

open Text Lib State Ui

variable {ρ : Type} [Inhabited ρ] (S : Setting ρ)

section Stale

variable {S} {app : ChatApp} {messages : List Message} {pinned : Bool}

theorem stale_edges (loaded : S.Loaded messages) (stale : S.Stale messages) :
    (∃ bottom, S.edgesIn messages (messages.drop (S.excess messages)) 0 = .view none (some bottom)) ∧
      ∃ bottom, S.edges (messages.drop (S.excess messages)) 0 = .view (some 0) (some bottom) := by
  obtain ⟨before, after⟩ := edges_drop S loaded (excess_lt stale.1)
    (edges_eq S loaded (over_ne_nil stale.1)).1
  rw [if_neg (Nat.not_le_of_lt stale.2.1)] at before
  rw [Nat.sub_eq_zero_of_le (Nat.le_of_lt stale.2.1)] at after
  exact ⟨⟨_, before⟩, _, after⟩

/-- After the drop nothing is above the rows a redraw gives. -/
theorem stale_stays (loaded : S.Loaded messages) (stale : S.Stale messages) (pin : Bool) :
    S.move pin ⟨messages.drop (S.excess messages), pinned, .view 0⟩ .previous =
      ⟨messages.drop (S.excess messages), pinned, .view 0⟩ := by
  obtain ⟨bottom, after⟩ := (stale_edges loaded stale).2
  have none_ : nearestHighlight (messages.drop (S.excess messages)) .previous (some 0) = none := by
    rw [nearestHighlight_previous_eq_none]
    exact fun k before => absurd before (Nat.not_lt_zero k)
  have position : S.position ⟨messages.drop (S.excess messages), pinned, .view 0⟩ =
      .view (some 0) (some bottom) := after
  simp only [Setting.move, position, outcome_view_previous, none_, Option.map_none, Option.getD_none]

/-- But from the rows drawn before it a seek goes to the last highlight. -/
theorem stale_lands (loaded : S.Loaded messages) (stale : S.Stale messages)
    (rested : S.Rested app ⟨messages.drop (S.excess messages), pinned, .view 0⟩) {rows : ChatRows}
    (shown : app.chatRows = some rows) (at_ : rows.renderedAt S.bufferId 0 = true)
    (draws : rows.rows.map Prod.fst = S.rowsAt messages 0) :
    ∃ st index, S.Rested (render S.screen (seekHighlight .previous app)) st ∧
      st.place = .on index := by
  obtain ⟨bottom, before⟩ := (stale_edges loaded stale).1
  obtain ⟨k, kept, highlight⟩ := stale.2.2
  have there : highlightAt (messages.drop (S.excess messages)) (k - S.excess messages) = true := by
    rwa [highlightAt_drop, Nat.add_sub_cancel' kept]
  obtain ⟨index, found, -, inside, -⟩ :=
    nearestHighlight_previous_exists there (highlightAt_lt there)
  have lands : outcome (messages.drop (S.excess messages)) (.view none (some bottom)) .previous =
      .lands index := by
    rw [outcome_view_previous, nearestHighlight_previous_none, found]
    rfl
  have ends := @advance_single (messages.drop (S.excess messages)) .previous
    (.view none (some bottom)) SeekPosition.noConfusion
  rw [advance_lands lands] at ends
  have start : viewPosition rows S.bufferId (messages.drop (S.excess messages)) =
      .view none (some bottom) :=
    (viewPosition_rows (ChatRows.renderedAt_iff.mp at_).1 draws).trans before
  rw [rested_start rested shown at_, start]
  cases rested with
  | view holds kept reaches unsought scroll =>
      have here := List.getElem?_eq_getElem inside
      rw [runSeeks_at holds ends here]
      have ready := @pending_follows ρ _ S app
        ⟨messages.drop (S.excess messages), pinned, .view 0⟩ holds kept index _ here
      cases ready with
      | on holds_ loaded_ there_ sought names =>
          have framed := pending_frame holds_ loaded_ here (by rw [pinActiveBacklog_eq app])
          rw [framed.1]
          exact ⟨_, index, framed.2.1, rfl⟩

theorem landing_on {st : Standing} {index : Nat} (here : st.place = .on index) (offset : Nat) :
    st.landing ≠ .offset offset := by
  obtain ⟨messages, pinned, place⟩ := st
  simp only at here
  subst here
  simp only [Standing.landing]
  split <;> exact fun absurd => by cases absurd

end Stale

section Diverging

variable {S} {app : ChatApp} {messages : List Message} {pinned : Bool} {place : Place}

theorem moves_cons (pin : Bool) (st : Standing) (direction : SeekDirection)
    (rest : List SeekDirection) :
    S.moves pin st (direction :: rest) = S.moves pin (S.move pin st direction) rest := rfl

/-- A seek that lands pins the backlog. -/
theorem reaches_pinned (follows : S.Follows app ⟨messages, pinned, place⟩)
    (drops : pinned = true ∨ S.pins = true ∧ ∃ index, outcome messages
      (S.position ⟨messages, pinned, place⟩) .previous = .lands index) :
    ∃ first place', S.Follows (pressAll app first) ⟨messages, true, place'⟩ ∧
      (pressAll app first).chatRows = app.chatRows ∧
      S.moves S.pins ⟨messages, pinned, place⟩ first = ⟨messages, true, place'⟩ := by
  rcases drops with rfl | ⟨pins, index, lands⟩
  · exact ⟨[], place, follows, rfl, rfl⟩
  · have moved : S.press ⟨messages, pinned, place⟩ .previous = ⟨messages, true, .on index⟩ := by
      simp only [Setting.press, Setting.move, lands, pins, Bool.or_true]
    have next_ := press_follows follows (by rw [lands]; exact fun absurd => by cases absurd)
    rw [moved] at next_
    exact ⟨[.previous], .on index, next_, press_rows follows .previous, moved⟩

/-- Seeks to the next highlight come to the lowest one, from which another returns. -/
theorem reaches_lowest (follows : S.Follows app ⟨messages, true, place⟩) (some_ : messages ≠ []) :
    ∃ n place', S.Follows (pressAll app (List.replicate n .next)) ⟨messages, true, place'⟩ ∧
      (pressAll app (List.replicate n .next)).chatRows = app.chatRows ∧
      S.moves S.pins ⟨messages, true, place⟩ (List.replicate n .next) = ⟨messages, true, place'⟩ ∧
      outcome messages (S.position ⟨messages, true, place'⟩) .next = .live := by
  -- by induction on the messages below, of which the screen's edge counts as one more
  have from_ : ∀ left (app : ChatApp) (place : Place), S.Follows app ⟨messages, true, place⟩ →
      (∀ i, place = .on i → messages.length ≤ i + left) → (∀ o, place = .view o → messages.length < left) →
      ∃ n place', S.Follows (pressAll app (List.replicate n .next)) ⟨messages, true, place'⟩ ∧
        (pressAll app (List.replicate n .next)).chatRows = app.chatRows ∧
        S.moves S.pins ⟨messages, true, place⟩ (List.replicate n .next) = ⟨messages, true, place'⟩ ∧
        outcome messages (S.position ⟨messages, true, place'⟩) .next = .live := by
    intro left
    induction left with
    | zero =>
        intro app place follows low high
        refine ⟨0, place, follows, rfl, rfl, ?_⟩
        cases place with
        | view o => exact absurd (high o rfl) (Nat.not_lt_zero _)
        | on i =>
            have below : nearestHighlight messages .next (some i) = none := by
              rw [nearestHighlight_next_eq_none]
              intro k later
              have := low i rfl
              rw [highlightAt, List.getElem?_eq_none (by omega)]
              rfl
            simp only [Setting.position, outcome_at_next, below, Option.map_none, Option.getD_none]
    | succ left ih =>
        intro app place follows low high
        cases reached : outcome messages (S.position ⟨messages, true, place⟩) .next with
        | stays =>
            exact absurd reached (@next_ne_stays ρ _ S ⟨messages, true, place⟩ follows.loaded some_)
        | live => exact ⟨0, place, follows, rfl, rfl, reached⟩
        | lands index =>
            have moved : S.press ⟨messages, true, place⟩ .next = ⟨messages, true, .on index⟩ := by
              simp only [Setting.press, Setting.move, reached, Bool.true_or]
            have next_ := press_follows follows (by rw [reached]; exact fun absurd => by cases absurd)
            rw [moved] at next_
            have inside : index < messages.length := lands_lt reached
            have further : messages.length ≤ index + left := by
              cases place with
              | view o =>
                  have := high o rfl
                  omega
              | on i =>
                  have := low i rfl
                  have := (@next_lands ρ _ S ⟨messages, true, .on i⟩ index i rfl reached).1
                  omega
            obtain ⟨n, place', later, rows, ends, live⟩ := ih _ (.on index) next_
              (fun i same => by cases same; exact further) (fun o absurd_ => by cases absurd_)
            refine ⟨n + 1, place', later, rows.trans (press_rows follows .next), ?_, live⟩
            have step : S.moves S.pins ⟨messages, true, place⟩ (List.replicate (n + 1) .next) =
                S.moves S.pins (S.press ⟨messages, true, place⟩ .next) (List.replicate n .next) := rfl
            rw [step, moved, ends]
  exact from_ (messages.length + 1) app place follows (fun i _ => by omega) (fun o _ => by omega)

theorem dropsShown_diverge (viewed : S.Viewed app messages pinned)
    (drops : S.DropsShown app messages pinned) :
    ∃ presses, presses ≠ [] ∧ ∀ n, presses.length ≤ n →
      landing ((render S.screen)^[n] (pressAll app presses)) S.bufferId ≠
        landing (pressEach S.screen app presses) S.bufferId := by
  obtain ⟨stale, place, begins, near, pinned_⟩ := drops
  have follows := viewed.follows begins
  have near_ := near
  simp only [Setting.Away, not_forall, Bool.not_eq_false, exists_prop] at near_
  obtain ⟨rows, kept, at_⟩ := near_
  obtain ⟨buffer, live⟩ := ChatRows.renderedAt_iff.mp at_
  have draws := (viewed.rows rows kept buffer).1
  rw [live] at draws
  have some_ := over_ne_nil stale.1
  have lands : pinned = true ∨ S.pins = true ∧ ∃ index, outcome messages
      (S.position ⟨messages, pinned, place⟩) .previous = .lands index := by
    refine pinned_.imp_right (And.imp_right fun landing => ?_)
    rcases landing with ⟨index, rfl⟩ | ⟨k, above, highlight⟩
    · exact ⟨_, outcome_at_previous⟩
    · cases begins with
      | @on index id shown found => exact ⟨_, outcome_at_previous⟩
      | view unsought kept_ here =>
          obtain rfl := Option.some.inj (kept.symm.trans kept_)
          have zero : app.scrollOffset = 0 := (ChatRows.renderedAt_iff.mp here).2.symm.trans live
          obtain ⟨index, found, -⟩ := nearestHighlight_previous_exists highlight above
          refine ⟨index, ?_⟩
          simp only [Setting.position, zero, outcome_live_previous S viewed.loaded some_, found,
            Option.map_some, Option.getD_some]
  obtain ⟨first, place', begins', rows', moved'⟩ := reaches_pinned follows lands
  obtain ⟨n, place'', lowest, rows'', moved'', back⟩ := reaches_lowest begins' some_
  have pressed_ : first ++ (List.replicate n SeekDirection.next ++ [.next, .previous]) ≠ [] := by simp
  refine ⟨_, pressed_, fun frames enough => ?_⟩
  -- one at a time nothing is left above
  have each : S.moves S.pins ⟨messages, pinned, place⟩
      (first ++ (List.replicate n .next ++ [.next, .previous])) =
        ⟨messages.drop (S.excess messages), false, .view 0⟩ := by
    have next_ : S.move S.pins ⟨messages, true, place''⟩ .next =
        ⟨messages.drop (S.excess messages), false, .view 0⟩ := by
      simp only [Setting.move, back, returned_pinned stale.1]
    rw [moves_append, moved', moves_append, moved'', moves_cons, next_, moves_cons,
      stale_stays viewed.loaded stale]
    rfl
  rw [(known_each follows pressed_).landing.1, each]
  -- together the rows drawn before the drop lead to a highlight
  have pressed := (press_live lowest back).1
  have rested := returnLive_rested lowest.holds viewed.loaded place''
  rw [returned_pinned stale.1] at rested
  have rows_ : (returnLive (pressAll (pressAll app first) (List.replicate n .next))).chatRows =
      some rows := by
    rw [returnLive_eq]
    exact rows''.trans (rows'.trans kept)
  obtain ⟨st, index, ends, on_⟩ := stale_lands viewed.loaded stale rested rows_ at_ draws
  obtain ⟨m, rfl⟩ :=
    Nat.exists_eq_add_of_le' (Nat.le_trans (List.length_pos_of_ne_nil pressed_) enough)
  rw [pressAll_append, pressAll_append, pressAll_cons, pressed, Function.iterate_succ_apply]
  have rest : S.Rested ((render S.screen)^[m] (render S.screen (pressAll
      (returnLive (pressAll (pressAll app first) (List.replicate n .next))) [.previous]))) st :=
    ends.frames m
  rw [rest.landing]
  exact landing_on on_ 0

theorem dropsApart_diverge (viewed : S.Viewed app messages pinned)
    (drops : S.DropsApart app messages pinned) :
    ∃ presses, presses ≠ [] ∧ ∀ n, presses.length ≤ n →
      landing ((render S.screen)^[n] (pressAll app presses)) S.bufferId ≠
        landing (pressEach S.screen app presses) S.bufferId := by
  obtain ⟨⟨over_, rfl, pins, held⟩, starts⟩ := drops
  have some_ := over_ne_nil over_
  simp only [Setting.Spared, not_forall, exists_prop, Bool.not_eq_false] at held
  obtain ⟨k, old, above, highlight⟩ := held
  rcases starts with none_ | ⟨place, begins, away, lowest⟩
  · obtain ⟨presses, pressed, apart⟩ := moves_diverge over_ viewed.loaded pins old above highlight
      (.view (S.nextOffset app))
    refine ⟨presses, pressed, fun n enough => ?_⟩
    have each := unknown_each viewed none_ (fun _ absurd => by cases absurd) pressed
    rw [(unknown_ends viewed none_ pressed enough).landing.1, each.landing.1]
    exact apart.symm
  · -- a first seek to the live end, after which the others wait together
    rw [@lowest_iff ρ _ S messages false place viewed.loaded some_] at lowest
    have follows := viewed.follows begins
    have back : S.move S.pins ⟨messages, false, place⟩ .next = ⟨messages, false, .view 0⟩ := by
      simp only [Setting.move, lowest, returned_unpinned]
    obtain ⟨rest, -, apart⟩ := moves_diverge over_ viewed.loaded pins old above highlight (.view 0)
    refine ⟨.next :: rest, List.cons_ne_nil _ _, fun n enough => ?_⟩
    have queue : S.queued ⟨messages, false, place⟩ (.next :: rest) =
        S.moves false ⟨messages, false, .view 0⟩ rest := by
      rw [Setting.queued, if_pos lowest, Setting.press, back]
    rw [(away_ends follows away (List.cons_ne_nil _ _) enough).landing.1, queue,
      (known_each follows (List.cons_ne_nil _ _)).landing.1, moves_cons, back]
    exact apart.symm

theorem dropsDrawn_diverge (viewed : S.Viewed app messages pinned)
    (drops : S.DropsDrawn app messages pinned) :
    ∃ presses, presses ≠ [] ∧ ∀ n, presses.length ≤ n →
      landing ((render S.screen)^[n] (pressAll app presses)) S.bufferId ≠
        landing (pressEach S.screen app presses) S.bufferId := by
  obtain ⟨stale, rfl, none_, live⟩ := drops
  rw [← nextOffset_eq_zero viewed.holds viewed.loaded] at live
  have some_ := over_ne_nil stale.1
  have start : S.position ⟨messages, true, .view 0⟩ = S.edges messages 0 := rfl
  have back := outcome_live_next S viewed.loaded some_
  refine ⟨[.next, .previous], List.cons_ne_nil _ _, fun n enough => ?_⟩
  -- together the second seek starts at the live view that is left
  have queue : S.moves false ⟨messages, true, .view 0⟩ [.next, .previous] =
      ⟨messages.drop (S.excess messages), false, .view 0⟩ := by
    have next_ : S.move false ⟨messages, true, .view 0⟩ .next =
        ⟨messages.drop (S.excess messages), false, .view 0⟩ := by
      simp only [Setting.move, start, back, returned_pinned stale.1]
    rw [moves_cons, next_, moves_cons, stale_stays viewed.loaded stale]
    rfl
  rw [(unknown_ends viewed none_ (List.cons_ne_nil _ _) enough).landing.1, live, queue]
  -- alone it starts at the rows drawn for the first
  obtain ⟨unknown, idle⟩ := unknown_of_not_begins viewed.settled none_
  have one : seekHighlight .next app = deferSeeks app S.bufferId [.next] :=
    @pressAll_unknown ρ S app messages true viewed.holds unknown idle [.next] (List.cons_ne_nil _ _)
  have waits := unknown_waits viewed.holds viewed.loaded [.next]
  rw [live] at waits
  have ends := @advance_single messages .next (S.edges messages 0) SeekPosition.noConfusion
  rw [advance_live back] at ends
  have framed : render S.screen (seekHighlight .next app) =
      returnLive (renderOnce S.screen (deferSeeks app S.bufferId [.next])).app := by
    rw [one, render, waits.returned ends]
  have rested := returnLive_rested waits.holds viewed.loaded (.view 0)
  rw [returned_pinned stale.1] at rested
  obtain ⟨rows, kept, buffer, at_, shows_⟩ := waits.drawn.rows
  rw [waits.scroll] at at_ shows_
  have kept_ : (returnLive (renderOnce S.screen (deferSeeks app S.bufferId [.next])).app).chatRows =
      some rows := by
    rw [returnLive_eq]
    exact kept
  obtain ⟨st, index, later, on_⟩ := stale_lands viewed.loaded stale rested kept_
    (ChatRows.renderedAt_iff.mpr ⟨buffer, at_⟩) shows_
  have each : pressEach S.screen app [.next, .previous] =
      render S.screen (seekHighlight .previous (render S.screen (seekHighlight .next app))) := rfl
  rw [each, framed, later.landing]
  exact (landing_on on_ 0).symm

end Diverging

/-- Seeks pressed before a redraw end at the same highlight or offset as with a redraw after each,
whatever is pressed, exactly where no return drops messages that only one of the two misses. -/
theorem pressAll_landing_iff {app : ChatApp} {messages : List Message} {pinned : Bool}
    (viewed : S.Viewed app messages pinned) :
    (∀ presses, presses ≠ [] → ∀ frames, presses.length ≤ frames →
      landing ((render S.screen)^[frames] (pressAll app presses)) S.bufferId ≠ .waiting ∧
      landing ((render S.screen)^[frames] (pressAll app presses)) S.bufferId =
        landing (pressEach S.screen app presses) S.bufferId) ↔
      S.Steady app messages pinned := by
  constructor
  · intro agree
    have refute : ¬∃ presses, presses ≠ [] ∧ ∀ n, presses.length ≤ n →
        landing ((render S.screen)^[n] (pressAll app presses)) S.bufferId ≠
          landing (pressEach S.screen app presses) S.bufferId := by
      rintro ⟨presses, some_, differ⟩
      exact differ _ (Nat.le_refl _) (agree presses some_ _ (Nat.le_refl _)).2
    exact ⟨fun drops => refute (dropsShown_diverge viewed drops),
      fun drops => refute (dropsApart_diverge viewed drops),
      fun drops => refute (dropsDrawn_diverge viewed drops)⟩
  · rintro ⟨shown, apart, drawn⟩ presses some_ frames enough
    have both : ∃ seen, S.Ends ((render S.screen)^[frames] (pressAll app presses)) seen ∧
        S.Ends (pressEach S.screen app presses) seen := by
      by_cases starts : ∃ place, S.Begins app messages place
      · obtain ⟨place, begins⟩ := starts
        refine ⟨_, ?_, known_each (viewed.follows begins) some_⟩
        by_cases away : S.Away app
        · exact known_away_agree viewed begins away apart some_ enough
        · exact known_live_agree viewed begins away shown some_ enough
      · have none_ := not_exists.mp starts
        refine ⟨_, unknown_agree viewed none_ apart some_ enough,
          unknown_each viewed none_ (fun live pinned stale => ?_) some_⟩
        rw [nextOffset_eq_zero viewed.holds viewed.loaded] at live
        exact drawn ⟨stale, pinned, none_, live⟩
    obtain ⟨seen, together, single⟩ := both
    rw [together.landing.1, single.landing.1]
    exact ⟨together.landing.2, rfl⟩

def oneRow : Screen Unit := plainScreen 1 1 (by decide)

/-- One highlight, among the oldest. -/
def fourMessages : List Message :=
  [plainMessage 1 false, plainMessage 2 true, plainMessage 3 false, plainMessage 4 false]

/-- A channel with more history loaded than its limit lets stay. -/
def pastLimit : ChatApp := plainApp 2 fourMessages

/-- Drawn, and then scrolled to the top; the next frame has yet to show it. -/
def scrolledUp (app : ChatApp) : ChatApp :=
  { (renderOnce oneRow app).app with scrollOffset := 100 }

def pastLimitSetting : Setting Unit where
  screen := oneRow
  bufferId := "net/#chan".toList
  bufferType := .channel
  limit := 2
  logBrowserMode := false
  bareDisplay := false
  webHistoryBuffers := []
  chat := by decide
  wide := by decide
  tall := by decide

/-- Once it is pinned, as scrolling by pages does, the seeks end alike. -/
theorem pressAll_landing_iff_pinned :
    pastLimitSetting.Steady (scrolledUp (pinActiveBacklog pastLimit)) fourMessages true ∧
    landing ((render oneRow)^[3]
        (pressAll (scrolledUp (pinActiveBacklog pastLimit)) [.next, .next, .previous]))
        "net/#chan".toList =
      landing (pressEach oneRow (scrolledUp (pinActiveBacklog pastLimit)) [.next, .next, .previous])
        "net/#chan".toList := by
  have loaded : pastLimitSetting.Loaded fourMessages := ⟨by decide, by decide⟩
  have opened : pastLimitSetting.Holds pastLimit fourMessages false :=
    ⟨rfl, ⟨_, rfl, rfl, rfl, rfl⟩, rfl, rfl, rfl, rfl⟩
  have viewed := (renderOnce_drawn opened.pin loaded).viewed (renderOnce_holds opened.pin loaded)
    loaded (fun seek kept => by cases kept) 100
  have fresh : ¬pastLimitSetting.Stale fourMessages := fun stale => absurd stale.2.1 (by decide)
  have steady : pastLimitSetting.Steady (scrolledUp (pinActiveBacklog pastLimit)) fourMessages true :=
    ⟨fun drops => fresh drops.1, fun drops => Bool.noConfusion drops.1.2.1, fun drops => fresh drops.1⟩
  exact ⟨steady, ((pressAll_landing_iff pastLimitSetting viewed).mpr steady [.next, .next, .previous]
    (by decide) 3 (by decide)).2⟩

/-- Unpinned, the seeks that wait together find a highlight that single ones have dropped. -/
theorem seeks_apart :
    landing ((render oneRow)^[3] (pressAll (scrolledUp pastLimit) [.next, .next, .previous]))
        "net/#chan".toList = .highlight 2 ∧
      landing (pressEach oneRow (scrolledUp pastLimit) [.next, .next, .previous])
        "net/#chan".toList = .offset 0 := by
  decide +kernel

end Repartee.App
