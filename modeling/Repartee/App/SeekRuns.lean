import Repartee.App.SeekFrames

/-!
Seeks pressed before a frame, and seeks pressed with a redraw after each: both follow the standing
of the view.
-/

namespace Repartee.App

open Text Lib State Ui

variable {ρ : Type} [Inhabited ρ] (S : Setting ρ)

/-- The scroll offset is one that frames keep. -/
structure Setting.Reaches (app : ChatApp) (messages : List Message) : Prop where
  room : app.scrollOffset ≤ (S.full messages).length - S.screen.height
  extent : app.scrollOffset = 0 ∨
    ∃ extent, app.chatLineExtent = some (S.bufferId, extent) ∧ app.scrollOffset ≤ extent

/-- No seek is at work: there is none, or the view was moved since it was shown. -/
def Setting.Unsought (app : ChatApp) : Prop :=
  ∀ seek ∈ app.highlightSeek, seek.isPending = false ∧
    seek.valid S.bufferId app.scrollOffset = false

/-- Nothing waits for a frame, and the view is where the standing says. -/
inductive Setting.Rested (app : ChatApp) : Standing → Prop
  | view {messages : List Message} {pinned : Bool} {offset : Nat}
      (holds : S.Holds app messages pinned) (loaded : S.Loaded messages)
      (reaches : S.Reaches app messages) (unsought : S.Unsought app)
      (scroll : app.scrollOffset = offset) :
      Setting.Rested app ⟨messages, pinned, .view offset⟩
  | on {messages : List Message} {pinned : Bool} {index : Nat} {message : Message}
      (holds : S.Holds app messages pinned) (loaded : S.Loaded messages)
      (here : messages[index]? = some message) (reaches : S.Reaches app messages)
      (shown : app.highlightSeek =
        some ⟨S.bufferId, app.scrollOffset, .shown message.rest.id⟩) :
      Setting.Rested app ⟨messages, pinned, .on index⟩

section Rest

variable {S} {app : ChatApp} {messages : List Message} {pinned : Bool} {st : Standing}

omit [Inhabited ρ] in
theorem valid_iff {seek : HighlightSeek} {bufferId : Str} {offset : Nat} :
    seek.valid bufferId offset = true ↔ seek.bufferId = bufferId ∧ seek.offset = offset := by
  simp [HighlightSeek.valid]

omit [Inhabited ρ] in
theorem unsought_filter (unsought : S.Unsought app) :
    app.highlightSeek.filter (fun seek => seek.valid S.bufferId app.scrollOffset) = none := by
  rw [Option.filter_eq_none_iff]
  intro seek kept
  rw [(unsought seek kept).2]
  exact Bool.false_ne_true

/-- A view at rest is seen where it stands. -/
theorem Setting.Rested.landing (rested : S.Rested app st) :
    landing app S.bufferId = st.landing := by
  cases rested with
  | view holds loaded reaches unsought scroll =>
      rw [App.landing, unsought_filter unsought]
      exact congrArg Landing.offset scroll
  | @on messages pinned index message holds loaded here reaches shown =>
      have valid : (⟨S.bufferId, app.scrollOffset, .shown message.rest.id⟩ : HighlightSeek).valid
          S.bufferId app.scrollOffset = true := valid_iff.mpr ⟨rfl, rfl⟩
      rw [App.landing, shown, Option.filter_some, if_pos valid]
      simp only [Standing.landing, here]

theorem Setting.Drawn.reaches (drawn : S.Drawn app messages) : S.Reaches app messages :=
  ⟨drawn.room, .inr drawn.extent⟩

/-- Where nothing is deferred, drawing once is all there is to a frame. -/
theorem render_eq (settled : ∀ seek ∈ (renderOnce S.screen app).app.highlightSeek,
    seek.isDeferred = false) : render S.screen app = (renderOnce S.screen app).app := by
  have still : resolveDeferredSeek (renderOnce S.screen app).app =
      (false, (renderOnce S.screen app).app) := by
    unfold resolveDeferredSeek
    split
    · rename_i waits
      have none_ := settled _ waits
      cases none_
    · rfl
  rw [render, resolvePasses, still]
  rfl

theorem Setting.Rested.settled (rested : S.Rested app st) :
    ∀ seek ∈ app.highlightSeek, seek.isPending = false := by
  cases rested with
  | view holds loaded reaches unsought scroll => exact fun seek kept => (unsought seek kept).1
  | on holds loaded here reaches shown =>
      intro seek kept
      rw [shown] at kept
      cases kept
      rfl

theorem render_settled (holds : S.Holds app messages pinned) (loaded : S.Loaded messages)
    (settled : ∀ seek ∈ app.highlightSeek, seek.isPending = false) :
    render S.screen app = (renderOnce S.screen app).app := by
  apply render_eq
  rw [renderOnce_settled holds loaded settled]
  intro seek member
  have settled := settled seek member
  cases state : seek.state with
  | deferred queue => simp [HighlightSeek.isPending, state] at settled
  | pending id => simp [HighlightSeek.isDeferred, state]
  | shown id => simp [HighlightSeek.isDeferred, state]

/-- A frame of a view at rest draws the same view. -/
theorem frame_of_settled (holds : S.Holds app messages pinned) (loaded : S.Loaded messages)
    (settled : ∀ seek ∈ app.highlightSeek, seek.isPending = false)
    (reaches : S.Reaches app messages) :
    S.Holds (render S.screen app) messages pinned ∧ S.Drawn (render S.screen app) messages ∧
      (render S.screen app).scrollOffset = app.scrollOffset ∧
      (render S.screen app).highlightSeek = app.highlightSeek := by
  have kept := renderOnce_settled holds loaded settled
  have once := render_settled holds loaded settled
  rw [once]
  exact ⟨renderOnce_holds holds loaded, renderOnce_drawn holds loaded,
    renderOnce_rests holds loaded (idle_of_settled settled S.bufferId) reaches.room reaches.extent,
    kept⟩

/-- A frame of a view at rest leaves it where it is, with its rows on the screen. -/
theorem Setting.Rested.frame (rested : S.Rested app st) :
    S.Rested (render S.screen app) st ∧ S.Drawn (render S.screen app) st.messages := by
  have settled := rested.settled
  cases rested with
  | view holds loaded reaches unsought scroll =>
      obtain ⟨holds_, drawn, same, seek⟩ := frame_of_settled holds loaded settled reaches
      refine ⟨.view holds_ loaded drawn.reaches ?_ (same.trans scroll), drawn⟩
      rw [Setting.Unsought, seek, same]
      exact unsought
  | on holds loaded here reaches shown =>
      obtain ⟨holds_, drawn, same, seek⟩ := frame_of_settled holds loaded settled reaches
      refine ⟨.on holds_ loaded here drawn.reaches ?_, drawn⟩
      rw [seek, same]
      exact shown

theorem Setting.Rested.once (rested : S.Rested app st) :
    render S.screen app = (renderOnce S.screen app).app := by
  have settled := rested.settled
  cases rested with
  | view holds loaded reaches unsought scroll => exact render_settled holds loaded settled
  | on holds loaded here reaches shown => exact render_settled holds loaded settled

/-- The frame after a seek to a message shows it. -/
theorem pending_frame (holds : S.Holds app messages pinned) (loaded : S.Loaded messages)
    {index : Nat} {message : Message} (here : messages[index]? = some message)
    (sought : app.highlightSeek =
      some ⟨S.bufferId, app.scrollOffset, .pending message.rest.id⟩) :
    render S.screen app = (renderOnce S.screen app).app ∧
      S.Rested (renderOnce S.screen app).app ⟨messages, pinned, .on index⟩ ∧
      S.Drawn (renderOnce S.screen app).app messages := by
  have placed := renderOnce_pending holds loaded here sought
  have drawn := renderOnce_drawn holds loaded
  refine ⟨render_eq ?_, .on (renderOnce_holds holds loaded) loaded here drawn.reaches ?_, drawn⟩
  · rw [placed.2]
    intro seek kept
    cases kept
    rfl
  · rw [placed.1, placed.2]

/-- Back at the live end, before the frame that shows it. -/
theorem returnLive_rested (holds : S.Holds app messages pinned) (loaded : S.Loaded messages)
    (place : Place) :
    S.Rested (returnLive app) (S.returned ⟨messages, pinned, place⟩) := by
  have there := holds.returnLive place
  have loaded_ : S.Loaded (S.returned ⟨messages, pinned, place⟩).messages := returned_loaded loaded
  have same := returnLive_eq app
  have scroll : (returnLive app).scrollOffset = 0 := by rw [same]
  have live := returned_place (S := S) ⟨messages, pinned, place⟩
  generalize S.returned ⟨messages, pinned, place⟩ = st at *
  obtain ⟨held, pin, place⟩ := st
  simp only at live
  subst live
  refine .view there loaded_ ⟨?_, .inl scroll⟩ ?_ scroll
  · rw [scroll]
    exact Nat.zero_le _
  · intro seek kept
    rw [same] at kept
    cases kept

end Rest

/-- The rows on the screen are taken for current, and seeks from them lead where they would from
the rows a redraw gives. -/
def Setting.Current (app : ChatApp) (messages : List Message) (offset : Nat) : Prop :=
  ∃ rows, app.chatRows = some rows ∧ rows.renderedAt S.bufferId offset = true ∧
    ∀ direction, outcome messages (viewPosition rows S.bufferId messages) direction =
      outcome messages (S.edges messages offset) direction

/-- A seek pressed now is applied at once. -/
inductive Setting.Follows (app : ChatApp) : Standing → Prop
  | view {messages : List Message} {pinned : Bool} {offset : Nat}
      (rested : S.Rested app ⟨messages, pinned, .view offset⟩)
      (current : S.Current app messages offset) : Setting.Follows app ⟨messages, pinned, .view offset⟩
  | on {messages : List Message} {pinned : Bool} {index : Nat} {message : Message}
      {state : SeekState} (holds : S.Holds app messages pinned) (loaded : S.Loaded messages)
      (here : messages[index]? = some message)
      (sought : app.highlightSeek = some ⟨S.bufferId, app.scrollOffset, state⟩)
      (names : state = .pending message.rest.id ∨ state = .shown message.rest.id) :
      Setting.Follows app ⟨messages, pinned, .on index⟩

section Press

variable {S} {app : ChatApp} {messages : List Message} {pinned : Bool} {st : Standing}
  {direction : SeekDirection}

theorem Setting.Follows.loaded (follows : S.Follows app st) : S.Loaded st.messages := by
  cases follows with
  | view rested current =>
      cases rested with
      | view holds loaded reaches unsought scroll => exact loaded
  | on holds loaded here sought names => exact loaded

/-- After its frame a view is ready for the next seek. -/
theorem Setting.Rested.follows (rested : S.Rested app st) (drawn : S.Drawn app st.messages) :
    S.Follows app st := by
  cases rested with
  | @view messages pinned offset holds loaded reaches unsought scroll =>
      obtain ⟨rows, kept, buffer, at_, shows_⟩ := drawn.rows
      refine .view (.view holds loaded reaches unsought scroll) ⟨rows, kept, ?_, fun direction => ?_⟩
      · exact ChatRows.renderedAt_iff.mpr ⟨buffer, at_.trans scroll⟩
      · rw [viewPosition_rows buffer shows_, scroll]
        rfl
  | on holds loaded here reaches shown => exact .on holds loaded here shown (.inr rfl)

theorem Setting.Follows.holds (follows : S.Follows app st) :
    S.Holds app st.messages st.pinned := by
  cases follows with
  | view rested current =>
      cases rested with
      | view holds loaded reaches unsought scroll => exact holds
  | on holds loaded here sought names => exact holds

/-- At rest the next seek starts from the rows on the screen, if they are taken for current. -/
theorem rested_start {offset : Nat} (rested : S.Rested app ⟨messages, pinned, .view offset⟩)
    {rows : ChatRows} (kept : app.chatRows = some rows)
    (at_ : rows.renderedAt S.bufferId offset = true) (direction : SeekDirection) :
    seekHighlight direction app =
      runSeeks app (viewPosition rows S.bufferId messages) [direction] := by
  cases rested with
  | view holds loaded reaches unsought scroll =>
      obtain ⟨buffer, active, rfl, kind⟩ := holds.shown
      have fresh : app.chatRows.filter (fun rows =>
          rows.renderedAt S.bufferId app.scrollOffset) = some rows := by
        rw [kept, Option.filter_some, scroll, if_pos at_]
      have chat : buffer.bufferType ≠ .shell := kind ▸ S.chat
      simp only [seekHighlight, active, chat, if_false, deferredQueue, unsought_filter unsought,
        seekStart, fresh, Option.map_some]

/-- Where the seek starts. -/
theorem Setting.Follows.start (follows : S.Follows app st) (direction : SeekDirection) :
    ∃ start, seekHighlight direction app = runSeeks app start [direction] ∧ start ≠ .live ∧
      (∀ i, start = .at_ i → i < st.messages.length) ∧
      (app.highlightSeek.any HighlightSeek.isDeferred = false) ∧
      ∀ direction, outcome st.messages start direction =
        outcome st.messages (S.position st) direction := by
  cases follows with
  | @view messages pinned offset rested current =>
      obtain ⟨rows, kept, at_, same⟩ := current
      refine ⟨viewPosition rows S.bufferId messages, rested_start rested kept at_ direction,
        SeekPosition.noConfusion, fun i => SeekPosition.noConfusion, ?_, same⟩
      rw [Option.any_eq_false]
      intro seek member
      have settled := rested.settled seek member
      cases state : seek.state with
      | deferred queue => simp [HighlightSeek.isPending, state] at settled
      | pending id => simp [HighlightSeek.isDeferred, state]
      | shown id => simp [HighlightSeek.isDeferred, state]
  | @on messages pinned index message state holds loaded here sought names =>
      obtain ⟨buffer, active, rfl, kind⟩ := holds.shown
      have valid : app.highlightSeek.filter (fun seek => seek.valid S.bufferId app.scrollOffset) =
          some ⟨S.bufferId, app.scrollOffset, state⟩ := by
        rw [sought, Option.filter_some, if_pos (valid_iff.mpr ⟨rfl, rfl⟩)]
      have found := indexOf_eq_some loaded.distinct here
      have chat : buffer.bufferType ≠ .shell := kind ▸ S.chat
      refine ⟨.at_ index, ?_, SeekPosition.noConfusion, ?_, ?_, fun _ => rfl⟩
      · rcases names with rfl | rfl
        · simp only [seekHighlight, active, chat, if_false, deferredQueue, valid, seekStart, found,
            Option.map_some]
        · simp only [seekHighlight, active, chat, if_false, deferredQueue, valid, seekStart, found,
            Option.map_some]
      · intro i same
        cases same
        exact (List.getElem?_eq_some_iff.mp here).1
      · rw [sought, Option.any_some]
        rcases names with rfl | rfl <;> rfl

omit [Inhabited ρ] S in
theorem advance_single {start : SeekPosition} (known : start ≠ .live) :
    advance messages start [direction] = ((advance messages start [direction]).1, []) := by
  conv_lhs => rw [advance_cons known, advance_nil]

theorem press_stays (follows : S.Follows app st)
    (stays : outcome st.messages (S.position st) direction = .stays) :
    seekHighlight direction app = app := by
  obtain ⟨start, pressed, known, -, settled, same⟩ := follows.start direction
  rw [← same] at stays
  cases start with
  | live => exact absurd rfl known
  | at_ index => exact absurd stays outcome_at_ne_stays
  | view top bottom =>
      have ends := @advance_single st.messages direction _ known
      rw [advance_stays stays] at ends
      rw [pressed, runSeeks_view follows.holds ends, settled]
      rfl

theorem press_lands (follows : S.Follows app st) {index : Nat}
    (lands : outcome st.messages (S.position st) direction = .lands index) :
    ∃ message, st.messages[index]? = some message ∧
      seekHighlight direction app =
        { pinActiveBacklog app with
          highlightSeek := some ⟨S.bufferId, app.scrollOffset, .pending message.rest.id⟩ } ∧
      S.press st direction = ⟨st.messages, st.pinned || S.pins, .on index⟩ := by
  obtain ⟨start, pressed, known, inside, -, same⟩ := follows.start direction
  have moved : S.press st direction = ⟨st.messages, st.pinned || S.pins, .on index⟩ := by
    simp only [Setting.press, Setting.move, lands]
  rw [← same] at lands
  have there := List.getElem?_eq_getElem (lands_inside inside lands)
  have ends := @advance_single st.messages direction _ known
  rw [advance_lands lands] at ends
  exact ⟨_, there, by rw [pressed, runSeeks_at follows.holds ends there], moved⟩

theorem press_live (follows : S.Follows app st)
    (live : outcome st.messages (S.position st) direction = .live) :
    seekHighlight direction app = returnLive app ∧ S.press st direction = S.returned st := by
  obtain ⟨start, pressed, known, -, -, same⟩ := follows.start direction
  have moved : S.press st direction = S.returned st := by
    simp only [Setting.press, Setting.move, live]
  rw [← same] at live
  have ends := @advance_single st.messages direction _ known
  rw [advance_live live] at ends
  exact ⟨by rw [pressed, runSeeks_live follows.holds ends]; rfl, moved⟩

/-- Where a press lands, the next one starts. -/
theorem pending_follows (holds : S.Holds app st.messages st.pinned) (loaded : S.Loaded st.messages)
    {index : Nat} {message : Message} (here : st.messages[index]? = some message) :
    S.Follows { pinActiveBacklog app with
        highlightSeek := some ⟨S.bufferId, app.scrollOffset, .pending message.rest.id⟩ }
      ⟨st.messages, st.pinned || S.pins, .on index⟩ := by
  have pinned := holds.pin
  have same := pinActiveBacklog_eq app
  refine .on ⟨pinned.active, pinned.buffer, pinned.limit, pinned.logBrowser, pinned.bare, pinned.web⟩
    loaded here ?_ (.inl rfl)
  rw [same]

/-- One press and its redraw. -/
theorem press_frame (follows : S.Follows app st) (direction : SeekDirection) :
    S.Rested (render S.screen (seekHighlight direction app)) (S.press st direction) ∧
      S.Drawn (render S.screen (seekHighlight direction app)) (S.press st direction).messages := by
  cases reached : outcome st.messages (S.position st) direction with
  | stays =>
      have moved : S.press st direction = st := by
        simp only [Setting.press, Setting.move, reached]
      rw [press_stays follows reached, moved]
      cases follows with
      | view rested current => exact rested.frame
      | on holds loaded here sought names => exact absurd reached outcome_at_ne_stays
  | lands index =>
      obtain ⟨message, here, pressed, moved⟩ := press_lands follows reached
      have ready := pending_follows follows.holds follows.loaded here
      rw [pressed, moved]
      cases ready with
      | on holds loaded there sought names =>
          have framed := pending_frame holds loaded here (by rw [pinActiveBacklog_eq app])
          rw [framed.1]
          exact framed.2
  | live =>
      obtain ⟨pressed, moved⟩ := press_live follows reached
      rw [pressed, moved]
      exact (returnLive_rested follows.holds follows.loaded st.place).frame

/-- Seeks with a redraw after each follow the standing. -/
theorem pressEach_follows (follows : S.Follows app st) (presses : List SeekDirection) :
    S.Follows (pressEach S.screen app presses) (S.moves S.pins st presses) ∧
      (presses ≠ [] → S.Rested (pressEach S.screen app presses) (S.moves S.pins st presses)) := by
  induction presses generalizing app st with
  | nil => exact ⟨follows, fun absurd_ => absurd rfl absurd_⟩
  | cons direction rest ih =>
      obtain ⟨rested, drawn⟩ := press_frame follows direction
      have later := ih (rested.follows drawn)
      refine ⟨later.1, fun _ => ?_⟩
      cases rest with
      | nil => exact rested
      | cons second more => exact later.2 (List.cons_ne_nil _ _)

end Press

end Repartee.App
