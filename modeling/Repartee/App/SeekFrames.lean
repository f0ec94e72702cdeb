import Repartee.App.SeekTwins

/-!
The application while it is sought in: what a press does to it, what a frame does to it, and how
both follow the standing of the view.
-/

namespace Repartee.App

open Text Lib State Ui

variable {ρ : Type} [Inhabited ρ] (S : Setting ρ)

/-- The application shows the conversation, with these messages loaded. -/
structure Setting.Holds (app : ChatApp) (messages : List Message) (pinned : Bool) : Prop where
  active : app.state.activeBufferId = some S.bufferId
  buffer : ∃ buffer, app.state.buffers.get? S.bufferId = some buffer ∧ buffer.messages = messages ∧
    buffer.pinBacklog = pinned ∧ buffer.bufferType = S.bufferType
  limit : app.state.scrollbackLimit = S.limit
  logBrowser : app.logBrowserMode = S.logBrowserMode
  bare : app.bareDisplay = S.bareDisplay
  web : app.webHistoryBuffers = S.webHistoryBuffers

section Backlog

variable {S} {app : ChatApp} {messages : List Message} {pinned : Bool}

omit [Inhabited ρ] in
theorem Setting.Holds.shown (holds : S.Holds app messages pinned) :
    ∃ buffer, app.activeBuffer = some (S.bufferId, buffer) ∧ buffer.messages = messages ∧
      buffer.bufferType = S.bufferType := by
  obtain ⟨buffer, found, rows, -, kind⟩ := holds.buffer
  refine ⟨buffer, ?_, rows, kind⟩
  rw [ChatApp.activeBuffer, holds.active, Option.bind_some, found, Option.map_some]

theorem Setting.Holds.drawable (holds : S.Holds app messages pinned) (loaded : S.Loaded messages) :
    ∃ buffer, Drawable S.screen app S.bufferId buffer ∧ buffer.messages = messages := by
  obtain ⟨buffer, active, rows, kind⟩ := holds.shown
  refine ⟨buffer, ⟨active, ?_, S.wide, S.tall, ?_⟩, rows⟩
  · rw [kind]
    exact S.chat
  · rw [rows]
    exact loaded.fits

/-- Pinning the backlog changes nothing else. -/
theorem pinActiveBacklog_eq (app : ChatApp) :
    pinActiveBacklog app = { app with state := (pinActiveBacklog app).state } := by
  unfold pinActiveBacklog
  split
  · rfl
  · split
    · split <;> rfl
    · rfl

omit [Inhabited ρ] in
theorem Setting.Holds.adjust (holds : S.Holds app messages pinned) (f : State.Buffer → State.Buffer)
    (kept : List Message) (pin : Bool)
    (changes : ∀ buffer : State.Buffer, buffer.messages = messages → buffer.pinBacklog = pinned →
      (f buffer).messages = kept ∧ (f buffer).pinBacklog = pin ∧
        (f buffer).bufferType = buffer.bufferType) :
    S.Holds { app with state := app.state.adjustBuffer S.bufferId f } kept pin := by
  obtain ⟨buffer, found, rows, held, kind⟩ := holds.buffer
  obtain ⟨rows_, pin_, kind_⟩ := changes buffer rows held
  refine ⟨holds.active, ⟨f buffer, ?_, rows_, pin_, kind_.trans kind⟩, holds.limit,
    holds.logBrowser, holds.bare, holds.web⟩
  simp only [AppState.adjustBuffer, Map.get?_adjust, if_true, found, Option.map_some]

omit [Inhabited ρ] in
theorem Setting.Holds.pin (holds : S.Holds app messages pinned) :
    S.Holds (pinActiveBacklog app) messages (pinned || S.pins) := by
  obtain ⟨buffer, active, -, kind⟩ := holds.shown
  have same : S.pins = false → S.Holds app messages (pinned || S.pins) := by
    intro none_
    rw [none_, Bool.or_false]
    exact holds
  unfold pinActiveBacklog
  by_cases log : app.logBrowserMode = true
  · rw [if_pos log]
    apply same
    rw [Setting.pins, ← holds.logBrowser, log]
    rfl
  · rw [if_neg log, active]
    simp only [kind]
    have pins : S.pins = pinsBacklog S.bufferType := by
      rw [Setting.pins, ← holds.logBrowser, Bool.eq_false_iff.mpr log]
      rfl
    split
    · rename_i chat
      rw [pins, chat, Bool.or_true]
      exact holds.adjust (fun buffer => { buffer with pinBacklog := true }) messages true
        fun buffer rows _ => ⟨rows, rfl, rfl⟩
    · rename_i other
      exact same (by rw [pins, Bool.eq_false_iff.mpr other])

omit [Inhabited ρ] in
/-- A return to the live end drops what the standing says it does. -/
theorem Setting.Holds.collapse (holds : S.Holds app messages pinned) (live : app.scrollOffset = 0)
    (unsought : app.highlightSeek = none) (place : Place) :
    S.Holds (collapseBacklogIfAtBottom app) (S.returned ⟨messages, pinned, place⟩).messages
      (S.returned ⟨messages, pinned, place⟩).pinned := by
  have stays : S.collapses = false → S.Holds app (S.returned ⟨messages, pinned, place⟩).messages
      (S.returned ⟨messages, pinned, place⟩).pinned := by
    intro off
    simp only [Setting.returned, off, Bool.false_and, Bool.false_eq_true, if_false]
    exact holds
  unfold collapseBacklogIfAtBottom
  split
  · rename_i kept
    apply stays
    rw [live, unsought, holds.logBrowser, holds.bare] at kept
    have off : S.logBrowserMode = true ∨ S.bareDisplay = true := by simpa using kept
    rcases off with off | off <;> simp [Setting.collapses, off]
  · rename_i kept
    rw [live, unsought, holds.logBrowser, holds.bare] at kept
    simp only [ne_eq, not_true_eq_false, false_or, Option.any_none, Bool.false_eq_true, or_false,
      not_or, Bool.not_eq_true] at kept
    rw [holds.active]
    simp only [collapseBufferBacklog]
    split
    · rename_i web
      rw [holds.web] at web
      exact stays (by simp only [Setting.collapses, web, Bool.not_true, Bool.and_false])
    · rename_i web
      rw [holds.web, Bool.not_eq_true] at web
      have on : S.collapses = true := by
        simp only [Setting.collapses, kept.1, kept.2, web, Bool.not_false, Bool.and_true]
      apply holds.adjust
      rintro buffer rfl rfl
      simp only [Setting.returned, on, Bool.true_and, holds.limit]
      cases pinned : buffer.pinBacklog with
      | true => exact ⟨rfl, rfl, rfl⟩
      | false => exact ⟨rfl, pinned, rfl⟩

/-- A collapse changes nothing else. -/
theorem collapseBacklogIfAtBottom_eq (app : ChatApp) :
    collapseBacklogIfAtBottom app = { app with state := (collapseBacklogIfAtBottom app).state } := by
  unfold collapseBacklogIfAtBottom
  split
  · rfl
  · split
    · unfold collapseBufferBacklog
      split <;> rfl
    · rfl

end Backlog

section Running

variable {S} {app : ChatApp} {messages : List Message} {pinned : Bool} {start : SeekPosition}
  {queue left : List SeekDirection}

omit [Inhabited ρ] in
theorem runSeeks_view (holds : S.Holds app messages pinned) {top bottom : Option Nat}
    (ends : advance messages start queue = (.view top bottom, left)) :
    runSeeks app start queue =
      if app.highlightSeek.any HighlightSeek.isDeferred then { app with highlightSeek := none }
      else app := by
  obtain ⟨buffer, active, rfl, -⟩ := holds.shown
  simp only [runSeeks, active, ends]

omit [Inhabited ρ] in
theorem runSeeks_at (holds : S.Holds app messages pinned) {index : Nat}
    (ends : advance messages start queue = (.at_ index, left)) {message : Message}
    (here : messages[index]? = some message) :
    runSeeks app start queue =
      { pinActiveBacklog app with
        highlightSeek := some ⟨S.bufferId, app.scrollOffset, .pending message.rest.id⟩ } := by
  obtain ⟨buffer, active, rfl, -⟩ := holds.shown
  simp only [runSeeks, active, ends, here]

/-- The application at the live end, before the frame that shows it. -/
def returnLive (app : ChatApp) : ChatApp :=
  collapseBacklogIfAtBottom { app with highlightSeek := none, scrollOffset := 0 }

omit [Inhabited ρ] in
theorem runSeeks_live (holds : S.Holds app messages pinned)
    (ends : advance messages start queue = (.live, left)) :
    runSeeks app start queue =
      if left.isEmpty then returnLive app else deferSeeks (returnLive app) S.bufferId left := by
  obtain ⟨buffer, active, rfl, -⟩ := holds.shown
  simp only [runSeeks, active, ends, returnLive]

theorem returnLive_eq (app : ChatApp) :
    returnLive app =
      { app with highlightSeek := none, scrollOffset := 0, state := (returnLive app).state } :=
  collapseBacklogIfAtBottom_eq _

omit [Inhabited ρ] in
theorem Setting.Holds.returnLive (holds : S.Holds app messages pinned) (place : Place) :
    S.Holds (returnLive app) (S.returned ⟨messages, pinned, place⟩).messages
      (S.returned ⟨messages, pinned, place⟩).pinned := by
  have there : S.Holds { app with highlightSeek := none, scrollOffset := 0 } messages pinned :=
    ⟨holds.active, holds.buffer, holds.limit, holds.logBrowser, holds.bare, holds.web⟩
  exact there.collapse rfl rfl place

/-- A seek lands on a message. -/
theorem lands_inside {index : Nat} {direction : SeekDirection}
    (known : ∀ i, start = .at_ i → i < messages.length)
    (lands : outcome messages start direction = .lands index) : index < messages.length := by
  cases direction with
  | next => exact lands_lt lands
  | previous =>
      cases start with
      | live => cases lands
      | at_ i =>
          rw [outcome_at_previous] at lands
          cases near : nearestHighlight messages .previous (some i) with
          | none =>
              rw [near] at lands
              cases lands
              exact known i rfl
          | some j =>
              rw [near] at lands
              cases lands
              exact highlightAt_lt (nearestHighlight_previous_eq_some.mp near).2.1
      | view top bottom =>
          rw [outcome_view_previous] at lands
          cases near : nearestHighlight messages .previous top with
          | none => simp [near] at lands
          | some j =>
              rw [near] at lands
              cases lands
              cases top with
              | none =>
                  rw [nearestHighlight_previous_none] at near
                  exact highlightAt_lt (nearestHighlight_previous_eq_some.mp near).2.1
              | some i => exact highlightAt_lt (nearestHighlight_previous_eq_some.mp near).2.1

end Running

/-- What every frame leaves: rows that are current, and an extent that reaches behind them. -/
structure Setting.Drawn (app : ChatApp) (messages : List Message) : Prop where
  rows : ∃ rows, app.chatRows = some rows ∧ rows.bufferId = S.bufferId ∧
    rows.scrollOffset = app.scrollOffset ∧ rows.rows.map Prod.fst = S.rowsAt messages app.scrollOffset
  room : app.scrollOffset ≤ (S.full messages).length - S.screen.height
  extent : ∃ extent, app.chatLineExtent = some (S.bufferId, extent) ∧ app.scrollOffset ≤ extent

section Frame

variable {S} {app : ChatApp} {messages drawn : List Message} {pinned : Bool} {offset : Nat}

omit [Inhabited ρ] in
theorem ChatRows.renderedAt_iff {rows : ChatRows} {bufferId : Str} :
    rows.renderedAt bufferId offset = true ↔ rows.bufferId = bufferId ∧ rows.scrollOffset = offset := by
  simp [Ui.ChatRows.renderedAt]

/-- The edges of the rows on the screen. -/
theorem viewPosition_rows {rows : ChatRows} (buffer : rows.bufferId = S.bufferId)
    (shows_ : rows.rows.map Prod.fst = S.rowsAt drawn offset) :
    viewPosition rows S.bufferId messages = S.edgesIn drawn messages offset := by
  simp only [viewPosition, Ui.ChatRows.topMessage, Ui.ChatRows.bottomMessage, buffer, if_true,
    Setting.edgesIn, ← shows_, List.head?_map, List.getLast?_map]

theorem renderOnce_holds (holds : S.Holds app messages pinned) (loaded : S.Loaded messages) :
    S.Holds (renderOnce S.screen app).app messages pinned := by
  obtain ⟨buffer, drawable, -⟩ := holds.drawable loaded
  rw [drawable.renderOnce]
  exact ⟨holds.active, holds.buffer, holds.limit, holds.logBrowser, holds.bare, holds.web⟩

theorem renderOnce_drawn (holds : S.Holds app messages pinned) (loaded : S.Loaded messages) :
    S.Drawn (renderOnce S.screen app).app messages := by
  obtain ⟨buffer, drawable, rfl⟩ := holds.drawable loaded
  rw [drawable.renderOnce]
  have slice := drawBuffer_slice S.screen
    { app with chatRows := none, chatScrollAtTop := false } loaded.fits
  have extent := drawBuffer_extent S.screen
    { app with chatRows := none, chatScrollAtTop := false } loaded.fits S.tall
  obtain ⟨extent, walked, reaches, -⟩ := extent
  refine ⟨⟨_, rfl, rfl, rfl, ?_⟩, slice.1, extent, walked, reaches⟩
  have shown : (drawBuffer S.screen { app with chatRows := none, chatScrollAtTop := false }
      S.bufferId buffer.messages).shown.map VisualRow.message = S.rowsAt buffer.messages
        (drawBuffer S.screen { app with chatRows := none, chatScrollAtTop := false }
          S.bufferId buffer.messages).app.scrollOffset := by
    rw [slice.2.1]
    rfl
  rw [← shown]
  simp only [drawBuffer, List.map_map]
  rfl

/-- A frame of a view at rest is the same view. -/
theorem renderOnce_rests (holds : S.Holds app messages pinned) (loaded : S.Loaded messages)
    (idle : seekTarget app S.bufferId messages = none)
    (room : app.scrollOffset ≤ (S.full messages).length - S.screen.height)
    (extent : app.scrollOffset = 0 ∨ ∃ extent, app.chatLineExtent = some (S.bufferId, extent) ∧
      app.scrollOffset ≤ extent) :
    (renderOnce S.screen app).app.scrollOffset = app.scrollOffset := by
  obtain ⟨buffer, drawable, rfl⟩ := holds.drawable loaded
  rw [drawable.renderOnce]
  have scroll := drawBuffer_scroll_idle S.screen
    { app with chatRows := none, chatScrollAtTop := false } idle
  simp only at scroll
  rcases extent with live | ⟨extent, walked, reaches⟩
  · rw [scroll, live, Nat.zero_min]
  · have slice := drawBuffer_slice S.screen
      { app with chatRows := none, chatScrollAtTop := false } loaded.fits
    have deeper := drawBuffer_deeper S.screen
      { app with chatRows := none, chatScrollAtTop := false } loaded.fits idle walked
    simp only at slice deeper
    rw [slice.2.2] at deeper
    have room_ : app.scrollOffset ≤
        (wrappedRows S.screen S.bufferId buffer.messages).length - S.screen.height := room
    omega

theorem seekAfter_deferred (bufferId : Str) (requested scroll : Nat) (queue : List SeekDirection) :
    seekAfter (some ⟨bufferId, requested, .deferred queue⟩) false requested scroll =
      some ⟨bufferId, scroll, .deferred queue⟩ := by
  simp [seekAfter, HighlightSeek.followClamp, HighlightSeek.isDeferred, HighlightSeek.isPending]

theorem seekAfter_pending (bufferId : Str) (offset requested scroll id : Nat) :
    seekAfter (some ⟨bufferId, offset, .pending id⟩) true requested scroll =
      some ⟨bufferId, scroll, .shown id⟩ := by
  simp [seekAfter, HighlightSeek.followClamp, HighlightSeek.isDeferred, HighlightSeek.shownAt]

theorem seekAfter_shown {seek : Option HighlightSeek}
    (settled : ∀ kept ∈ seek, kept.isPending = false) (requested scroll : Nat) :
    seekAfter seek false requested scroll = seek := by
  cases seek with
  | none => rfl
  | some kept =>
      obtain ⟨buffer, offset, state⟩ := kept
      have settled := settled _ rfl
      cases state with
      | deferred queue => cases settled
      | pending id => cases settled
      | shown id =>
          simp [seekAfter, HighlightSeek.followClamp, HighlightSeek.isDeferred,
            HighlightSeek.isPending]

/-- A frame keeps a seek that waits for it, and moves it with the view. -/
theorem renderOnce_deferred (holds : S.Holds app messages pinned) (loaded : S.Loaded messages)
    {queue : List SeekDirection}
    (waits : app.highlightSeek = some ⟨S.bufferId, app.scrollOffset, .deferred queue⟩) :
    (renderOnce S.screen app).app.highlightSeek =
      some ⟨S.bufferId, (renderOnce S.screen app).app.scrollOffset, .deferred queue⟩ := by
  obtain ⟨buffer, drawable, rfl⟩ := holds.drawable loaded
  have idle : seekTarget { app with chatRows := none, chatScrollAtTop := false } S.bufferId
      buffer.messages = none := by
    simp [seekTarget, waits, HighlightSeek.pendingTarget]
  rw [drawable.renderOnce, drawBuffer_seek, idle, requestedOffset_idle _ _ idle]
  simp only [waits]
  exact seekAfter_deferred _ _ _ _

theorem idle_of_settled (settled : ∀ seek ∈ app.highlightSeek, seek.isPending = false)
    (bufferId : Str) : seekTarget app bufferId messages = none := by
  rw [seekTarget]
  cases seek : app.highlightSeek with
  | none => rfl
  | some kept =>
      have none_ := HighlightSeek.pendingTarget_eq_none
        (by rw [settled kept seek, Bool.false_and]) bufferId app.scrollOffset
      rw [Option.bind_some, none_, Option.filter_none]

/-- A frame leaves alone a seek that has been shown. -/
theorem renderOnce_settled (holds : S.Holds app messages pinned) (loaded : S.Loaded messages)
    (settled : ∀ seek ∈ app.highlightSeek, seek.isPending = false) :
    (renderOnce S.screen app).app.highlightSeek = app.highlightSeek := by
  obtain ⟨buffer, drawable, rfl⟩ := holds.drawable loaded
  have idle : seekTarget { app with chatRows := none, chatScrollAtTop := false } S.bufferId
      buffer.messages = none := idle_of_settled settled S.bufferId
  rw [drawable.renderOnce, drawBuffer_seek, idle]
  exact seekAfter_shown settled _ _

/-- A frame places the message of a seek. -/
theorem renderOnce_pending (holds : S.Holds app messages pinned) (loaded : S.Loaded messages)
    {index : Nat} {message : Message} (here : messages[index]? = some message)
    (sought : app.highlightSeek =
      some ⟨S.bufferId, app.scrollOffset, .pending message.rest.id⟩) :
    (renderOnce S.screen app).app.scrollOffset =
        placedOffset S.screen S.bufferId messages index ∧
      (renderOnce S.screen app).app.highlightSeek =
        some ⟨S.bufferId, placedOffset S.screen S.bufferId messages index,
          .shown message.rest.id⟩ := by
  obtain ⟨buffer, drawable, rfl⟩ := holds.drawable loaded
  have target : seekTarget { app with chatRows := none, chatScrollAtTop := false } S.bufferId
      buffer.messages = some message.rest.id := by
    have listed : message ∈ buffer.messages := List.mem_of_getElem? here
    simp only [seekTarget, sought, Option.bind_some, HighlightSeek.pendingTarget,
      HighlightSeek.valid, beq_self_eq_true, Bool.and_self, if_true]
    rw [Option.filter_some, if_pos]
    exact List.any_eq_true.mpr ⟨message, listed, beq_self_eq_true _⟩
  have placed := drawBuffer_placed S.screen
    { app with chatRows := none, chatScrollAtTop := false } loaded.fits loaded.distinct here target
  rw [drawable.renderOnce]
  refine ⟨placed, ?_⟩
  rw [drawBuffer_seek, placed, target]
  simp only [sought]
  exact seekAfter_pending _ _ _ _ _

end Frame

end Repartee.App
