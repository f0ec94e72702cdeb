import Repartee.App.SeekQueues

/-!
Seeks pressed before a redraw against seeks pressed with a redraw after each: they end at the same
place unless a return to the live end drops messages while rows drawn before it are still in use,
or drops them for the ones and not for the others.
-/

namespace Repartee.App

open Text Lib State Ui

variable {ρ : Type} [Inhabited ρ] (S : Setting ρ)

/-- A conversation on the screen: no seek waits, and the rows of the last frame, if they are of this
conversation, show it as it is loaded. The view may have been scrolled since. -/
structure Setting.Viewed (app : ChatApp) (messages : List Message) (pinned : Bool) : Prop where
  holds : S.Holds app messages pinned
  loaded : S.Loaded messages
  settled : ∀ seek ∈ app.highlightSeek, seek.isPending = false
  rows : ∀ rows ∈ app.chatRows, rows.bufferId = S.bufferId →
    rows.rows.map Prod.fst = S.rowsAt messages rows.scrollOffset ∧
    rows.scrollOffset ≤ (S.full messages).length - S.screen.height ∧
    ∃ extent, app.chatLineExtent = some (S.bufferId, extent) ∧ rows.scrollOffset ≤ extent

/-- Where the first seek starts if it can be applied at once: at the highlight shown last, or at the
rows of the last frame. -/
inductive Setting.Begins (app : ChatApp) (messages : List Message) : Place → Prop
  | on {index id : Nat}
      (shown : app.highlightSeek = some ⟨S.bufferId, app.scrollOffset, .shown id⟩)
      (found : indexOf messages id = some index) : Setting.Begins app messages (.on index)
  | view {rows : ChatRows} (unsought : S.Unsought app) (kept : app.chatRows = some rows)
      (at_ : rows.renderedAt S.bufferId app.scrollOffset = true) :
      Setting.Begins app messages (.view app.scrollOffset)

/-- A return drops messages that the live view shows, and keeps a highlight: the rows drawn before
it mislead the seeks after it. -/
def Setting.Stale (messages : List Message) : Prop :=
  S.Over messages ∧ S.liveTop messages < S.excess messages ∧
    ∃ k, S.excess messages ≤ k ∧ highlightAt messages k = true

/-- There is no highlight below. -/
def Setting.Lowest (messages : List Message) : Place → Prop
  | .on index => ∀ k, index < k → highlightAt messages k = false
  | .view offset => ∀ bottom ∈ (S.rowsAt messages offset).getLast?.bind (indexOf messages),
      ∀ k, bottom < k → highlightAt messages k = false

section Views

variable {S} {app : ChatApp} {messages : List Message} {pinned : Bool} {place : Place}

/-- A frame gives such a view, and scrolling keeps it. -/
theorem Setting.Drawn.viewed (holds : S.Holds app messages pinned) (loaded : S.Loaded messages)
    (drawn : S.Drawn app messages) (settled : ∀ seek ∈ app.highlightSeek, seek.isPending = false)
    (offset : Nat) : S.Viewed { app with scrollOffset := offset } messages pinned := by
  refine ⟨⟨holds.active, holds.buffer, holds.limit, holds.logBrowser, holds.bare, holds.web⟩, loaded,
    settled, fun rows kept _ => ?_⟩
  obtain ⟨shown, kept_, -, at_, shows_⟩ := drawn.rows
  obtain rfl : shown = rows := Option.some.inj (kept_.symm.trans kept)
  rw [at_]
  exact ⟨shows_, drawn.room, drawn.extent⟩

omit [Inhabited ρ] in
theorem indexOf_found {id index : Nat} (found : indexOf messages id = some index) :
    ∃ message, messages[index]? = some message ∧ message.rest.id = id := by
  rw [indexOf, List.findIdx?_eq_some_iff_getElem] at found
  obtain ⟨inside, same, -⟩ := found
  exact ⟨_, List.getElem?_eq_getElem inside, beq_iff_eq.mp same⟩

theorem Setting.Viewed.follows (viewed : S.Viewed app messages pinned)
    (begins : S.Begins app messages place) : S.Follows app ⟨messages, pinned, place⟩ := by
  cases begins with
  | @on index id shown found =>
      obtain ⟨message, here, rfl⟩ := indexOf_found found
      exact .on viewed.holds viewed.loaded here shown (.inr rfl)
  | @view rows unsought kept at_ =>
      obtain ⟨buffer, same⟩ := ChatRows.renderedAt_iff.mp at_
      obtain ⟨shows_, room, extent⟩ := viewed.rows rows kept buffer
      rw [same] at shows_ room extent
      refine .view (.view viewed.holds viewed.loaded ⟨room, .inr extent⟩ unsought rfl)
        ⟨rows, kept, at_, fun direction => ?_⟩
      rw [viewPosition_rows buffer shows_]
      rfl

omit [Inhabited ρ] in
/-- Where nothing says where to start, the seeks wait. -/
theorem unknown_of_not_begins (settled : ∀ seek ∈ app.highlightSeek, seek.isPending = false)
    (none_ : ∀ place, ¬S.Begins app messages place) :
    seekStart app S.bufferId messages = none ∧ deferredQueue app S.bufferId = none := by
  cases valid : app.highlightSeek.filter (fun seek => seek.valid S.bufferId app.scrollOffset) with
  | some seek =>
      obtain ⟨kept, here⟩ := Option.filter_eq_some_iff.mp valid
      obtain ⟨buffer, offset, state⟩ := seek
      obtain ⟨rfl, rfl⟩ := valid_iff.mp here
      have settled := settled _ kept
      cases state with
      | deferred queue => cases settled
      | pending id => cases settled
      | shown id =>
          have gone : indexOf messages id = none := by
            by_contra found
            obtain ⟨index, found⟩ := Option.ne_none_iff_exists'.mp found
            exact none_ _ (.on kept found)
          simp only [seekStart, deferredQueue, valid, gone, Option.map_none, and_self]
  | none =>
      have unsought : S.Unsought app := by
        intro seek kept
        refine ⟨settled seek kept, Bool.eq_false_iff.mpr ?_⟩
        exact Option.filter_eq_none_iff.mp valid seek kept
      have rows : app.chatRows.filter (fun rows => rows.renderedAt S.bufferId app.scrollOffset) =
          none := by
        rw [Option.filter_eq_none_iff]
        exact fun rows kept at_ => none_ _ (.view unsought kept at_)
      simp only [seekStart, deferredQueue, valid, rows, Option.map_none, and_self]

theorem lowest_iff (loaded : S.Loaded messages) (some_ : messages ≠ []) :
    S.Lowest messages place ↔
      outcome messages (S.position ⟨messages, pinned, place⟩) .next = .live := by
  have live : ∀ near : Option Nat, ((near.map Outcome.lands).getD .live = .live ↔ near = none) := by
    intro near
    cases near <;> simp
  cases place with
  | on index =>
      simp only [Setting.Lowest, Setting.position, outcome_at_next, live,
        nearestHighlight_next_eq_none]
  | view offset =>
      obtain ⟨top, -, bottom, known⟩ := edges_known S loaded some_ offset
      have bottom_ : (S.rowsAt messages offset).getLast?.bind (indexOf messages) = some bottom :=
        (SeekPosition.view.inj known).2
      simp only [Setting.Lowest, Setting.position, known, outcome_view_next, live, bottom_,
        Option.mem_def, Option.some.injEq, forall_eq', nearestHighlight_next_eq_none]

/-- The rows of the live view stay good over a return that drops nothing they show, or no highlight
is left to be found. -/
theorem good_drop (loaded : S.Loaded messages) (over_ : S.Over messages) (fresh : ¬S.Stale messages)
    (direction : SeekDirection) :
    outcome (messages.drop (S.excess messages))
        (S.edgesIn messages (messages.drop (S.excess messages)) 0) direction =
      outcome (messages.drop (S.excess messages))
        (S.edges (messages.drop (S.excess messages)) 0) direction := by
  have inside := excess_lt over_
  have some_ : messages ≠ [] := List.ne_nil_of_length_pos (by omega)
  obtain ⟨before, after⟩ := edges_drop S loaded inside (edges_eq S loaded some_).1
  rw [before, after]
  by_cases below : S.excess messages ≤ S.liveTop messages
  · rw [if_pos below]
  · have none_ : ∀ k, highlightAt (messages.drop (S.excess messages)) k = false := by
      intro k
      rw [highlightAt_drop]
      by_contra here
      rw [Bool.not_eq_false] at here
      exact fresh ⟨over_, Nat.lt_of_not_le below, _, Nat.le_add_right _ k, here⟩
    have none_' : ∀ top, nearestHighlight (messages.drop (S.excess messages)) .previous top = none := by
      intro top
      cases top with
      | none =>
          rw [nearestHighlight_previous_none, nearestHighlight_previous_eq_none]
          exact fun k _ => none_ k
      | some i =>
          rw [nearestHighlight_previous_eq_none]
          exact fun k _ => none_ k
    cases direction with
    | previous => rw [outcome_view_previous, outcome_view_previous, none_', none_']
    | next => rw [outcome_view_next, outcome_view_next]

theorem returned_good (loaded : S.Loaded messages) (fresh : pinned = true → ¬S.Stale messages)
    (direction : SeekDirection) :
    outcome (S.returned ⟨messages, pinned, place⟩).messages
        (S.edgesIn messages (S.returned ⟨messages, pinned, place⟩).messages 0) direction =
      outcome (S.returned ⟨messages, pinned, place⟩).messages
        (S.edges (S.returned ⟨messages, pinned, place⟩).messages 0) direction := by
  cases pinned with
  | false =>
      rw [returned_unpinned]
      rfl
  | true =>
      by_cases over_ : S.Over messages
      · rw [returned_pinned over_]
        exact good_drop loaded over_ (fresh rfl) direction
      · obtain ⟨kept, same⟩ := returned_still over_ true place
        rw [same]
        rfl

end Views

/-- The view has come to rest where it is seen. -/
def Setting.Ends (app : ChatApp) (seen : Landing) : Prop := ∃ st, S.Rested app st ∧ st.landing = seen

/-- The offset the next frame would show the view at. -/
def Setting.nextOffset (app : ChatApp) : Nat :=
  (renderOnce S.screen (deferSeeks app S.bufferId [])).app.scrollOffset

section Ending

variable {S} {app : ChatApp} {messages : List Message} {pinned : Bool} {place : Place}
  {st : Standing} {seen : Landing} {presses : List SeekDirection}

theorem Setting.Ends.landing (ends : S.Ends app seen) :
    landing app S.bufferId = seen ∧ seen ≠ .waiting := by
  obtain ⟨st, rested, rfl⟩ := ends
  refine ⟨rested.landing, ?_⟩
  cases rested with
  | view holds loaded reaches unsought scroll => exact fun absurd => by cases absurd
  | on holds loaded here reaches shown =>
      simp only [Standing.landing, here]
      exact fun absurd => by cases absurd

/-- Seeks that follow one another without the live view: the frames resolve them all. -/
theorem away_ends (follows : S.Follows app st) (away : S.Away app) (some_ : presses ≠ []) {n : Nat}
    (enough : presses.length ≤ n) :
    S.Ends ((render S.screen)^[n] (pressAll app presses)) (S.queued st presses).landing := by
  have long := List.length_pos_of_ne_nil some_
  obtain ⟨m, rfl⟩ := Nat.exists_eq_add_of_le' (Nat.le_trans long enough)
  rw [Function.iterate_succ_apply]
  rcases pressAll_away follows away some_ with rested | waits
  · exact ⟨_, rested.frames m, rfl⟩
  · obtain ⟨held, pin, back, queue, rested, short, pressed, same⟩ := waits
    have waits := (deferred_waits rested queue).frames (Nat.le_trans short enough)
    rw [pressed, same]
    exact ⟨_, waits, kept_landing _⟩

/-- Seeks applied at once over the rows of the live view, where these stay good. -/
theorem live_ends {drawn : List Message} {rows : ChatRows} (shown : app.chatRows = some rows)
    (at_ : rows.renderedAt S.bufferId 0 = true)
    (draws : rows.rows.map Prod.fst = S.rowsAt drawn 0) (inv : Standing → Prop)
    (kept : ∀ st direction, inv st → inv (S.press st direction))
    (good : ∀ st, inv st → st.place = .view 0 → ∀ direction,
      outcome st.messages (S.edgesIn drawn st.messages 0) direction =
        outcome st.messages (S.edges st.messages 0) direction)
    (holds : inv st) (follows : S.Follows app st) (some_ : presses ≠ []) {n : Nat}
    (enough : presses.length ≤ n) :
    S.Ends ((render S.screen)^[n] (pressAll app presses)) (S.moves S.pins st presses).landing := by
  have long := List.length_pos_of_ne_nil some_
  obtain ⟨m, rfl⟩ := Nat.exists_eq_add_of_le' (Nat.le_trans long enough)
  obtain ⟨first, last, rfl⟩ := (List.eq_nil_or_concat presses).resolve_left some_
  have before := (pressAll_follows shown at_ draws inv kept good first holds follows).1
  have framed := (press_frame before last).1
  rw [List.concat_eq_append, Function.iterate_succ_apply, pressAll_append, moves_append]
  exact ⟨_, framed.frames m, rfl⟩

theorem known_each (follows : S.Follows app st) (some_ : presses ≠ []) :
    S.Ends (pressEach S.screen app presses) (S.moves S.pins st presses).landing :=
  ⟨_, (pressEach_follows follows presses).2 some_, rfl⟩

theorem deferred_offset (holds : S.Holds app messages pinned) (loaded : S.Loaded messages)
    (queue : List SeekDirection) :
    (renderOnce S.screen (deferSeeks app S.bufferId queue)).app.scrollOffset =
      min app.scrollOffset ((frameWalk S.screen
        { app with chatRows := none, chatScrollAtTop := false, highlightSeek := none } S.bufferId
          messages).rows.length - S.screen.height) := by
  have holds_ : S.Holds (deferSeeks app S.bufferId queue) messages pinned :=
    ⟨holds.active, holds.buffer, holds.limit, holds.logBrowser, holds.bare, holds.web⟩
  obtain ⟨buffer, drawable, rfl⟩ := holds_.drawable loaded
  rw [drawable.renderOnce, drawBuffer_scroll_idle]
  · rfl
  · simp [seekTarget, deferSeeks, HighlightSeek.pendingTarget]

theorem unknown_waits (holds : S.Holds app messages pinned) (loaded : S.Loaded messages)
    (queue : List SeekDirection) :
    S.Waits (renderOnce S.screen (deferSeeks app S.bufferId queue)).app messages pinned
      (S.nextOffset app) queue := by
  have holds_ : S.Holds (deferSeeks app S.bufferId queue) messages pinned :=
    ⟨holds.active, holds.buffer, holds.limit, holds.logBrowser, holds.bare, holds.web⟩
  exact ⟨renderOnce_holds holds_ loaded, loaded, renderOnce_drawn holds_ loaded,
    (deferred_offset holds loaded queue).trans (deferred_offset holds loaded []).symm,
    renderOnce_deferred holds_ loaded rfl⟩

/-- The next frame shows the live end where the view is there, or nothing is above the screen. -/
theorem nextOffset_eq_zero (holds : S.Holds app messages pinned) (loaded : S.Loaded messages) :
    S.nextOffset app = 0 ↔
      app.scrollOffset = 0 ∨ (S.full messages).length ≤ S.screen.height := by
  have tall := frameWalk_tall S.screen
    { app with chatRows := none, chatScrollAtTop := false, highlightSeek := none } loaded.fits
  have whole := (frameWalk_length S.screen
    { app with chatRows := none, chatScrollAtTop := false, highlightSeek := none } loaded.fits).1
  rw [Setting.nextOffset, deferred_offset holds loaded, Setting.full]
  generalize frameWalk S.screen _ S.bufferId messages = walk at *
  by_cases all : walk.left = []
  · have none_ : (wrappedRows S.screen S.bufferId ([] : List Message).reverse).length = 0 := rfl
    rw [all, none_] at whole
    omega
  · have tall := tall all
    omega

theorem unknown_ends (viewed : S.Viewed app messages pinned)
    (none_ : ∀ place, ¬S.Begins app messages place) (some_ : presses ≠ []) {n : Nat}
    (enough : presses.length ≤ n) :
    S.Ends ((render S.screen)^[n] (pressAll app presses))
      (S.moves false ⟨messages, pinned, .view (S.nextOffset app)⟩ presses).landing := by
  have long := List.length_pos_of_ne_nil some_
  obtain ⟨m, rfl⟩ := Nat.exists_eq_add_of_le' (Nat.le_trans long enough)
  obtain ⟨unknown, idle⟩ := unknown_of_not_begins viewed.settled none_
  rw [Function.iterate_succ_apply, pressAll_unknown viewed.holds unknown idle some_]
  exact ⟨_, (unknown_waits viewed.holds viewed.loaded presses).frames enough, kept_landing _⟩

/-- The first seek waits for its frame; the others follow it, if the rows of that frame are good. -/
theorem unknown_each (viewed : S.Viewed app messages pinned)
    (none_ : ∀ place, ¬S.Begins app messages place)
    (fresh : S.nextOffset app = 0 → pinned = true → ¬S.Stale messages) (some_ : presses ≠ []) :
    S.Ends (pressEach S.screen app presses)
      (S.moves S.pins ⟨messages, pinned, .view (S.nextOffset app)⟩ presses).landing := by
  obtain ⟨direction, rest, rfl⟩ := List.exists_cons_of_ne_nil some_
  obtain ⟨unknown, idle⟩ := unknown_of_not_begins viewed.settled none_
  have one : seekHighlight direction app = deferSeeks app S.bufferId [direction] :=
    pressAll_unknown viewed.holds unknown idle (List.cons_ne_nil direction [])
  have waits := unknown_waits viewed.holds viewed.loaded [direction]
  have moved : S.kept (S.moves false ⟨messages, pinned, .view (S.nextOffset app)⟩ [direction]) =
      S.press ⟨messages, pinned, .view (S.nextOffset app)⟩ direction := kept_glide direction
  have first : S.Rested (render S.screen (seekHighlight direction app))
        (S.press ⟨messages, pinned, .view (S.nextOffset app)⟩ direction) ∧
      S.Follows (render S.screen (seekHighlight direction app))
        (S.press ⟨messages, pinned, .view (S.nextOffset app)⟩ direction) := by
    rw [one, ← moved]
    rcases waits.pass 7 with settled | ⟨_, _, _, left, -, -, some_, short, -⟩
    · obtain ⟨rested, drawn | ⟨live, back, same⟩⟩ := settled
      · exact ⟨rested, rested.follows drawn⟩
      · refine ⟨rested, ?_⟩
        obtain ⟨rows, kept, buffer, at_, shows_⟩ := waits.drawn.rows
        rw [waits.scroll, live] at at_ shows_
        have kept_ : (render S.screen (deferSeeks app S.bufferId [direction])).chatRows =
            some rows := by
          rw [render, same, returnLive_eq]
          exact kept
        rw [back] at rested ⊢
        exact live_follows rested (returned_place _) kept_
          (ChatRows.renderedAt_iff.mpr ⟨buffer, at_⟩) shows_
          (returned_good viewed.loaded (fresh live))
    · have := List.length_pos_of_ne_nil some_
      rw [List.length_singleton] at short
      omega
  have later := pressEach_follows first.2 rest
  have step : pressEach S.screen app (direction :: rest) =
      pressEach S.screen (render S.screen (seekHighlight direction app)) rest := rfl
  have step_ : S.moves S.pins ⟨messages, pinned, .view (S.nextOffset app)⟩ (direction :: rest) =
      S.moves S.pins (S.press ⟨messages, pinned, .view (S.nextOffset app)⟩ direction) rest := rfl
  rw [step, step_]
  by_cases last : rest = []
  · subst last
    exact ⟨_, first.1, rfl⟩
  · exact ⟨_, later.2 last, rfl⟩

end Ending

/-- Applied at once, over rows of the live view that no frame replaces: once the backlog is pinned,
a return drops messages these rows show. -/
def Setting.DropsShown (app : ChatApp) (messages : List Message) (pinned : Bool) : Prop :=
  S.Stale messages ∧ ∃ place, S.Begins app messages place ∧ ¬S.Away app ∧
    (pinned = true ∨ S.pins = true ∧ ((∃ index, place = .on index) ∨
      ∃ k < S.liveTop messages, highlightAt messages k = true))

/-- Seeks that wait together pin nothing between them, and keep a highlight that a return drops
between single ones. -/
def Setting.DropsApart (app : ChatApp) (messages : List Message) (pinned : Bool) : Prop :=
  (S.Over messages ∧ pinned = false ∧ S.pins = true ∧ ¬S.Spared messages) ∧
    ((∀ place, ¬S.Begins app messages place) ∨
      ∃ place, S.Begins app messages place ∧ S.Away app ∧ S.Lowest messages place)

/-- A single seek that waits for the live view and returns to it: the next one starts at the rows
drawn before the drop. -/
def Setting.DropsDrawn (app : ChatApp) (messages : List Message) (pinned : Bool) : Prop :=
  S.Stale messages ∧ pinned = true ∧ (∀ place, ¬S.Begins app messages place) ∧
    (app.scrollOffset = 0 ∨ (S.full messages).length ≤ S.screen.height)

/-- No return to the live end drops messages that only one of the two ways misses. -/
def Setting.Steady (app : ChatApp) (messages : List Message) (pinned : Bool) : Prop :=
  ¬S.DropsShown app messages pinned ∧ ¬S.DropsApart app messages pinned ∧
    ¬S.DropsDrawn app messages pinned

section Agreeing

variable {S} {app : ChatApp} {messages : List Message} {pinned : Bool} {place : Place}
  {presses : List SeekDirection} {n : Nat}

theorem calm_of_not
    (apart : ¬(S.Over messages ∧ pinned = false ∧ S.pins = true ∧ ¬S.Spared messages)) :
    Calm S messages pinned pinned := by
  by_cases over_ : S.Over messages
  · cases pinned with
    | true => exact .pinned
    | false =>
        cases pins : S.pins with
        | false => exact .unpinned pins
        | true =>
            by_cases spared : S.Spared messages
            · exact .spared spared
            · exact absurd ⟨over_, rfl, pins, spared⟩ apart
  · exact .still over_

omit [Inhabited ρ] in
theorem over_ne_nil (over_ : S.Over messages) : messages ≠ [] :=
  List.ne_nil_of_length_pos (Nat.lt_of_le_of_lt (Nat.zero_le _) over_.2.2)

theorem known_away_agree (viewed : S.Viewed app messages pinned)
    (begins : S.Begins app messages place) (away : S.Away app)
    (apart : ¬S.DropsApart app messages pinned) (some_ : presses ≠ []) (enough : presses.length ≤ n) :
    S.Ends ((render S.screen)^[n] (pressAll app presses))
      (S.moves S.pins ⟨messages, pinned, place⟩ presses).landing := by
  have follows := viewed.follows begins
  have steady : Calm S messages pinned pinned ∨ ∃ index, outcome messages
      (S.position ⟨messages, pinned, place⟩) .next = .lands index := by
    by_cases drops : S.Over messages ∧ pinned = false ∧ S.pins = true ∧ ¬S.Spared messages
    · right
      have some_ := over_ne_nil drops.1
      have high : ¬S.Lowest messages place := fun lowest =>
        apart ⟨drops, .inr ⟨place, begins, away, lowest⟩⟩
      rw [@lowest_iff ρ _ S messages pinned place viewed.loaded some_] at high
      have moves := @next_ne_stays ρ _ S ⟨messages, pinned, place⟩ viewed.loaded some_
      cases reached : outcome messages (S.position ⟨messages, pinned, place⟩) .next with
      | stays => exact absurd reached moves
      | lands index => exact ⟨index, rfl⟩
      | live => exact absurd reached high
    · exact .inl (calm_of_not drops)
  rw [@queued_landing ρ _ S ⟨messages, pinned, place⟩ viewed.loaded steady]
  exact away_ends follows away some_ enough

omit [Inhabited ρ] in
theorem returned_messages (st : Standing) : (S.returned st).messages = st.messages ∨
    S.Over st.messages ∧ (S.returned st).messages = st.messages.drop (S.excess st.messages) := by
  by_cases over_ : S.Over st.messages
  · obtain ⟨messages, pinned, place⟩ := st
    cases pinned with
    | true =>
        rw [returned_pinned over_]
        exact .inr ⟨over_, rfl⟩
    | false =>
        rw [returned_unpinned]
        exact .inl rfl
  · obtain ⟨kept, same⟩ := returned_still over_ st.pinned st.place
    change S.returned st = _ at same
    rw [same]
    exact .inl rfl

/-- All the messages, or those a return has left. -/
theorem press_messages {st : Standing} (direction : SeekDirection)
    (held : st.messages = messages ∨
      S.Over messages ∧ st.messages = messages.drop (S.excess messages)) :
    (S.press st direction).messages = messages ∨
      S.Over messages ∧ (S.press st direction).messages = messages.drop (S.excess messages) := by
  rcases held with whole | ⟨over_, dropped⟩
  · unfold Setting.press Setting.move
    split
    · exact .inl whole
    · exact .inl whole
    · rw [← whole]
      exact returned_messages st
  · exact .inr ⟨over_, moves_dropped over_ S.pins dropped [direction]⟩

theorem known_live_agree (viewed : S.Viewed app messages pinned)
    (begins : S.Begins app messages place) (near : ¬S.Away app)
    (shown : ¬S.DropsShown app messages pinned) (some_ : presses ≠ []) (enough : presses.length ≤ n) :
    S.Ends ((render S.screen)^[n] (pressAll app presses))
      (S.moves S.pins ⟨messages, pinned, place⟩ presses).landing := by
  have follows := viewed.follows begins
  have near_ := near
  simp only [Setting.Away, not_forall, Bool.not_eq_false, exists_prop] at near_
  obtain ⟨rows, kept, at_⟩ := near_
  obtain ⟨buffer, live⟩ := ChatRows.renderedAt_iff.mp at_
  have draws := (viewed.rows rows kept buffer).1
  rw [live] at draws
  by_cases stale : S.Stale messages
  · have still : pinned = false ∧ (S.pins = true → (∀ index, place ≠ .on index) ∧
        ∀ k < S.liveTop messages, highlightAt messages k = false) := by
      have calm : ¬(pinned = true ∨ S.pins = true ∧ ((∃ index, place = .on index) ∨
          ∃ k < S.liveTop messages, highlightAt messages k = true)) := fun drops =>
        shown ⟨stale, place, begins, near, drops⟩
      push Not at calm
      refine ⟨Bool.eq_false_iff.mpr calm.1, fun pins => ?_⟩
      obtain ⟨off, spared⟩ := calm.2 pins
      exact ⟨off, fun k above => Bool.eq_false_iff.mpr (spared k above)⟩
    obtain ⟨rfl, still⟩ := still
    by_cases pins : S.pins = true
    · obtain ⟨off, spared⟩ := still pins
      have start : place = .view 0 := by
        cases begins with
        | on shown found => exact absurd rfl (off _)
        | view unsought kept_ here =>
            obtain rfl := Option.some.inj (kept.symm.trans kept_)
            rw [← (ChatRows.renderedAt_iff.mp here).2, live]
      subst start
      refine live_ends kept at_ draws (fun st => st = ⟨messages, false, .view 0⟩)
        (fun st direction held => ?_) (fun st held _ direction => ?_) rfl follows some_ enough
      · subst held
        have some_ := over_ne_nil stale.1
        have live : S.position ⟨messages, false, .view 0⟩ = S.edges messages 0 := rfl
        simp only [Setting.press, Setting.move, live]
        cases direction with
        | next => rw [outcome_live_next S viewed.loaded some_, returned_unpinned]
        | previous =>
            rw [outcome_live_previous S viewed.loaded some_,
              nearestHighlight_previous_eq_none.mpr spared]
            rfl
      · rw [held]
        rfl
    · rw [Bool.not_eq_true] at pins
      refine live_ends kept at_ draws (fun st => st.messages = messages ∧ st.pinned = false)
        (fun st direction held => ?_) (fun st held _ direction => ?_) ⟨rfl, rfl⟩ follows some_ enough
      · obtain ⟨held, pin, there⟩ := st
        obtain ⟨rfl, rfl⟩ := held
        simp only [Setting.press, Setting.move, pins, returned_unpinned]
        split <;> exact ⟨rfl, rfl⟩
      · rw [held.1]
        rfl
  · refine live_ends kept at_ draws (fun st => st.messages = messages ∨
      S.Over messages ∧ st.messages = messages.drop (S.excess messages))
      (fun st direction held => press_messages direction held) (fun st held _ direction => ?_)
      (.inl rfl) follows some_ enough
    rcases held with whole | ⟨over_, dropped⟩
    · rw [whole]
      rfl
    · rw [dropped]
      exact good_drop viewed.loaded over_ stale direction

theorem unknown_agree (viewed : S.Viewed app messages pinned)
    (none_ : ∀ place, ¬S.Begins app messages place) (apart : ¬S.DropsApart app messages pinned)
    (some_ : presses ≠ []) (enough : presses.length ≤ n) :
    S.Ends ((render S.screen)^[n] (pressAll app presses))
      (S.moves S.pins ⟨messages, pinned, .view (S.nextOffset app)⟩ presses).landing := by
  have calm : Calm S messages pinned pinned := calm_of_not fun drops => apart ⟨drops, .inl none_⟩
  have twin : Twin S ⟨messages, pinned, .view (S.nextOffset app)⟩
      ⟨messages, pinned, .view (S.nextOffset app)⟩ := .same _ calm
  rw [(twin.run S viewed.loaded presses).landing]
  exact unknown_ends viewed none_ some_ enough

end Agreeing

end Repartee.App
