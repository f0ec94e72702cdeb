import Repartee.App.SeekRuns

/-!
Seeks pressed before the next frame: they are applied at once while the view is known, and
otherwise wait in a queue, which the frames resolve a return to the live end at a time.
-/

namespace Repartee.App

open Text Lib State Ui

variable {ρ : Type} [Inhabited ρ] (S : Setting ρ)

/-- The rows on the screen are not those of the live view. -/
def Setting.Away (app : ChatApp) : Prop :=
  ∀ rows ∈ app.chatRows, rows.renderedAt S.bufferId 0 = false

section Queue

variable {S} {app : ChatApp} {messages : List Message} {pinned : Bool} {st : Standing}
  {direction : SeekDirection} {queue : List SeekDirection}

theorem pressAll_cons (app : ChatApp) (direction : SeekDirection) (rest : List SeekDirection) :
    pressAll app (direction :: rest) = pressAll (seekHighlight direction app) rest := rfl

theorem pressAll_append (app : ChatApp) (first second : List SeekDirection) :
    pressAll app (first ++ second) = pressAll (pressAll app first) second := List.foldl_append

omit [Inhabited ρ] in
/-- Seeks that wait are joined by those pressed after them. -/
theorem pressAll_waiting (holds : S.Holds app messages pinned) (queue rest : List SeekDirection) :
    pressAll (deferSeeks app S.bufferId queue) rest = deferSeeks app S.bufferId (queue ++ rest) := by
  induction rest generalizing queue with
  | nil => rw [List.append_nil]; rfl
  | cons direction rest ih =>
      have one : seekHighlight direction (deferSeeks app S.bufferId queue) =
          deferSeeks app S.bufferId (queue ++ [direction]) := by
        obtain ⟨buffer, active, -, kind⟩ := holds.shown
        have active_ : (deferSeeks app S.bufferId queue).activeBuffer = some (S.bufferId, buffer) :=
          active
        have chat : buffer.bufferType ≠ .shell := kind ▸ S.chat
        have valid : (deferSeeks app S.bufferId queue).highlightSeek.filter
            (fun seek => seek.valid S.bufferId (deferSeeks app S.bufferId queue).scrollOffset) =
              some ⟨S.bufferId, app.scrollOffset, .deferred queue⟩ := by
          rw [deferSeeks, Option.filter_some, if_pos (valid_iff.mpr ⟨rfl, rfl⟩)]
        simp only [seekHighlight, active_, chat, if_false, deferredQueue, valid]
        rfl
      rw [pressAll_cons, one, ih (queue ++ [direction]), List.append_assoc]
      rfl

omit [Inhabited ρ] in
/-- Where the view is not known, all seeks wait. -/
theorem pressAll_unknown (holds : S.Holds app messages pinned)
    (unknown : seekStart app S.bufferId messages = none)
    (idle : deferredQueue app S.bufferId = none) {presses : List SeekDirection}
    (some_ : presses ≠ []) : pressAll app presses = deferSeeks app S.bufferId presses := by
  obtain ⟨direction, rest, rfl⟩ := List.exists_cons_of_ne_nil some_
  obtain ⟨buffer, active, rfl, kind⟩ := holds.shown
  have chat : buffer.bufferType ≠ .shell := kind ▸ S.chat
  have one : seekHighlight direction app = deferSeeks app S.bufferId [direction] := by
    simp only [seekHighlight, active, chat, if_false, idle, unknown]
  rw [pressAll_cons, one, pressAll_waiting holds]
  rfl

omit [Inhabited ρ] in
theorem unknown_of_away (away : S.Away app) (unsought : app.highlightSeek = none)
    (live : app.scrollOffset = 0) :
    seekStart app S.bufferId messages = none ∧ deferredQueue app S.bufferId = none := by
  have none_ : app.chatRows.filter (fun rows => rows.renderedAt S.bufferId app.scrollOffset) = none := by
    rw [Option.filter_eq_none_iff]
    intro rows kept
    rw [live, away rows kept]
    exact Bool.false_ne_true
  simp only [seekStart, deferredQueue, unsought, Option.filter_none, none_, Option.map_none, and_self]

omit [Inhabited ρ] in
theorem returned_eta (st : Standing) :
    S.returned st = ⟨(S.returned st).messages, (S.returned st).pinned, .view 0⟩ := by
  rw [← returned_place (S := S) st]

/-- A press draws nothing. -/
theorem press_rows (follows : S.Follows app st) (direction : SeekDirection) :
    (seekHighlight direction app).chatRows = app.chatRows := by
  cases reached : outcome st.messages (S.position st) direction with
  | stays => rw [press_stays follows reached]
  | lands index =>
      obtain ⟨message, -, pressed, -⟩ := press_lands follows reached
      rw [pressed, pinActiveBacklog_eq app]
  | live => rw [(press_live follows reached).1, returnLive_eq]

/-- A seek that does not return to the live end leaves the next one to be applied at once. -/
theorem press_follows (follows : S.Follows app st)
    (off : outcome st.messages (S.position st) direction ≠ .live) :
    S.Follows (seekHighlight direction app) (S.press st direction) := by
  cases reached : outcome st.messages (S.position st) direction with
  | stays =>
      have moved : S.press st direction = st := by
        simp only [Setting.press, Setting.move, reached]
      rw [press_stays follows reached, moved]
      exact follows
  | lands index =>
      obtain ⟨message, here, pressed, moved⟩ := press_lands follows reached
      rw [pressed, moved]
      exact pending_follows follows.holds follows.loaded here
  | live => exact absurd reached off

/-- Seeks pressed while the rows of the live view are not at hand: the first return to it makes the
others wait. -/
theorem pressAll_away (follows : S.Follows app st) (away : S.Away app) {presses : List SeekDirection}
    (some_ : presses ≠ []) :
    S.Rested (render S.screen (pressAll app presses)) (S.queued st presses) ∨
      ∃ messages pinned back queue, S.Rested back ⟨messages, pinned, .view 0⟩ ∧
        queue.length ≤ presses.length ∧ pressAll app presses = deferSeeks back S.bufferId queue ∧
        S.queued st presses = S.moves false ⟨messages, pinned, .view 0⟩ queue := by
  induction presses generalizing app st with
  | nil => exact absurd rfl some_
  | cons direction rest ih =>
      have away_ : S.Away (seekHighlight direction app) := by
        rw [Setting.Away, press_rows follows]
        exact away
      rw [pressAll_cons]
      unfold Setting.queued
      by_cases last : rest = []
      · subst last
        left
        have framed := (press_frame follows direction).1
        split <;> exact framed
      · split
        · -- the live view is not known before the next frame
          rename_i live
          right
          obtain ⟨pressed, moved⟩ := press_live follows live
          have rested := returnLive_rested follows.holds follows.loaded st.place
          change S.Rested (returnLive app) (S.returned st) at rested
          rw [returned_eta] at rested
          have there := follows.holds.returnLive st.place
          have scroll : (returnLive app).scrollOffset = 0 := by rw [returnLive_eq]
          have unsought : (returnLive app).highlightSeek = none := by rw [returnLive_eq]
          rw [pressed] at away_ ⊢
          have unknown := @unknown_of_away ρ S (returnLive app) (S.returned st).messages away_ unsought scroll
          refine ⟨_, _, returnLive app, rest, rested, Nat.le_succ _,
            pressAll_unknown there unknown.1 unknown.2 last, ?_⟩
          rw [moved, ← returned_eta]
        · rename_i known
          rcases ih (press_follows follows known) away_ last with rested | waits
          · exact .inl rested
          · obtain ⟨messages, pinned, back, queue, rested, short, pressed, ends⟩ := waits
            exact .inr ⟨messages, pinned, back, queue, rested, short.trans (Nat.le_succ _), pressed,
              ends⟩

/-- Back at the live end, where the rows of the live view are at hand and still good. -/
theorem live_follows {drawn : List Message} {rows : ChatRows} (rested : S.Rested app st)
    (live : st.place = .view 0) (shown : app.chatRows = some rows)
    (at_ : rows.renderedAt S.bufferId 0 = true)
    (draws : rows.rows.map Prod.fst = S.rowsAt drawn 0)
    (good : ∀ direction, outcome st.messages (S.edgesIn drawn st.messages 0) direction =
      outcome st.messages (S.edges st.messages 0) direction) : S.Follows app st := by
  obtain ⟨left, pin, there⟩ := st
  simp only at live
  subst live
  refine .view rested ⟨rows, shown, at_, fun direction => ?_⟩
  rw [viewPosition_rows (ChatRows.renderedAt_iff.mp at_).1 draws]
  exact good direction

/-- Seeks pressed while the rows of the live view are at hand: all are applied at once, and follow
the standing if those rows are good after every return. -/
theorem pressAll_follows {drawn : List Message} {rows : ChatRows} (shown : app.chatRows = some rows)
    (at_ : rows.renderedAt S.bufferId 0 = true)
    (draws : rows.rows.map Prod.fst = S.rowsAt drawn 0) (inv : Standing → Prop)
    (kept : ∀ st direction, inv st → inv (S.press st direction))
    (good : ∀ st, inv st → st.place = .view 0 → ∀ direction,
      outcome st.messages (S.edgesIn drawn st.messages 0) direction =
        outcome st.messages (S.edges st.messages 0) direction)
    (presses : List SeekDirection) (holds : inv st) (follows : S.Follows app st) :
    S.Follows (pressAll app presses) (S.moves S.pins st presses) ∧
      (pressAll app presses).chatRows = some rows := by
  induction presses generalizing app st with
  | nil => exact ⟨follows, shown⟩
  | cons direction rest ih =>
      have same : (seekHighlight direction app).chatRows = some rows :=
        (press_rows follows direction).trans shown
      have ready : S.Follows (seekHighlight direction app) (S.press st direction) := by
        by_cases live : outcome st.messages (S.position st) direction = .live
        · obtain ⟨pressed, moved⟩ := press_live follows live
          have holds_ := kept st direction holds
          have rested := returnLive_rested follows.holds follows.loaded st.place
          have place := returned_place (S := S) st
          rw [pressed] at same ⊢
          rw [moved] at holds_ ⊢
          exact live_follows rested place same at_ draws (good _ holds_ place)
        · exact press_follows follows live
      exact ih same (kept st direction holds) ready

end Queue

/-- A standing once it is drawn: where a seek has landed, the backlog is pinned. -/
def Setting.kept (st : Standing) : Standing :=
  match st.place with
  | .view _ => st
  | .on _ => { st with pinned := st.pinned || S.pins }

/-- Just drawn, with seeks that wait for these rows. -/
structure Setting.Waits (app : ChatApp) (messages : List Message) (pinned : Bool) (offset : Nat)
    (queue : List SeekDirection) : Prop where
  holds : S.Holds app messages pinned
  loaded : S.Loaded messages
  drawn : S.Drawn app messages
  scroll : app.scrollOffset = offset
  sought : app.highlightSeek = some ⟨S.bufferId, app.scrollOffset, .deferred queue⟩

section Waiting

variable {S} {app : ChatApp} {messages : List Message} {pinned : Bool} {offset : Nat}
  {queue : List SeekDirection}

omit [Inhabited ρ] in
theorem kept_landing (st : Standing) : (S.kept st).landing = st.landing := by
  obtain ⟨messages, pinned, place⟩ := st
  cases place <;> rfl

/-- A seek that waits alone does what it does when applied at once. -/
theorem kept_glide (direction : SeekDirection) :
    S.kept (S.glide ⟨messages, pinned, .view offset⟩ direction) =
      S.press ⟨messages, pinned, .view offset⟩ direction := by
  simp only [Setting.glide, Setting.press, Setting.move, Bool.or_false]
  cases outcome messages (S.position ⟨messages, pinned, .view offset⟩) direction with
  | stays => rfl
  | lands index => rfl
  | live =>
      have place := returned_place (S := S) ⟨messages, pinned, .view offset⟩
      simp only [Setting.kept, place]

/-- A queue applied in order: it ends where it started, at a highlight, or at the live end with
some of the seeks left. -/
theorem advance_moves (place : Place) (inside : ∀ i, place = .on i → i < messages.length)
    (queue : List SeekDirection) :
    (∃ top bottom offset, place = .view offset ∧
      advance messages (S.position ⟨messages, pinned, place⟩) queue = (.view top bottom, []) ∧
      S.moves false ⟨messages, pinned, place⟩ queue = ⟨messages, pinned, place⟩) ∨
    (∃ index < messages.length,
      advance messages (S.position ⟨messages, pinned, place⟩) queue = (.at_ index, []) ∧
      S.moves false ⟨messages, pinned, place⟩ queue = ⟨messages, pinned, .on index⟩) ∨
    ∃ applied left, applied ≠ [] ∧ queue = applied ++ left ∧
      advance messages (S.position ⟨messages, pinned, place⟩) queue = (.live, left) ∧
      S.moves false ⟨messages, pinned, place⟩ applied = S.returned ⟨messages, pinned, place⟩ := by
  induction queue generalizing place with
  | nil =>
      rw [advance_nil]
      cases place with
      | view offset => exact .inl ⟨_, _, offset, rfl, rfl, rfl⟩
      | on index => exact .inr (.inl ⟨index, inside index rfl, rfl, rfl⟩)
  | cons direction rest ih =>
      have step : S.moves false ⟨messages, pinned, place⟩ (direction :: rest) =
          S.moves false (S.move false ⟨messages, pinned, place⟩ direction) rest := rfl
      rw [advance_cons (position_ne_live S _), step]
      cases reached : outcome messages (S.position ⟨messages, pinned, place⟩) direction with
      | stays =>
          have moved : S.move false ⟨messages, pinned, place⟩ direction =
              ⟨messages, pinned, place⟩ := by simp only [Setting.move, reached]
          cases place with
          | on index => exact absurd reached outcome_at_ne_stays
          | view offset =>
              have same : (advance messages (S.position ⟨messages, pinned, .view offset⟩)
                  [direction]).1 = S.position ⟨messages, pinned, .view offset⟩ := advance_stays reached
              rw [same, moved]
              rcases ih (.view offset) inside with stays | lands | live
              · exact .inl stays
              · exact .inr (.inl lands)
              · obtain ⟨applied, left, -, rfl, ends, back⟩ := live
                refine .inr (.inr ⟨direction :: applied, left, List.cons_ne_nil _ _, rfl, ends, ?_⟩)
                have first : S.moves false ⟨messages, pinned, .view offset⟩ (direction :: applied) =
                    S.moves false (S.move false ⟨messages, pinned, .view offset⟩ direction) applied :=
                  rfl
                rw [first, moved, back]
      | lands index =>
          have moved : S.move false ⟨messages, pinned, place⟩ direction =
              ⟨messages, pinned, .on index⟩ := by
            simp only [Setting.move, reached, Bool.or_false]
          have there : index < messages.length := by
            refine lands_inside (fun i at_ => ?_) reached
            cases place with
            | view offset => cases at_
            | on j =>
                cases at_
                exact inside _ rfl
          rw [advance_lands reached, moved]
          have position : SeekPosition.at_ index = S.position ⟨messages, pinned, .on index⟩ := rfl
          rw [position]
          rcases ih (.on index) (fun i same => by cases same; exact there) with stays | lands | live
          · obtain ⟨top, bottom, offset, absurd_, -⟩ := stays
            cases absurd_
          · exact .inr (.inl lands)
          · obtain ⟨applied, left, -, rfl, ends, back⟩ := live
            refine .inr (.inr ⟨direction :: applied, left, List.cons_ne_nil _ _, rfl, ends, ?_⟩)
            have first : S.moves false ⟨messages, pinned, place⟩ (direction :: applied) =
                S.moves false (S.move false ⟨messages, pinned, place⟩ direction) applied := rfl
            rw [first, moved, back]
            rfl
      | live =>
          have moved : S.moves false ⟨messages, pinned, place⟩ [direction] =
              S.returned ⟨messages, pinned, place⟩ := by
            simp only [Setting.moves, List.foldl_cons, List.foldl_nil, Setting.move, reached]
          rw [advance_live reached, advance_from_live]
          exact .inr (.inr ⟨[direction], rest, List.cons_ne_nil _ _, rfl, rfl, moved⟩)

/-- The seeks that wait are applied from the edges of the rows just drawn. -/
theorem Setting.Waits.resolve (waits : S.Waits app messages pinned offset queue) :
    resolveDeferredSeek app =
      ((runSeeks app (S.edges messages offset) queue).scrollOffset != offset ||
        (runSeeks app (S.edges messages offset) queue).highlightSeek.any HighlightSeek.isPending,
        runSeeks app (S.edges messages offset) queue) := by
  obtain ⟨rows, kept, buffer, at_, shows_⟩ := waits.drawn.rows
  obtain ⟨held, found, rows_, -, -⟩ := waits.holds.buffer
  have scroll := waits.scroll
  subst scroll
  have fresh : app.chatRows.filter (fun rows =>
      app.scrollOffset == app.scrollOffset && rows.renderedAt S.bufferId app.scrollOffset) =
        some rows := by
    rw [kept, Option.filter_some, if_pos]
    rw [beq_self_eq_true, Bool.true_and]
    exact ChatRows.renderedAt_iff.mpr ⟨buffer, at_⟩
  have edges : viewPosition rows S.bufferId held.messages = S.edges messages app.scrollOffset := by
    rw [viewPosition_rows buffer shows_, rows_]
    rfl
  simp only [resolveDeferredSeek, waits.sought, fresh, found, edges]

/-- The view is drawn again where the seeks moved it or left something pending. -/
theorem Setting.Waits.passes_succ (waits : S.Waits app messages pinned offset queue) (n : Nat)
    {resolved : ChatApp}
    (ran : runSeeks app (S.position ⟨messages, pinned, .view offset⟩) queue = resolved) :
    resolvePasses S.screen (n + 1) app =
      if resolved.scrollOffset != offset || resolved.highlightSeek.any HighlightSeek.isPending then
        resolvePasses S.screen n (renderOnce S.screen resolved).app
      else resolved := by
  rw [resolvePasses, waits.resolve]
  change runSeeks app (S.edges messages offset) queue = resolved at ran
  rw [ran]

theorem Setting.Rested.passes {st : Standing} (rested : S.Rested app st) (n : Nat) :
    resolvePasses S.screen n app = app := by
  cases n with
  | zero => rfl
  | succ n =>
      have still : resolveDeferredSeek app = (false, app) := by
        unfold resolveDeferredSeek
        split
        · rename_i waits
          cases rested.settled _ waits
        · rfl
      rw [resolvePasses, still]
      rfl

/-- Seeks that wait for a view still wait once it is drawn. -/
theorem deferred_waits {back : ChatApp} (rested : S.Rested back ⟨messages, pinned, .view offset⟩)
    (queue : List SeekDirection) :
    S.Waits (renderOnce S.screen (deferSeeks back S.bufferId queue)).app messages pinned offset
      queue := by
  cases rested with
  | view holds loaded reaches unsought scroll =>
      have holds_ : S.Holds (deferSeeks back S.bufferId queue) messages pinned :=
        ⟨holds.active, holds.buffer, holds.limit, holds.logBrowser, holds.bare, holds.web⟩
      have sought : (deferSeeks back S.bufferId queue).highlightSeek =
          some ⟨S.bufferId, (deferSeeks back S.bufferId queue).scrollOffset, .deferred queue⟩ := rfl
      have idle : seekTarget (deferSeeks back S.bufferId queue) S.bufferId messages = none := by
        simp [seekTarget, sought, HighlightSeek.pendingTarget]
      have same := renderOnce_rests holds_ loaded idle reaches.room reaches.extent
      exact ⟨renderOnce_holds holds_ loaded, loaded, renderOnce_drawn holds_ loaded,
        same.trans scroll, renderOnce_deferred holds_ loaded sought⟩

/-- Seeks that lead from the live view back to it do not ask for another frame. -/
theorem Setting.Waits.returned (waits : S.Waits app messages pinned 0 queue)
    (ends : advance messages (S.position ⟨messages, pinned, .view 0⟩) queue = (.live, [])) (n : Nat) :
    resolvePasses S.screen (n + 1) app = returnLive app := by
  have pass := waits.passes_succ n (runSeeks_live waits.holds ends)
  have zero : (returnLive app).scrollOffset = 0 := by rw [returnLive_eq]
  have unsought : (returnLive app).highlightSeek = none := by rw [returnLive_eq]
  simp only [List.isEmpty_nil, if_true, zero, unsought, Option.any_none, Bool.or_false,
    bne_self_eq_false, Bool.false_eq_true, if_false] at pass
  exact pass

/-- One pass: the seeks come to rest, or return to the live end and what is left of them waits for
it. -/
theorem Setting.Waits.pass (waits : S.Waits app messages pinned offset queue) (n : Nat) :
    (S.Rested (resolvePasses S.screen (n + 1) app)
        (S.kept (S.moves false ⟨messages, pinned, .view offset⟩ queue)) ∧
      (S.Drawn (resolvePasses S.screen (n + 1) app)
          (S.kept (S.moves false ⟨messages, pinned, .view offset⟩ queue)).messages ∨
        offset = 0 ∧ S.kept (S.moves false ⟨messages, pinned, .view offset⟩ queue) =
            S.returned ⟨messages, pinned, .view offset⟩ ∧
          resolvePasses S.screen (n + 1) app = returnLive app)) ∨
    ∃ messages' pinned' app' left, resolvePasses S.screen (n + 1) app =
        resolvePasses S.screen n app' ∧ S.Waits app' messages' pinned' 0 left ∧
      left ≠ [] ∧ left.length < queue.length ∧
      S.moves false ⟨messages, pinned, .view offset⟩ queue =
        S.moves false ⟨messages', pinned', .view 0⟩ left := by
  have holds := waits.holds
  have drawn := waits.drawn
  have scroll := waits.scroll
  subst scroll
  rcases @advance_moves ρ _ S messages pinned (.view app.scrollOffset)
    (fun i absurd_ => by cases absurd_) queue with stays | lands | live
  · obtain ⟨top, bottom, offset, -, ends, moved⟩ := stays
    left
    have pass := waits.passes_succ n (runSeeks_view holds ends)
    have waiting : app.highlightSeek.any HighlightSeek.isDeferred = true := by
      rw [waits.sought]
      rfl
    rw [if_pos waiting] at pass
    simp only [bne_self_eq_false, Option.any_none, Bool.or_self, Bool.false_eq_true,
      if_false] at pass
    rw [pass, moved]
    have holds_ : S.Holds { app with highlightSeek := none } messages pinned :=
      ⟨holds.active, holds.buffer, holds.limit, holds.logBrowser, holds.bare, holds.web⟩
    refine ⟨.view holds_ waits.loaded ⟨drawn.room, .inr drawn.extent⟩ ?_ rfl,
      .inl ⟨drawn.rows, drawn.room, drawn.extent⟩⟩
    intro seek kept
    cases kept
  · obtain ⟨index, inside, ends, moved⟩ := lands
    left
    have here := List.getElem?_eq_getElem inside
    have pass := waits.passes_succ n (runSeeks_at holds ends here)
    simp only [Option.any_some, HighlightSeek.isPending, Bool.or_true, if_true] at pass
    rw [pass, moved]
    have ready := @pending_follows ρ _ S app ⟨messages, pinned, .view app.scrollOffset⟩ holds
      waits.loaded index _ here
    cases ready with
    | on holds_ loaded there sought names =>
        have framed := pending_frame holds_ loaded here (by rw [pinActiveBacklog_eq app])
        rw [framed.2.1.passes]
        exact ⟨framed.2.1, .inl framed.2.2⟩
  · obtain ⟨applied, left, some_, rfl, ends, moved⟩ := live
    have pass := waits.passes_succ n (runSeeks_live holds ends)
    have rested := returnLive_rested holds waits.loaded (.view app.scrollOffset)
    by_cases all : left = []
    · subst all
      left
      rw [List.append_nil] at ends waits ⊢
      rw [moved, returned_eta]
      rw [returned_eta] at rested
      by_cases still : app.scrollOffset = 0
      · have back := @Setting.Waits.returned ρ _ S app messages pinned applied (still ▸ waits)
          (by rw [← still]; exact ends) n
        rw [back]
        exact ⟨rested, .inr ⟨still, rfl, rfl⟩⟩
      · have zero : (returnLive app).scrollOffset = 0 := by rw [returnLive_eq]
        have moved_ : ((0 : Nat) != app.scrollOffset) = true := by simpa using Ne.symm still
        simp only [List.isEmpty_nil, if_true, zero, moved_, Bool.true_or] at pass
        have framed := rested.frame
        rw [rested.once] at framed
        rw [pass, framed.1.passes]
        exact ⟨framed.1, .inl framed.2⟩
    · right
      rw [returned_eta] at rested
      have more : left.isEmpty = false := List.isEmpty_eq_false_iff.mpr all
      have pending : ((deferSeeks (returnLive app) S.bufferId left).highlightSeek.any
          HighlightSeek.isPending) = true := rfl
      rw [more] at pass
      simp only [Bool.false_eq_true, if_false, pending, Bool.or_true, if_true] at pass
      refine ⟨_, _, _, left, pass, deferred_waits rested left, all, ?_, ?_⟩
      · rw [List.length_append]
        have := List.length_pos_of_ne_nil some_
        omega
      · rw [moves_append, moved, ← returned_eta]

/-- So many passes leave a queue shorter by so many seeks, if anything. -/
theorem Setting.Waits.passes (waits : S.Waits app messages pinned offset queue) (n : Nat) :
    S.Rested (resolvePasses S.screen n app)
        (S.kept (S.moves false ⟨messages, pinned, .view offset⟩ queue)) ∨
    ∃ messages' pinned' offset' left,
      S.Waits (resolvePasses S.screen n app) messages' pinned' offset' left ∧
      left.length + n ≤ queue.length ∧
      S.moves false ⟨messages, pinned, .view offset⟩ queue =
        S.moves false ⟨messages', pinned', .view offset'⟩ left := by
  induction n generalizing app messages pinned offset queue with
  | zero => exact .inr ⟨messages, pinned, offset, queue, waits, Nat.le_refl _, rfl⟩
  | succ n ih =>
      rcases waits.pass n with rested | waits
      · exact .inl rested.1
      · obtain ⟨messages', pinned', app', left, pass, waits, -, shorter, same⟩ := waits
        rw [pass, same]
        rcases ih waits with rested | ⟨messages'', pinned'', offset'', left', waits, short, same'⟩
        · exact .inl rested
        · refine .inr ⟨messages'', pinned'', offset'', left', waits, ?_, same'⟩
          omega

theorem Setting.Rested.frames {st : Standing} (rested : S.Rested app st) (n : Nat) :
    S.Rested ((render S.screen)^[n] app) st := by
  induction n generalizing app with
  | zero => exact rested
  | succ n ih =>
      rw [Function.iterate_succ_apply]
      exact ih rested.frame.1

/-- Enough frames bring a queue to rest. -/
theorem Setting.Waits.frames (waits : S.Waits app messages pinned offset queue) {n : Nat}
    (enough : queue.length ≤ n + 1) :
    S.Rested ((render S.screen)^[n] (resolvePasses S.screen 8 app))
      (S.kept (S.moves false ⟨messages, pinned, .view offset⟩ queue)) := by
  induction n generalizing app messages pinned offset queue with
  | zero =>
      rcases waits.passes 8 with rested | ⟨messages', pinned', offset', left, -, short, -⟩
      · exact rested
      · omega
  | succ n ih =>
      rw [Function.iterate_succ_apply]
      rcases waits.passes 8 with rested | ⟨messages', pinned', offset', left, later, short, same⟩
      · exact rested.frame.1.frames n
      · rw [same]
        generalize resolvePasses S.screen 8 app = app' at *
        have scroll := later.scroll
        have rested : S.Rested { app' with highlightSeek := none } ⟨messages', pinned', .view offset'⟩ :=
          .view ⟨later.holds.active, later.holds.buffer, later.holds.limit, later.holds.logBrowser,
            later.holds.bare, later.holds.web⟩ later.loaded
            ⟨later.drawn.room, .inr later.drawn.extent⟩ (fun seek kept => by cases kept) scroll
        have same_ : app' = deferSeeks { app' with highlightSeek := none } S.bufferId left := by
          rw [deferSeeks, ← later.sought]
        have again := deferred_waits rested left
        rw [← same_] at again
        rw [render]
        exact ih again (by omega)

end Waiting

end Repartee.App
