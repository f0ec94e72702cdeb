import Repartee.App.HighlightSeek
import Repartee.Lib.Slice
import Repartee.Session.Writer

/-!
The chat view: the newest messages are wrapped until a budget of lines is spent, and the scroll
offset is clamped against the lines this gave.
-/

namespace Repartee.Ui

open Text Lib State
open App (HighlightSeek)
open Session (usizeMax)

/-- Which image a row belongs to. -/
structure ImageKey where
  bufferId : Str
  messageId : Nat
  url : Str
  deriving DecidableEq

/-- The rows one inline image takes. -/
def imageHeight : Nat := 8

/-- What rendering takes from the terminal, the theme and the configuration: the area, and for a
message the lines it wraps to, with the rows its emotes reserve, and the image it shows. -/
structure Screen (ρ : Type) where
  width : Nat
  height : Nat
  inlineEnabled : Bool
  wrapLine : Message → List ρ
  directImage : Message → Option Str
  wrapLine_ne_nil : ∀ message, wrapLine message ≠ []

/-- A line of the view, the image row it is part of, and the message it shows. -/
structure VisualRow (ρ : Type) where
  line : ρ
  image : Option (ImageKey × Nat)
  message : Nat
  deriving DecidableEq

structure ChatRows where
  bufferId : Str
  scrollOffset : Nat
  /-- The message of each visible row, and the link of the image it is part of. -/
  rows : List (Nat × Option Str)
  walkedMessages : Nat
  deriving DecidableEq

namespace ChatRows

/-- These rows show the buffer at the offset, so they are current. -/
def renderedAt (rows : ChatRows) (bufferId : Str) (scrollOffset : Nat) : Bool :=
  rows.bufferId == bufferId && rows.scrollOffset == scrollOffset

def topMessage (rows : ChatRows) (bufferId : Str) : Option Nat :=
  if rows.bufferId = bufferId then rows.rows.head?.map Prod.fst else none

def bottomMessage (rows : ChatRows) (bufferId : Str) : Option Nat :=
  if rows.bufferId = bufferId then rows.rows.getLast?.map Prod.fst else none

end ChatRows

/-- What the chat view and the seeks read and write of the application. -/
structure ChatApp where
  state : AppState
  scrollOffset : Nat
  chatScrollAtTop : Bool
  chatRows : Option ChatRows
  /-- How many lines the last frame wrapped, and of which buffer. -/
  chatLineExtent : Option (Str × Nat)
  highlightSeek : Option HighlightSeek
  logBrowserMode : Bool
  bareDisplay : Bool
  /-- The buffers whose history a web client has open. -/
  webHistoryBuffers : List Str

/-- The active buffer, under its id. -/
def ChatApp.activeBuffer (app : ChatApp) : Option (Str × Buffer) :=
  app.state.activeBufferId.bind fun id => (app.state.buffers.get? id).map fun buffer => (id, buffer)

def maxWrappedLinesPerMsg : Nat := 16

def saturatingAdd (a b : Nat) : Nat := min (a + b) usizeMax

def saturatingMul (a b : Nat) : Nat := min (a * b) usizeMax

def computeRenderBudget (bufferLen visibleHeight scrollOffset : Nat) (inline_ : Bool) : Nat :=
  let cap := max
    (saturatingMul bufferLen (maxWrappedLinesPerMsg + if inline_ then imageHeight else 0))
    visibleHeight
  min (saturatingAdd visibleHeight scrollOffset) cap

/-- The clamped offset, and how many of the wrapped lines are above the view. -/
def resolveScroll (total visibleHeight scrollOffset : Nat) : Nat × Nat :=
  let scroll := min scrollOffset (total - visibleHeight)
  (scroll, total - saturatingAdd visibleHeight scroll)

def scrollPinnedAtTop (walkedAll : Bool) (scroll total visibleHeight : Nat) : Bool :=
  walkedAll && decide (total - visibleHeight ≤ scroll)

section Walk

variable {ρ : Type} [Inhabited ρ] (screen : Screen ρ)

/-- The rows of one message: its wrapped lines, and blank ones below them for its image. -/
def messageRows (bufferId : Str) (message : Message) : List (VisualRow ρ) :=
  let lines := (screen.wrapLine message).map fun line => ⟨line, none, message.rest.id⟩
  match if screen.inlineEnabled then screen.directImage message else none with
  | none => lines
  | some url => lines ++ (List.range imageHeight).map fun row =>
      ⟨default, some (⟨bufferId, message.rest.id, url⟩, row), message.rest.id⟩

/-- Every loaded message wrapped, oldest first. -/
def wrappedRows (bufferId : Str) (messages : List Message) : List (VisualRow ρ) :=
  messages.flatMap (messageRows screen bufferId)

/-- The state of the line walk: the rows so far, the messages still ahead of it, newest first. -/
structure Walk (ρ : Type) where
  rows : List (VisualRow ρ)
  needed : Nat
  seekPending : Bool
  left : List Message

/-- Reaching the message of a seek asks for one screen of context above it. -/
def neededAt (found : Bool) (needed total : Nat) : Nat :=
  if found then max needed (saturatingAdd total screen.height) else needed

/-- Takes one message after the other until there are more rows than needed. -/
def walkMessages (bufferId : Str) (target : Option Nat) (rows : List (VisualRow ρ)) (needed : Nat)
    (seekPending : Bool) : List Message → Walk ρ
  | [] => ⟨rows, needed, seekPending, []⟩
  | message :: older =>
      let rows := messageRows screen bufferId message ++ rows
      let found := seekPending && decide (some message.rest.id = target)
      let needed := neededAt screen found needed rows.length
      let seekPending := seekPending && !found
      if needed < rows.length ∧ seekPending = false then ⟨rows, needed, seekPending, older⟩
      else walkMessages bufferId target rows needed seekPending older

/-- The message a requested seek waits to be shown, if it is loaded. -/
def seekTarget (app : ChatApp) (bufferId : Str) (messages : List Message) : Option Nat :=
  (app.highlightSeek.bind fun seek => seek.pendingTarget bufferId app.scrollOffset).filter
    fun id => messages.any fun message => message.rest.id == id

/-- How many lines the walk is asked for: the budget, or one screen past the last extent. -/
def linesNeeded (app : ChatApp) (bufferId : Str) (messages : List Message) : Nat :=
  let budget :=
    computeRenderBudget messages.length screen.height app.scrollOffset screen.inlineEnabled
  match app.chatLineExtent with
  | none => budget
  | some (extentBuffer, extent) =>
      if extentBuffer = bufferId then
        max budget (min (saturatingAdd screen.height app.scrollOffset)
          (saturatingAdd extent screen.height))
      else budget

/-- What a frame leaves of a seek: its target is in view now, or a later action has moved the view
or removed the message. -/
def seekAfter (seek : Option HighlightSeek) (placed : Bool) (requested scroll : Nat) :
    Option HighlightSeek :=
  let seek := seek.map fun seek => seek.followClamp requested scroll
  if placed then seek.map fun seek => seek.shownAt scroll
  else if seek.any fun seek => seek.isPending && !seek.isDeferred then none
  else seek

/-- What was drawn, with the application after it. -/
structure Frame (ρ : Type) where
  app : ChatApp
  shown : List (VisualRow ρ)

/-- The line walk of a frame. -/
def frameWalk (app : ChatApp) (bufferId : Str) (messages : List Message) : Walk ρ :=
  let target := seekTarget app bufferId messages
  walkMessages screen bufferId target [] (linesNeeded screen app bufferId messages) target.isSome
    messages.reverse

/-- A sought message is placed a third of the way down the view. -/
def requestedOffset (app : ChatApp) (bufferId : Str) (messages : List Message)
    (rows : List (VisualRow ρ)) : Nat :=
  match (seekTarget app bufferId messages).bind fun id =>
      rows.findIdx? fun row => row.message == id with
  | some row => rows.length - saturatingAdd screen.height (row - screen.height / 3)
  | none => app.scrollOffset

/-- The active buffer drawn. -/
def drawBuffer (app : ChatApp) (bufferId : Str) (messages : List Message) : Frame ρ :=
  let target := seekTarget app bufferId messages
  let walk := frameWalk screen app bufferId messages
  let total := walk.rows.length
  let requested := requestedOffset screen app bufferId messages walk.rows
  let (scroll, skip) := resolveScroll total screen.height requested
  let shown := (walk.rows.drop skip).take screen.height
  { app :=
      { app with
        scrollOffset := scroll
        chatScrollAtTop := scrollPinnedAtTop walk.left.isEmpty scroll total screen.height
        chatRows := some
          { bufferId := bufferId
            scrollOffset := scroll
            rows := shown.map fun row => (row.message, row.image.map fun image => image.1.url)
            walkedMessages := messages.length - walk.left.length }
        chatLineExtent := some (bufferId, total)
        highlightSeek := seekAfter app.highlightSeek target.isSome requested scroll }
    shown := shown }

/-- One frame. A shell is drawn elsewhere, and no rows are kept of it. -/
def renderOnce (app : ChatApp) : Frame ρ :=
  let cleared := { app with chatRows := none, chatScrollAtTop := false }
  match app.activeBuffer with
  | none => ⟨cleared, []⟩
  | some (bufferId, buffer) =>
      if buffer.bufferType = .shell then ⟨cleared, []⟩
      else if screen.width = 0 ∨ screen.height = 0 then ⟨cleared, []⟩
      else drawBuffer screen cleared bufferId buffer.messages

end Walk

section Budget

variable {ρ : Type} (screen : Screen ρ) (app : ChatApp) {bufferId : Str} {messages : List Message}

theorem le_linesNeeded : min screen.height usizeMax ≤ linesNeeded screen app bufferId messages := by
  have budget : min screen.height usizeMax ≤ computeRenderBudget messages.length screen.height
      app.scrollOffset screen.inlineEnabled := by
    simp only [computeRenderBudget, saturatingAdd]
    omega
  unfold linesNeeded
  split
  · exact budget
  · split
    · exact budget.trans (Nat.le_max_left _ _)
    · exact budget

theorem le_neededAt {found : Bool} {needed total : Nat} :
    needed ≤ neededAt screen found needed total := by
  unfold neededAt
  split
  · exact Nat.le_max_left _ _
  · exact Nat.le_refl needed

/-- One screen past the lines the last frame wrapped is always asked for. -/
theorem linesNeeded_extent {extent : Nat} (walked : app.chatLineExtent = some (bufferId, extent)) :
    min (saturatingAdd screen.height app.scrollOffset) (saturatingAdd extent screen.height) ≤
      linesNeeded screen app bufferId messages := by
  simp only [linesNeeded, walked, if_true]
  exact Nat.le_max_right _ _

end Budget

section WalkRows

variable {ρ : Type} [Inhabited ρ] {screen : Screen ρ} {bufferId : Str} {target : Option Nat}

theorem messageRows_ne_nil (message : Message) : messageRows screen bufferId message ≠ [] := by
  have some_ : (screen.wrapLine message).map
      (fun line => (⟨line, none, message.rest.id⟩ : VisualRow ρ)) ≠ [] :=
    mt List.map_eq_nil_iff.mp (screen.wrapLine_ne_nil message)
  unfold messageRows
  split
  · exact some_
  · exact List.append_ne_nil_of_left_ne_nil some_ _

theorem messageRows_message {message : Message} {row : VisualRow ρ}
    (member : row ∈ messageRows screen bufferId message) : row.message = message.rest.id := by
  unfold messageRows at member
  split at member
  · obtain ⟨line, -, rfl⟩ := List.mem_map.mp member
    rfl
  · rcases List.mem_append.mp member with text | picture
    · obtain ⟨line, -, rfl⟩ := List.mem_map.mp text
      rfl
    · obtain ⟨line, -, rfl⟩ := List.mem_map.mp picture
      rfl

theorem wrappedRows_eq_nil {messages : List Message} :
    wrappedRows screen bufferId messages = [] ↔ messages = [] := by
  constructor
  · intro empty
    rw [wrappedRows, List.flatMap_eq_nil_iff] at empty
    exact List.eq_nil_iff_forall_not_mem.mpr fun message member =>
      messageRows_ne_nil message (empty message member)
  · rintro rfl
    rfl

theorem wrappedRows_append (older newer : List Message) :
    wrappedRows screen bufferId (older ++ newer) =
      wrappedRows screen bufferId older ++ wrappedRows screen bufferId newer :=
  List.flatMap_append

theorem wrappedRows_singleton (message : Message) :
    wrappedRows screen bufferId [message] = messageRows screen bufferId message := by
  rw [wrappedRows, List.flatMap_cons, List.flatMap_nil, List.append_nil]

variable (screen bufferId target)

/-- What the walk left and what it wrapped make up the whole. -/
theorem walkMessages_rows (messages : List Message) (rows : List (VisualRow ρ)) (needed : Nat)
    (seekPending : Bool) :
    let walk := walkMessages screen bufferId target rows needed seekPending messages
    wrappedRows screen bufferId walk.left.reverse ++ walk.rows =
      wrappedRows screen bufferId messages.reverse ++ rows := by
  induction messages generalizing rows needed seekPending with
  | nil => rfl
  | cons message older ih =>
      have whole : wrappedRows screen bufferId older.reverse ++
          (messageRows screen bufferId message ++ rows) =
            wrappedRows screen bufferId (message :: older).reverse ++ rows := by
        rw [List.reverse_cons, wrappedRows_append, List.append_assoc]
        simp [wrappedRows]
      simp only [walkMessages]
      split
      · exact whole
      · rw [← whole]
        exact ih _ _ _

/-- The walk ends with the messages, or with more rows than it needed. -/
theorem walkMessages_stops (messages : List Message) (rows : List (VisualRow ρ)) (needed : Nat)
    (seekPending : Bool) :
    let walk := walkMessages screen bufferId target rows needed seekPending messages
    needed ≤ walk.needed ∧ (walk.left = [] ∨ walk.needed < walk.rows.length) := by
  induction messages generalizing rows needed seekPending with
  | nil => exact ⟨Nat.le_refl needed, .inl rfl⟩
  | cons message older ih =>
      simp only [walkMessages]
      split
      · rename_i enough
        exact ⟨le_neededAt screen, .inr enough.1⟩
      · apply And.imp_left (le_neededAt screen).trans
        exact ih _ _ _

theorem walkMessages_left (messages : List Message) (rows : List (VisualRow ρ)) (needed : Nat)
    (seekPending : Bool) :
    (walkMessages screen bufferId target rows needed seekPending messages).left <:+ messages := by
  induction messages generalizing rows needed seekPending with
  | nil => exact List.suffix_refl []
  | cons message older ih =>
      simp only [walkMessages]
      split
      · exact List.suffix_cons message older
      · exact (ih _ _ _).trans (List.suffix_cons message older)

/-- The walk does not stop before it reaches the message of a seek, nor before it has a screen of
lines above that. -/
theorem walkMessages_target {newer older : List Message} {message : Message}
    (unseen : ∀ other ∈ newer, other.rest.id ≠ message.rest.id) (rows : List (VisualRow ρ))
    (needed : Nat)
    (fits : (wrappedRows screen bufferId (newer ++ message :: older).reverse ++ rows).length ≤
      usizeMax) :
    let walk := walkMessages screen bufferId (some message.rest.id) rows needed true
      (newer ++ message :: older)
    walk.left <:+ older ∧
      (walk.left = [] ∨ (messageRows screen bufferId message).length +
        (wrappedRows screen bufferId newer.reverse ++ rows).length + screen.height <
          walk.rows.length) := by
  induction newer generalizing rows needed with
  | nil =>
      simp only [List.nil_append, walkMessages, decide_true, Bool.and_true, Bool.not_true,
        Bool.and_false]
      rw [List.nil_append, List.reverse_cons, wrappedRows_append, wrappedRows_singleton,
        List.append_assoc] at fits
      have size : (messageRows screen bufferId message ++ rows).length ≤ usizeMax := by
        rw [List.length_append] at fits
        omega
      have raised : saturatingAdd (messageRows screen bufferId message ++ rows).length screen.height ≤
          neededAt screen true needed (messageRows screen bufferId message ++ rows).length :=
        Nat.le_max_right _ _
      rw [if_neg (by rw [saturatingAdd] at raised; omega)]
      refine ⟨walkMessages_left screen bufferId _ _ _ _ _, ?_⟩
      have stops := walkMessages_stops screen bufferId (some message.rest.id) older
        (messageRows screen bufferId message ++ rows)
        (neededAt screen true needed (messageRows screen bufferId message ++ rows).length) false
      have whole := congrArg List.length (walkMessages_rows screen bufferId (some message.rest.id)
        older (messageRows screen bufferId message ++ rows)
        (neededAt screen true needed (messageRows screen bufferId message ++ rows).length) false)
      generalize neededAt screen true needed (messageRows screen bufferId message ++ rows).length =
        level at *
      refine stops.2.imp_right fun enough => ?_
      have none_ : (wrappedRows screen bufferId ([] : List Message).reverse).length = 0 := rfl
      rw [saturatingAdd] at raised
      simp only [List.length_append] at raised fits whole ⊢
      omega
  | cons other newer ih =>
      have differs : some other.rest.id ≠ some message.rest.id := fun same =>
        unseen other List.mem_cons_self (Option.some.inj same)
      have later := ih (fun m member => unseen m (List.mem_cons_of_mem other member))
        (messageRows screen bufferId other ++ rows) needed (by
          rw [List.cons_append, List.reverse_cons, wrappedRows_append, wrappedRows_singleton,
            List.append_assoc] at fits
          exact fits)
      simp only [List.cons_append, walkMessages, decide_eq_false differs, Bool.and_false,
        Bool.not_false, Bool.and_true, Bool.true_eq_false, and_false, if_false, neededAt,
        Bool.false_eq_true] at later ⊢
      rw [List.reverse_cons, wrappedRows_append, wrappedRows_singleton, List.append_assoc]
      exact later

end WalkRows

/-- What a view of a given height shows of all the wrapped lines. -/
structure Faithful {α : Type} (full shown : List α) (height scroll : Nat) (atTop : Bool) : Prop where
  /-- One contiguous slice, ending the scroll offset above the last line; the flag says whether it
  begins with the first. -/
  slice : ∃ above below, full = above ++ shown ++ below ∧ below.length = scroll ∧
    (atTop = true ↔ above = [])
  short : shown.length ≤ height
  /-- No row stays blank while there is a line to show. -/
  filled : shown.length < height → shown = full

theorem faithful_endSlice {α : Type} {full : List α} {height scroll : Nat} {atTop : Bool}
    (room : scroll ≤ full.length - height)
    (top : atTop = true ↔ full.length ≤ height + scroll) :
    Faithful full (endSlice height scroll full) height scroll atTop where
  slice := by
    obtain ⟨above, below, split, under, over_⟩ := endSlice_split room
    refine ⟨above, below, split, under, ?_⟩
    rw [top, ← List.length_eq_zero_iff, over_]
    omega
  short := by
    rw [length_endSlice]
    exact Nat.min_le_left _ _
  filled := by
    intro few
    rw [length_endSlice] at few
    have none_ : scroll = 0 := by omega
    rw [none_]
    exact endSlice_all (by omega)

/-- Where a frame places the message at an index. -/
def placedOffset {ρ : Type} [Inhabited ρ] (screen : Screen ρ) (bufferId : Str)
    (messages : List Message) (index : Nat) : Nat :=
  (wrappedRows screen bufferId messages).length -
    (screen.height + ((wrappedRows screen bufferId (messages.take index)).length - screen.height / 3))

section Drawn

variable {ρ : Type} [Inhabited ρ] (screen : Screen ρ) (app : ChatApp) (bufferId : Str)
  (messages : List Message)

theorem frameWalk_rows :
    wrappedRows screen bufferId (frameWalk screen app bufferId messages).left.reverse ++
      (frameWalk screen app bufferId messages).rows = wrappedRows screen bufferId messages := by
  have whole := walkMessages_rows screen bufferId (seekTarget app bufferId messages)
    messages.reverse [] (linesNeeded screen app bufferId messages)
    (seekTarget app bufferId messages).isSome
  rw [List.reverse_reverse, List.append_nil] at whole
  exact whole

/-- A walk that stopped early wrapped more than was asked for. -/
theorem frameWalk_stops (early : (frameWalk screen app bufferId messages).left ≠ []) :
    linesNeeded screen app bufferId messages < (frameWalk screen app bufferId messages).rows.length := by
  have stops := walkMessages_stops screen bufferId (seekTarget app bufferId messages)
    messages.reverse [] (linesNeeded screen app bufferId messages)
    (seekTarget app bufferId messages).isSome
  exact Nat.lt_of_le_of_lt stops.1 (stops.2.resolve_left early)

theorem drawBuffer_scroll :
    let walk := frameWalk screen app bufferId messages
    (drawBuffer screen app bufferId messages).app.scrollOffset =
      min (requestedOffset screen app bufferId messages walk.rows)
        (walk.rows.length - screen.height) := rfl

theorem drawBuffer_seek :
    (drawBuffer screen app bufferId messages).app.highlightSeek =
      seekAfter app.highlightSeek (seekTarget app bufferId messages).isSome
        (requestedOffset screen app bufferId messages
          (frameWalk screen app bufferId messages).rows)
        (drawBuffer screen app bufferId messages).app.scrollOffset := rfl

variable {bufferId messages}

omit [Inhabited ρ] in
theorem requestedOffset_idle (idle : seekTarget app bufferId messages = none)
    (rows : List (VisualRow ρ)) :
    requestedOffset screen app bufferId messages rows = app.scrollOffset := by
  simp only [requestedOffset, idle, Option.bind_none]

theorem drawBuffer_scroll_idle (idle : seekTarget app bufferId messages = none) :
    (drawBuffer screen app bufferId messages).app.scrollOffset =
      min app.scrollOffset
        ((frameWalk screen app bufferId messages).rows.length - screen.height) := by
  rw [drawBuffer_scroll, requestedOffset_idle screen app idle]

section Sliced

variable (fits : (wrappedRows screen bufferId messages).length ≤ usizeMax)
include fits

theorem frameWalk_length :
    (wrappedRows screen bufferId (frameWalk screen app bufferId messages).left.reverse).length +
        (frameWalk screen app bufferId messages).rows.length =
          (wrappedRows screen bufferId messages).length ∧
      (frameWalk screen app bufferId messages).rows.length ≤ usizeMax := by
  have whole := congrArg List.length (frameWalk_rows screen app bufferId messages)
  rw [List.length_append] at whole
  exact ⟨whole, by omega⟩

/-- Where the walk stops early there is more than the view can show. -/
theorem frameWalk_tall (early : (frameWalk screen app bufferId messages).left ≠ []) :
    screen.height < (frameWalk screen app bufferId messages).rows.length := by
  have asked := @le_linesNeeded ρ screen app bufferId messages
  have stops := frameWalk_stops screen app bufferId messages early
  have small := (frameWalk_length screen app fits).2
  omega

/-- Every frame is a slice of all the wrapped lines. -/
theorem drawBuffer_slice :
    let full := wrappedRows screen bufferId messages
    let frame := drawBuffer screen app bufferId messages
    frame.app.scrollOffset ≤ full.length - screen.height ∧
      frame.shown = endSlice screen.height frame.app.scrollOffset full ∧
      (frame.app.chatScrollAtTop = true ↔ full.length ≤ screen.height + frame.app.scrollOffset) := by
  have scroll := drawBuffer_scroll screen app bufferId messages
  have top : (drawBuffer screen app bufferId messages).app.chatScrollAtTop =
      scrollPinnedAtTop (frameWalk screen app bufferId messages).left.isEmpty
        (drawBuffer screen app bufferId messages).app.scrollOffset
        (frameWalk screen app bufferId messages).rows.length screen.height := rfl
  have shown : (drawBuffer screen app bufferId messages).shown =
      ((frameWalk screen app bufferId messages).rows.drop
        ((frameWalk screen app bufferId messages).rows.length -
          saturatingAdd screen.height
            (drawBuffer screen app bufferId messages).app.scrollOffset)).take screen.height := rfl
  have whole := frameWalk_rows screen app bufferId messages
  have tall := frameWalk_tall screen app fits
  obtain ⟨length, small⟩ := frameWalk_length screen app fits
  simp only at scroll ⊢
  rw [shown, top]
  generalize (drawBuffer screen app bufferId messages).app.scrollOffset = offset at *
  generalize frameWalk screen app bufferId messages = walk at *
  have room : offset ≤ walk.rows.length - screen.height := by
    rw [scroll]
    exact Nat.min_le_right _ _
  have start : walk.rows.length - saturatingAdd screen.height offset =
      walk.rows.length - (screen.height + offset) := by
    rw [saturatingAdd]
    omega
  refine ⟨by omega, ?_, ?_⟩
  · rw [start, ← whole]
    by_cases all : walk.left = []
    · rw [all]
      rfl
    · have tall := tall all
      exact (endSlice_append _ _ (by omega)).symm
  · by_cases all : walk.left = []
    · rw [all] at length
      rw [all]
      simp only [scrollPinnedAtTop, List.isEmpty_nil, Bool.true_and, decide_eq_true_eq]
      have none_ : (wrappedRows screen bufferId ([] : List Message).reverse).length = 0 := rfl
      omega
    · have tall := tall all
      have some_ : (wrappedRows screen bufferId walk.left.reverse).length ≠ 0 := by
        rw [Ne, List.length_eq_zero_iff, wrappedRows_eq_nil, List.reverse_eq_nil_iff]
        exact all
      simp only [scrollPinnedAtTop, List.isEmpty_eq_false_iff.mpr all, Bool.false_and,
        Bool.false_eq_true, false_iff]
      omega

/-- Where the walk covers the requested view, only the whole buffer clamps the offset. -/
theorem drawBuffer_covered (idle : seekTarget app bufferId messages = none)
    (covered : saturatingAdd screen.height app.scrollOffset ≤ linesNeeded screen app bufferId messages) :
    (drawBuffer screen app bufferId messages).app.scrollOffset =
      min app.scrollOffset ((wrappedRows screen bufferId messages).length - screen.height) := by
  have whole := frameWalk_rows screen app bufferId messages
  have stops := frameWalk_stops screen app bufferId messages
  obtain ⟨length, small⟩ := frameWalk_length screen app fits
  rw [drawBuffer_scroll_idle screen app idle]
  generalize frameWalk screen app bufferId messages = walk at *
  by_cases all : walk.left = []
  · rw [← whole, all]
    rfl
  · have stops := stops all
    rw [saturatingAdd] at covered
    omega

/-- With an extent of this buffer at hand, a frame goes as far as it is asked to or as the extent
goes, unless it reaches the first line. -/
theorem drawBuffer_deeper (idle : seekTarget app bufferId messages = none) {extent : Nat}
    (walked : app.chatLineExtent = some (bufferId, extent)) :
    let frame := drawBuffer screen app bufferId messages
    frame.app.chatScrollAtTop = true ∨ min app.scrollOffset extent ≤ frame.app.scrollOffset := by
  have scroll := drawBuffer_scroll_idle screen app idle
  have slice := drawBuffer_slice screen app fits
  have asked := @linesNeeded_extent ρ screen app bufferId messages extent walked
  have stops := frameWalk_stops screen app bufferId messages
  obtain ⟨length, small⟩ := frameWalk_length screen app fits
  simp only at slice ⊢
  rw [slice.2.2, scroll]
  generalize frameWalk screen app bufferId messages = walk at *
  by_cases all : walk.left = []
  · rw [all] at length
    have none_ : (wrappedRows screen bufferId ([] : List Message).reverse).length = 0 := rfl
    omega
  · have stops := stops all
    rw [saturatingAdd, saturatingAdd] at asked
    exact .inr (by omega)

/-- The extent a frame leaves reaches behind the view it drew. -/
theorem drawBuffer_extent (tall : screen.height ≠ 0) :
    let frame := drawBuffer screen app bufferId messages
    ∃ extent, frame.app.chatLineExtent = some (bufferId, extent) ∧
      frame.app.scrollOffset ≤ extent ∧
      (frame.app.chatScrollAtTop = false → frame.app.scrollOffset < extent) := by
  have walked : (drawBuffer screen app bufferId messages).app.chatLineExtent =
      some (bufferId, (frameWalk screen app bufferId messages).rows.length) := rfl
  have scroll := drawBuffer_scroll screen app bufferId messages
  have high := frameWalk_tall screen app fits
  have slice := drawBuffer_slice screen app fits
  obtain ⟨length, small⟩ := frameWalk_length screen app fits
  refine ⟨_, walked, ?_⟩
  rw [← Bool.not_eq_true, slice.2.2]
  simp only at scroll
  generalize (drawBuffer screen app bufferId messages).app.scrollOffset = offset at *
  generalize frameWalk screen app bufferId messages = walk at *
  have room : offset ≤ walk.rows.length - screen.height := by
    rw [scroll]
    exact Nat.min_le_right _ _
  refine ⟨by omega, fun below => ?_⟩
  by_cases all : walk.left = []
  · rw [all] at length
    have none_ : (wrappedRows screen bufferId ([] : List Message).reverse).length = 0 := rfl
    omega
  · have high := high all
    omega

end Sliced

/-- Before the message at an index, its rows, and what is behind it. -/
theorem wrappedRows_split {index : Nat} {message : Message} (here : messages[index]? = some message) :
    messages = messages.take index ++ message :: messages.drop (index + 1) := by
  obtain ⟨inside, rfl⟩ := List.getElem?_eq_some_iff.mp here
  rw [← List.drop_eq_getElem_cons inside, List.take_append_drop]

/-- The walk of a frame with a message to place: it has wrapped that message, and unless it went
through the whole buffer a screen of lines above it. -/
theorem frameWalk_target {above below : List Message} {message : Message}
    (fits : (wrappedRows screen bufferId (above ++ message :: below)).length ≤ usizeMax)
    (alone : ∀ m ∈ below, m.rest.id ≠ message.rest.id)
    (sought : seekTarget app bufferId (above ++ message :: below) = some message.rest.id) :
    let walk := frameWalk screen app bufferId (above ++ message :: below)
    ∃ mid, above = walk.left.reverse ++ mid ∧
      walk.rows = wrappedRows screen bufferId mid ++
        (messageRows screen bufferId message ++ wrappedRows screen bufferId below) ∧
      (walk.left = [] ∨ (messageRows screen bufferId message).length +
        (wrappedRows screen bufferId below).length + screen.height < walk.rows.length) := by
  have backwards : (above ++ message :: below).reverse =
      below.reverse ++ message :: above.reverse := by simp
  have unseen : ∀ m ∈ below.reverse, m.rest.id ≠ message.rest.id := fun m member =>
    alone m (List.mem_reverse.mp member)
  have small : (wrappedRows screen bufferId (below.reverse ++ message :: above.reverse).reverse ++
      []).length ≤ usizeMax := by
    rw [← backwards, List.reverse_reverse, List.append_nil]
    exact fits
  have walked := walkMessages_target screen bufferId unseen []
    (linesNeeded screen app bufferId (above ++ message :: below)) small
  have begun : frameWalk screen app bufferId (above ++ message :: below) =
      walkMessages screen bufferId (some message.rest.id) []
        (linesNeeded screen app bufferId (above ++ message :: below)) true
        (above ++ message :: below).reverse := by
    simp only [frameWalk, sought, Option.isSome_some]
  have whole := frameWalk_rows screen app bufferId (above ++ message :: below)
  rw [← backwards, List.reverse_reverse, List.append_nil] at walked
  simp only at walked ⊢
  rw [← begun] at walked
  generalize frameWalk screen app bufferId (above ++ message :: below) = walk at *
  obtain ⟨⟨mid, parts⟩, context⟩ := walked
  have above_ : above = walk.left.reverse ++ mid.reverse := by
    rw [← List.reverse_reverse above, ← parts, List.reverse_append]
  refine ⟨mid.reverse, above_, ?_, context⟩
  rw [above_, List.append_assoc, wrappedRows_append] at whole
  rw [List.append_cancel_left whole, wrappedRows_append, ← List.singleton_append,
    wrappedRows_append, wrappedRows_singleton]

/-- The first row of a message. -/
theorem findIdx?_rows {mid : List Message} {message : Message} (rest : List (VisualRow ρ))
    (others : ∀ m ∈ mid, m.rest.id ≠ message.rest.id) :
    (wrappedRows screen bufferId mid ++ (messageRows screen bufferId message ++ rest)).findIdx?
      (fun row => row.message == message.rest.id) =
        some (wrappedRows screen bufferId mid).length := by
  have none_ : (wrappedRows screen bufferId mid).findIdx?
      (fun row => row.message == message.rest.id) = none := by
    rw [List.findIdx?_eq_none_iff]
    intro row member
    obtain ⟨m, listed, here⟩ := List.mem_flatMap.mp member
    rw [messageRows_message here]
    exact beq_eq_false_iff_ne.mpr (others m listed)
  cases rows : messageRows screen bufferId message with
  | nil => exact absurd rows (messageRows_ne_nil message)
  | cons row more =>
      have first : row.message = message.rest.id :=
        messageRows_message (by rw [rows]; exact List.mem_cons_self)
      rw [List.findIdx?_append, none_, List.cons_append, List.findIdx?_cons, first]
      simp

/-- A sought message is shown where it is placed, however far the walk went. -/
theorem drawBuffer_placed (fits : (wrappedRows screen bufferId messages).length ≤ usizeMax)
    (distinct : (messages.map fun m => m.rest.id).Nodup) {index : Nat} {message : Message}
    (here : messages[index]? = some message)
    (sought : seekTarget app bufferId messages = some message.rest.id) :
    (drawBuffer screen app bufferId messages).app.scrollOffset =
      placedOffset screen bufferId messages index := by
  have split := wrappedRows_split here
  rw [placedOffset]
  generalize messages.take index = above at *
  generalize messages.drop (index + 1) = below at *
  subst split
  rw [List.map_append, List.map_cons, List.nodup_middle, List.nodup_cons, List.mem_append,
    not_or] at distinct
  have newer : ∀ m ∈ below, m.rest.id ≠ message.rest.id := fun m member same =>
    distinct.1.2 (List.mem_map.mpr ⟨m, member, same⟩)
  obtain ⟨mid, above_, rows, context⟩ := frameWalk_target screen app fits newer sought
  have older : ∀ m ∈ mid, m.rest.id ≠ message.rest.id := fun m member same =>
    distinct.1.1 (List.mem_map.mpr ⟨m, by rw [above_]; exact List.mem_append_right _ member, same⟩)
  have length := frameWalk_length screen app fits
  rw [drawBuffer_scroll, requestedOffset, sought]
  simp only [Option.bind_some]
  rw [rows, findIdx?_rows screen _ older]
  generalize frameWalk screen app bufferId (above ++ message :: below) = walk at *
  subst above_
  rw [rows] at length context
  have none_ : (wrappedRows screen bufferId ([] : List Message)).length = 0 := rfl
  have whole : (wrappedRows screen bufferId (walk.left.reverse ++ mid)).length =
      (wrappedRows screen bufferId walk.left.reverse).length +
        (wrappedRows screen bufferId mid).length := by
    rw [wrappedRows_append, List.length_append]
  rw [← length.1]
  simp only [List.length_append] at length context
  simp only [whole, saturatingAdd, List.length_append]
  rcases context with all | context
  · rw [all, List.reverse_nil, none_]
    omega
  · omega

end Drawn

/-- The active buffer is a conversation with room on the screen, and its wrapped lines fit into
memory. -/
structure Drawable {ρ : Type} [Inhabited ρ] (screen : Screen ρ) (app : ChatApp) (bufferId : Str)
    (buffer : Buffer) : Prop where
  active : app.activeBuffer = some (bufferId, buffer)
  chat : buffer.bufferType ≠ .shell
  wide : screen.width ≠ 0
  tall : screen.height ≠ 0
  fits : (wrappedRows screen bufferId buffer.messages).length ≤ usizeMax

/-- The lines of a buffer, all wrapped. -/
def Drawable.full {ρ : Type} [Inhabited ρ] {screen : Screen ρ} {app : ChatApp} {bufferId : Str}
    {buffer : Buffer} (_ : Drawable screen app bufferId buffer) : List (VisualRow ρ) :=
  wrappedRows screen bufferId buffer.messages

section Frames

variable {ρ : Type} [Inhabited ρ] {screen : Screen ρ} {app : ChatApp} {bufferId : Str}
  {buffer : Buffer}

theorem Drawable.renderOnce (drawable : Drawable screen app bufferId buffer) :
    renderOnce screen app =
      drawBuffer screen { app with chatRows := none, chatScrollAtTop := false } bufferId
        buffer.messages := by
  simp [Ui.renderOnce, drawable.active, drawable.chat, drawable.wide, drawable.tall]

/-- The view asked for another offset. -/
def ChatApp.scrollTo (app : ChatApp) (offset : Nat) : ChatApp := { app with scrollOffset := offset }

theorem Drawable.scrollTo (drawable : Drawable screen app bufferId buffer) (offset : Nat) :
    Drawable screen ((Ui.renderOnce screen app).app.scrollTo offset) bufferId buffer := by
  refine ⟨?_, drawable.chat, drawable.wide, drawable.tall, drawable.fits⟩
  rw [drawable.renderOnce]
  exact drawable.active

theorem seekAfter_settled (seek : Option HighlightSeek) (requested scroll : Nat) :
    ∀ kept ∈ seekAfter seek false requested scroll,
      (kept.isPending && !kept.isDeferred) = false := by
  intro kept member
  simp only [seekAfter, Bool.false_eq_true, if_false] at member
  split at member
  · cases member
  · rename_i settled
    rw [Bool.not_eq_true, Option.any_eq_false] at settled
    simpa using settled kept member

/-- A frame without a seek to show leaves none waiting. -/
theorem Drawable.idle (drawable : Drawable screen app bufferId buffer)
    (idle : seekTarget app bufferId buffer.messages = none) (offset : Nat) :
    seekTarget ((Ui.renderOnce screen app).app.scrollTo offset) bufferId buffer.messages = none := by
  have settled : ∀ seek ∈ (Ui.renderOnce screen app).app.highlightSeek,
      (seek.isPending && !seek.isDeferred) = false := by
    have idle_ : seekTarget { app with chatRows := none, chatScrollAtTop := false } bufferId
        buffer.messages = none := idle
    rw [drawable.renderOnce]
    simp only [drawBuffer, idle_, Option.isSome_none]
    exact seekAfter_settled _ _ _
  rw [seekTarget]
  cases seek : (Ui.renderOnce screen app).app.highlightSeek with
  | none => simp [ChatApp.scrollTo, seek]
  | some seek_ =>
      have none_ := HighlightSeek.pendingTarget_eq_none (settled seek_ seek) bufferId offset
      simp [ChatApp.scrollTo, seek, none_]

/-- The frames that follow one another, each asked for the next offset. -/
def scrolledFrames (screen : Screen ρ) (asks : Nat → Nat) (app : ChatApp) : Nat → Frame ρ
  | 0 => Ui.renderOnce screen app
  | n + 1 => Ui.renderOnce screen ((scrolledFrames screen asks app n).app.scrollTo (asks n))

/-- What every frame of a run is drawn from. -/
theorem scrolledFrames_drawn (drawable : Drawable screen app bufferId buffer)
    (idle : seekTarget app bufferId buffer.messages = none) (asks : Nat → Nat) (n : Nat) :
    ∃ before, Drawable screen before bufferId buffer ∧
      seekTarget before bufferId buffer.messages = none ∧
      scrolledFrames screen asks app n = Ui.renderOnce screen before := by
  induction n with
  | zero => exact ⟨app, drawable, idle, rfl⟩
  | succ n ih =>
      obtain ⟨before, drawable, idle, frame⟩ := ih
      refine ⟨_, ?_, ?_, rfl⟩
      · rw [frame]
        exact drawable.scrollTo (asks n)
      · rw [frame]
        exact drawable.idle idle (asks n)

/-- A larger offset moves the view, or it has reached the first line. -/
theorem scrolledFrames_step (drawable : Drawable screen app bufferId buffer)
    (idle : seekTarget app bufferId buffer.messages = none) (asks : Nat → Nat) (n : Nat)
    (larger : (scrolledFrames screen asks app n).app.scrollOffset < asks n)
    (below : (scrolledFrames screen asks app n).app.chatScrollAtTop = false) :
    (scrolledFrames screen asks app (n + 1)).app.chatScrollAtTop = true ∨
      (scrolledFrames screen asks app n).app.scrollOffset <
        (scrolledFrames screen asks app (n + 1)).app.scrollOffset := by
  obtain ⟨before, drawn, idle_, frame⟩ := scrolledFrames_drawn drawable idle asks n
  have next : scrolledFrames screen asks app (n + 1) =
      Ui.renderOnce screen ((scrolledFrames screen asks app n).app.scrollTo (asks n)) := rfl
  have again := drawn.scrollTo (asks n)
  have idleAgain := drawn.idle idle_ (asks n)
  rw [next, frame, again.renderOnce]
  rw [frame] at larger below
  obtain ⟨extent, walked, -, further⟩ : ∃ extent,
      (Ui.renderOnce screen before).app.chatLineExtent = some (bufferId, extent) ∧
        (Ui.renderOnce screen before).app.scrollOffset ≤ extent ∧
        ((Ui.renderOnce screen before).app.chatScrollAtTop = false →
          (Ui.renderOnce screen before).app.scrollOffset < extent) := by
    rw [drawn.renderOnce]
    exact drawBuffer_extent screen _ drawn.fits drawn.tall
  have further := further below
  cases drawBuffer_deeper screen _ again.fits idleAgain walked with
  | inl top => exact .inl top
  | inr deeper =>
      refine .inr (Nat.lt_of_lt_of_le ?_ deeper)
      exact Nat.lt_min.mpr ⟨larger, further⟩

theorem Drawable.faithful (drawable : Drawable screen app bufferId buffer) :
    Faithful drawable.full (Ui.renderOnce screen app).shown screen.height
      (Ui.renderOnce screen app).app.scrollOffset (Ui.renderOnce screen app).app.chatScrollAtTop := by
  rw [drawable.renderOnce]
  have slice := drawBuffer_slice screen
    { app with chatRows := none, chatScrollAtTop := false } drawable.fits
  rw [slice.2.1]
  exact faithful_endSlice slice.1 slice.2.2

/-- A run of larger and larger offsets comes to the first line. -/
theorem scrolledFrames_top (drawable : Drawable screen app bufferId buffer)
    (idle : seekTarget app bufferId buffer.messages = none) (asks : Nat → Nat)
    (larger : ∀ n, (scrolledFrames screen asks app n).app.scrollOffset < asks n) :
    ∃ n ≤ drawable.full.length,
      (scrolledFrames screen asks app n).app.chatScrollAtTop = true := by
  by_contra never
  push Not at never
  have deeper : ∀ n ≤ drawable.full.length,
      n ≤ (scrolledFrames screen asks app n).app.scrollOffset := by
    intro n few
    induction n with
    | zero => exact Nat.zero_le _
    | succ n ih =>
        have below := Bool.eq_false_iff.mpr (never n (by omega))
        have step := scrolledFrames_step drawable idle asks n (larger n) below
        exact Nat.lt_of_le_of_lt (ih (by omega)) (step.resolve_left (never (n + 1) few))
  have last := deeper _ (Nat.le_refl _)
  obtain ⟨before, drawn, -, frame⟩ :=
    scrolledFrames_drawn drawable idle asks drawable.full.length
  obtain ⟨above, below, whole, under, top⟩ := drawn.faithful.slice
  have short := never _ (Nat.le_refl _)
  rw [frame] at last short
  have all : drawn.full.length = drawable.full.length := rfl
  rw [whole, List.length_append, List.length_append] at all
  exact short (top.mpr (List.length_eq_zero_iff.mp (by omega)))

/-- Rendering within the budget shows what rendering all of the buffer would: one slice of its
lines, ending the resulting offset above the last one. An offset the walk covers is clamped by the
whole buffer alone, and whoever keeps asking for more comes to the first line. -/
theorem renderOnce_budgeted (drawable : Drawable screen app bufferId buffer)
    (idle : seekTarget app bufferId buffer.messages = none) :
    Faithful drawable.full (Ui.renderOnce screen app).shown screen.height
        (Ui.renderOnce screen app).app.scrollOffset
        (Ui.renderOnce screen app).app.chatScrollAtTop ∧
      (saturatingAdd screen.height app.scrollOffset ≤
          linesNeeded screen app bufferId buffer.messages →
        (Ui.renderOnce screen app).app.scrollOffset =
          min app.scrollOffset (drawable.full.length - screen.height)) ∧
      ∀ asks : Nat → Nat, (∀ n, (scrolledFrames screen asks app n).app.scrollOffset < asks n) →
        ∃ n ≤ drawable.full.length,
          (scrolledFrames screen asks app n).app.chatScrollAtTop = true := by
  refine ⟨drawable.faithful, fun covered => ?_, scrolledFrames_top drawable idle⟩
  rw [drawable.renderOnce]
  exact drawBuffer_covered screen { app with chatRows := none, chatScrollAtTop := false }
    drawable.fits idle covered

theorem scrolledFrames_le (drawable : Drawable screen app bufferId buffer)
    (idle : seekTarget app bufferId buffer.messages = none) (asks : Nat → Nat) (n : Nat) :
    (scrolledFrames screen asks app n).app.scrollOffset ≤ drawable.full.length := by
  obtain ⟨before, drawn, -, frame⟩ := scrolledFrames_drawn drawable idle asks n
  obtain ⟨above, below, whole, under, -⟩ := drawn.faithful.slice
  have all : drawn.full.length = drawable.full.length := rfl
  rw [whole, List.length_append] at all
  rw [frame]
  omega

end Frames

def plainMessage (id : Nat) (highlight : Bool) : Message where
  text := []
  wireOrigin := none
  rest :=
    { id := id
      timestamp := 0
      messageType := .message
      nick := some "peer".toList
      highlight := highlight
      eventKey := none
      tags := none
      logKey := none
      redactionMsgid := none }

def plainBuffer (messages : List Message) : Buffer where
  connectionId := "net".toList
  bufferType := .channel
  name := "#chan".toList
  messages := messages
  activity := .none
  unreadCount := 0
  users := Table.empty
  pinBacklog := false
  historyExhausted := false

/-- One channel, just opened, under a scrollback limit. -/
def plainApp (limit : Nat) (messages : List Message) : ChatApp where
  state :=
    { buffers := Map.insert Table.empty "net/#chan".toList (plainBuffer messages)
      connections := Table.empty
      readActivity := Table.empty
      readIdentities := Table.empty
      activityCounter := 0
      activityOrder := Table.empty
      activeBufferId := some "net/#chan".toList
      messageCounter := messages.length
      scrollbackLimit := limit
      translateQueues := Table.empty
      bouncerMetadata := Table.empty
      metadataCasemappings := Table.empty }
  scrollOffset := 0
  chatScrollAtTop := false
  chatRows := none
  chatLineExtent := none
  highlightSeek := none
  logBrowserMode := false
  bareDisplay := false
  webHistoryBuffers := []

/-- A screen on which each message takes a number of lines. -/
def plainScreen (height lines : Nat) (some_ : lines ≠ 0) : Screen Unit where
  width := 80
  height := height
  inlineEnabled := false
  wrapLine := fun _ => List.replicate lines ()
  directImage := fun _ => none
  wrapLine_ne_nil := fun _ empty => some_ ((List.replicate_eq_nil_iff ()).mp empty)

def twoLongMessages : ChatApp := plainApp 2000 [plainMessage 1 false, plainMessage 2 false]

/-- Two messages longer than the estimate, in a low window. -/
theorem renderOnce_budgeted_long : ∃ n ≤ 40,
    (scrolledFrames (plainScreen 5 20 (by decide)) (fun _ => 41) twoLongMessages n).app.chatScrollAtTop =
      true := by
  have drawable : Drawable (plainScreen 5 20 (by decide)) twoLongMessages "net/#chan".toList
      (plainBuffer [plainMessage 1 false, plainMessage 2 false]) :=
    ⟨rfl, by decide, by decide, by decide, by decide⟩
  have idle : seekTarget twoLongMessages "net/#chan".toList
      [plainMessage 1 false, plainMessage 2 false] = none := rfl
  exact (renderOnce_budgeted drawable idle).2.2 (fun _ => 41) fun n =>
    Nat.lt_succ_of_le (scrolledFrames_le drawable idle _ n)

end Repartee.Ui
