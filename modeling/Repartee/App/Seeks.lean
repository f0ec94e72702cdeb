import Repartee.Ui.ChatView

/-!
The seeks to the previous and the next highlight: a press is applied at once where the view is
known, and otherwise waits, with those that follow it, for the frame it is resolved against.
-/

namespace Repartee.App

open Text Lib State Ui

/-- Where a sequence of seeks stands: the rendered view with the message indices of its top and
bottom rows, a highlight an earlier seek landed on, or the live end. -/
inductive SeekPosition where
  | view (top bottom : Option Nat)
  | at_ (index : Nat)
  | live
  deriving DecidableEq

def indexOf (messages : List Message) (id : Nat) : Option Nat :=
  messages.findIdx? fun message => message.rest.id == id

def viewPosition (rows : ChatRows) (bufferId : Str) (messages : List Message) : SeekPosition :=
  .view ((rows.topMessage bufferId).bind (indexOf messages))
    ((rows.bottomMessage bufferId).bind (indexOf messages))

def pinsBacklog (bufferType : BufferType) : Bool :=
  bufferType == .channel || bufferType == .query || bufferType == .dccChat

def pinActiveBacklog (app : ChatApp) : ChatApp :=
  if app.logBrowserMode then app
  else match app.activeBuffer with
    | some (bufferId, buffer) =>
        if pinsBacklog buffer.bufferType then
          { app with
            state := app.state.adjustBuffer bufferId fun buffer => { buffer with pinBacklog := true } }
        else app
    | none => app

/-- The newest messages, as many as the limit lets stay; zero is no limit. -/
def trimmed (limit : Nat) (messages : List Message) : List Message :=
  if 0 < limit ∧ limit < messages.length then messages.drop (messages.length - limit) else messages

def collapseBufferBacklog (app : ChatApp) (bufferId : Str) : ChatApp :=
  if app.webHistoryBuffers.contains bufferId then app
  else
    { app with
      state := app.state.adjustBuffer bufferId fun buffer =>
        if buffer.pinBacklog then
          { buffer with
            pinBacklog := false
            historyExhausted := false
            messages := trimmed app.state.scrollbackLimit buffer.messages }
        else buffer }

/-- Frees the loaded history once the user is back at the live end. -/
def collapseBacklogIfAtBottom (app : ChatApp) : ChatApp :=
  if app.scrollOffset ≠ 0 ∨ app.logBrowserMode ∨ app.bareDisplay ∨
      app.highlightSeek.any HighlightSeek.isPending then app
  else match app.state.activeBufferId with
    | some bufferId => collapseBufferBacklog app bufferId
    | none => app

def deferSeeks (app : ChatApp) (bufferId : Str) (queue : List SeekDirection) : ChatApp :=
  { app with highlightSeek := some ⟨bufferId, app.scrollOffset, .deferred queue⟩ }

/-- Where one seek leads. -/
def seekFrom (messages : List Message) (position : SeekPosition) (direction : SeekDirection)
    (from_ : Option Nat) : SeekPosition :=
  match nearestHighlight messages direction from_ with
  | some found => .at_ found
  | none => if direction = .next then .live else position

/-- Applies the queue in order, until it returns to the live end: what is left then needs the edges
of the live view. -/
def advance (messages : List Message) :
    SeekPosition → List SeekDirection → SeekPosition × List SeekDirection
  | position, [] => (position, [])
  | .live, queue => (.live, queue)
  | .at_ index, direction :: queue =>
      advance messages (seekFrom messages (.at_ index) direction (some index)) queue
  | .view top bottom, .previous :: queue =>
      advance messages (seekFrom messages (.view top bottom) .previous top) queue
  | .view top none, .next :: queue => advance messages (.view top none) queue
  | .view top (some bottom), .next :: queue =>
      advance messages (seekFrom messages (.view top (some bottom)) .next (some bottom)) queue

def runSeeks (app : ChatApp) (start : SeekPosition) (queue : List SeekDirection) : ChatApp :=
  match app.activeBuffer with
  | none => app
  | some (bufferId, buffer) =>
      match advance buffer.messages start queue with
      | (.at_ index, _) =>
          match buffer.messages[index]? with
          | some message =>
              { pinActiveBacklog app with
                highlightSeek := some ⟨bufferId, app.scrollOffset, .pending message.rest.id⟩ }
          -- an index the buffer does not have: the program would stop here
          | none => app
      | (.live, left) =>
          let app := collapseBacklogIfAtBottom { app with highlightSeek := none, scrollOffset := 0 }
          if left.isEmpty then app else deferSeeks app bufferId left
      | (.view _ _, _) =>
          if app.highlightSeek.any HighlightSeek.isDeferred then { app with highlightSeek := none }
          else app

/-- Where the first of the seeks pressed starts: at the message of the last seek, while the view
has not been scrolled by anything else, or at the edges of the rows on the screen, if they are
current. -/
def seekStart (app : ChatApp) (bufferId : Str) (messages : List Message) : Option SeekPosition :=
  match app.highlightSeek.filter fun seek => seek.valid bufferId app.scrollOffset with
  | some seek =>
      match seek.state with
      | .pending messageId => (indexOf messages messageId).map .at_
      | .shown messageId => (indexOf messages messageId).map .at_
      | .deferred _ => none
  | none =>
      (app.chatRows.filter fun rows => rows.renderedAt bufferId app.scrollOffset).map fun rows =>
        viewPosition rows bufferId messages

/-- The seeks that wait for the next frame. -/
def deferredQueue (app : ChatApp) (bufferId : Str) : Option (List SeekDirection) :=
  match app.highlightSeek.filter fun seek => seek.valid bufferId app.scrollOffset with
  | some seek =>
      match seek.state with
      | .deferred queue => some queue
      | _ => none
  | none => none

def seekHighlight (direction : SeekDirection) (app : ChatApp) : ChatApp :=
  match app.activeBuffer with
  | none => app
  | some (bufferId, buffer) =>
      if buffer.bufferType = .shell then app
      else match deferredQueue app bufferId with
        | some queue => deferSeeks app bufferId (queue ++ [direction])
        | none =>
            match seekStart app bufferId buffer.messages with
            | some start => runSeeks app start [direction]
            | none => deferSeeks app bufferId [direction]

/-- Resolves what waits against the rows just drawn; whether the view must be drawn again. -/
def resolveDeferredSeek (app : ChatApp) : Bool × ChatApp :=
  match app.highlightSeek with
  | some ⟨bufferId, offset, .deferred queue⟩ =>
      match app.chatRows.filter fun rows =>
          offset == app.scrollOffset && rows.renderedAt bufferId offset,
        app.state.buffers.get? bufferId with
      | some rows, some buffer =>
          let resolved := runSeeks app (viewPosition rows bufferId buffer.messages) queue
          (resolved.scrollOffset != offset || resolved.highlightSeek.any HighlightSeek.isPending,
            resolved)
      | _, _ => (false, { app with highlightSeek := none })
  | _ => (false, app)

section Render

variable {ρ : Type} [Inhabited ρ] (screen : Screen ρ)

def resolvePasses : Nat → ChatApp → ChatApp
  | 0, app => app
  | passes + 1, app =>
      let (again, resolved) := resolveDeferredSeek app
      if again then resolvePasses passes (renderOnce screen resolved).app else resolved

/-- The view drawn, and drawn again while seeks were waiting for it. -/
def render (app : ChatApp) : ChatApp := resolvePasses screen 8 (renderOnce screen app).app

/-- The seeks pressed before the next frame. -/
def pressAll (app : ChatApp) (presses : List SeekDirection) : ChatApp :=
  presses.foldl (fun app direction => seekHighlight direction app) app

/-- The seeks pressed one at a time, with a redraw after each. -/
def pressEach (app : ChatApp) (presses : List SeekDirection) : ChatApp :=
  presses.foldl (fun app direction => render screen (seekHighlight direction app)) app

/-- Where the view has come to: at a highlight, or an offset from the live end. -/
inductive Landing where
  | highlight (messageId : Nat)
  | offset (scrollOffset : Nat)
  | waiting
  deriving DecidableEq

def landing (app : ChatApp) (bufferId : Str) : Landing :=
  match app.highlightSeek.filter fun seek => seek.valid bufferId app.scrollOffset with
  | some ⟨_, _, .shown messageId⟩ => .highlight messageId
  | some _ => .waiting
  | none => .offset app.scrollOffset

end Render

end Repartee.App
