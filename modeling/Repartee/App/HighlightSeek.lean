import Repartee.Lib.Positions
import Repartee.State.Buffers

/-!
The last seek to a highlight, and what the chat renderer asks of it.
-/

namespace Repartee.App

open Text Lib State

inductive SeekDirection where
  | previous
  | next
  deriving DecidableEq

inductive SeekState where
  /-- The edges of the view are unknown; the renderer resolves these, in order, against the frame
  it draws. -/
  | deferred (queue : List SeekDirection)
  /-- Waiting for the renderer to scroll this message into view. -/
  | pending (messageId : Nat)
  /-- The renderer placed this message in view. -/
  | shown (messageId : Nat)
  deriving DecidableEq

/-- The offset is the one the seek was requested at, or where the renderer placed its target. -/
structure HighlightSeek where
  bufferId : Str
  offset : Nat
  state : SeekState
  deriving DecidableEq

namespace HighlightSeek

def valid (seek : HighlightSeek) (bufferId : Str) (scrollOffset : Nat) : Bool :=
  seek.bufferId == bufferId && seek.offset == scrollOffset

/-- Where the renderer should scroll to, unless the view moved since the request. -/
def pendingTarget (seek : HighlightSeek) (bufferId : Str) (scrollOffset : Nat) : Option Nat :=
  match seek.state with
  | .pending messageId => if seek.valid bufferId scrollOffset then some messageId else none
  | _ => none

def isPending (seek : HighlightSeek) : Bool :=
  match seek.state with
  | .shown _ => false
  | _ => true

def isDeferred (seek : HighlightSeek) : Bool :=
  match seek.state with
  | .deferred _ => true
  | _ => false

/-- A clamped offset is still the same view. -/
def followClamp (seek : HighlightSeek) (requested clamped : Nat) : HighlightSeek :=
  if seek.isDeferred ∧ seek.offset = requested then { seek with offset := clamped } else seek

def shownAt (seek : HighlightSeek) (offset : Nat) : HighlightSeek :=
  match seek.state with
  | .pending messageId => { seek with state := .shown messageId, offset := offset }
  | _ => seek

/-- Only a seek that waits for the renderer has a target. -/
theorem pendingTarget_eq_none {seek : HighlightSeek}
    (settled : (seek.isPending && !seek.isDeferred) = false) (bufferId : Str) (offset : Nat) :
    seek.pendingTarget bufferId offset = none := by
  obtain ⟨buffer, requested, state⟩ := seek
  cases state with
  | deferred queue => rfl
  | pending messageId => cases settled
  | shown messageId => rfl

end HighlightSeek

def isHighlight (message : Message) : Bool := message.rest.highlight

/-- The nearest highlight strictly before an index, or strictly after it. -/
def nearestHighlight (messages : List Message) (direction : SeekDirection) (from_ : Option Nat) :
    Option Nat :=
  match direction with
  | .previous => rposition isHighlight (messages.take (from_.getD messages.length))
  | .next => from_.bind fun index =>
      ((messages.drop (index + 1)).findIdx? isHighlight).map fun offset => index + 1 + offset

end Repartee.App
