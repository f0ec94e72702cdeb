import Repartee.Lib.Run
import Repartee.Text

/-!
The output of an attached terminal: what is written is gathered in a buffer, handed to a channel
at a flush, and counted until the task at the other end has written it to the socket. While a
frame is open a flush hands over nothing.
-/

namespace Repartee.Session

open Lib

def usizeMax : Nat := 2 ^ 64 - 1

inductive ErrorKind where
  | brokenPipe
  | wouldBlock
  deriving DecidableEq

inductive MainMessage where
  | output (data : Bytes)
  | detached
  | quit
  | outputAcks
  deriving DecidableEq

def MainMessage.bytes : MainMessage → Bytes
  | output data => data
  | _ => []

structure OutputBuffer where
  bytes : Bytes
  frame : Bool
  failed : Option ErrorKind
  deriving DecidableEq

def OutputBuffer.default : OutputBuffer := ⟨[], false, none⟩

/-- The writer, the count it shares with the output task, the channel between them, the message
the task is writing and those it has written. -/
structure SocketOutput where
  buffer : OutputBuffer
  queuedBytes : Nat
  closed : Bool
  channel : List MainMessage
  writing : Option MainMessage
  drained : List MainMessage
  deriving DecidableEq

inductive Outcome where
  | done
  /-- A frame that is not begun, since earlier output is still on its way. -/
  | deferred
  | failed (kind : ErrorKind)
  deriving DecidableEq

inductive Op where
  | beginFrame
  | finishFrame
  | cancelFrame
  | write (bytes : Bytes)
  | flush
  | control (message : MainMessage)
  | receive
  | account
  | close
  deriving DecidableEq

namespace SocketOutput

def new : SocketOutput := ⟨.default, 0, false, [], none, []⟩

variable (max : Nat)

def beginFrame (output : SocketOutput) : SocketOutput × Outcome :=
  if output.closed = false ∧ output.queuedBytes ≠ 0 then (output, .deferred)
  else ({ output with buffer := { output.buffer with frame := true } }, .done)

def flushBuffer (output : SocketOutput) : SocketOutput × Outcome :=
  match output.buffer.failed with
  | some kind => (output, .failed kind)
  | none =>
      if output.buffer.frame ∨ output.buffer.bytes = [] then (output, .done)
      else
        let next := output.queuedBytes + output.buffer.bytes.length
        if usizeMax < next ∨ max < next then (output, .failed .wouldBlock)
        else
          let taken := { output with buffer := { output.buffer with bytes := [] } }
          if output.closed then (taken, .failed .brokenPipe)
          else
            ({ taken with
               queuedBytes := next
               channel := output.channel ++ [.output output.buffer.bytes] }, .done)

def finishFrame (output : SocketOutput) : SocketOutput × Outcome :=
  flushBuffer max { output with buffer := { output.buffer with frame := false } }

def cancelFrame (output : SocketOutput) : SocketOutput := { output with buffer := .default }

def write (bytes : Bytes) (output : SocketOutput) : SocketOutput × Outcome :=
  let failed := if output.closed then some .brokenPipe else output.buffer.failed
  match failed with
  | some kind => ({ output with buffer := { output.buffer with failed := failed } }, .failed kind)
  | none =>
      if max < min (output.buffer.bytes.length + bytes.length) usizeMax then
        ({ output with buffer := { output.buffer with failed := some .wouldBlock } },
          .failed .wouldBlock)
      else
        ({ output with buffer := { output.buffer with bytes := output.buffer.bytes ++ bytes } },
          .done)

/-- A message without output, sent past the writer. -/
def control (message : MainMessage) (output : SocketOutput) : SocketOutput :=
  if output.closed ∨ message.bytes ≠ [] then output
  else { output with channel := output.channel ++ [message] }

def receive (output : SocketOutput) : SocketOutput :=
  match output.writing, output.channel with
  | none, message :: rest => { output with channel := rest, writing := some message }
  | _, _ => output

/-- The task has done with the message and takes its bytes off the count. -/
def account (output : SocketOutput) : SocketOutput :=
  match output.writing with
  | none => output
  | some message =>
      { output with
        queuedBytes := output.queuedBytes - message.bytes.length
        writing := none
        drained := output.drained ++ [message] }

def step (output : SocketOutput) : Op → SocketOutput × Outcome
  | .beginFrame => output.beginFrame
  | .finishFrame => output.finishFrame max
  | .cancelFrame => (output.cancelFrame, .done)
  | .write bytes => output.write max bytes
  | .flush => output.flushBuffer max
  | .control message => (output.control message, .done)
  | .receive => (output.receive, .done)
  | .account => (output.account, .done)
  | .close => ({ output with closed := true }, .done)

def exec (output : SocketOutput) (op : Op) : SocketOutput := (output.step max op).1

def run (output : SocketOutput) (ops : List Op) : SocketOutput := runFrom (exec max) output ops

/-- The steps of a run with what the writer was told of each. -/
def trace (output : SocketOutput) : List Op → List (Op × Outcome)
  | [] => []
  | op :: rest => (op, (output.step max op).2) :: trace (output.exec max op) rest

def messages (output : SocketOutput) : List MainMessage :=
  output.drained ++ output.writing.toList ++ output.channel

/-- Every byte the channel was ever handed. -/
def stream (output : SocketOutput) : Bytes := output.messages.flatMap MainMessage.bytes

/-- The bytes that were sent and not yet taken off the count. -/
def undrained (output : SocketOutput) : Nat :=
  ((output.writing.toList ++ output.channel).flatMap MainMessage.bytes).length

end SocketOutput

section Fates

/-- Whether a frame is open behind a step. -/
def frameAfter (frame : Bool) : Op × Outcome → Bool
  | (.beginFrame, .done) => true
  | (.finishFrame, _) => false
  | (.cancelFrame, _) => false
  | _ => frame

/-- Whether a step hands over what waits, or discards it; most do neither. -/
def settles (frame : Bool) : Op × Outcome → Option Bool
  | (.cancelFrame, _) => some false
  | (.finishFrame, .done) => some true
  | (.finishFrame, .failed .brokenPipe) => some false
  | (.flush, .done) => if frame then none else some true
  | (.flush, .failed .brokenPipe) => some false
  | _ => none

/-- Whether what waits before these steps is handed over in them. -/
def handedLater (frame : Bool) : List (Op × Outcome) → Bool
  | [] => false
  | step :: rest => (settles frame step).getD (handedLater (frameAfter frame step) rest)

/-- The bytes a step added to those that wait. -/
def accepted : Op × Outcome → Bytes
  | (.write bytes, .done) => bytes
  | _ => []

/-- The bytes written in these steps that are handed over in them, in order. -/
def handedBytes (frame : Bool) : List (Op × Outcome) → Bytes
  | [] => []
  | step :: rest =>
      (if handedLater (frameAfter frame step) rest then accepted step else []) ++
        handedBytes (frameAfter frame step) rest

end Fates

namespace SocketOutput

section Steps

variable (max : Nat) (output : SocketOutput)

/-- What a flush can do: fail with its frame, hand over nothing, find the queue full or the
channel closed, or hand over what the buffer holds. -/
theorem flushBuffer_cases :
    (∃ kind, output.buffer.failed = some kind ∧ output.flushBuffer max = (output, .failed kind)) ∨
    (output.buffer.failed = none ∧ (output.buffer.frame = true ∨ output.buffer.bytes = []) ∧
      output.flushBuffer max = (output, .done)) ∨
    (output.buffer.failed = none ∧ output.flushBuffer max = (output, .failed .wouldBlock)) ∨
    (output.buffer.failed = none ∧ output.buffer.frame = false ∧
      output.flushBuffer max =
        ({ output with buffer := { output.buffer with bytes := [] } }, .failed .brokenPipe)) ∨
    (output.buffer.failed = none ∧ output.buffer.frame = false ∧
      output.queuedBytes + output.buffer.bytes.length ≤ max ∧
      output.flushBuffer max =
        ({ output with
           buffer := { output.buffer with bytes := [] }
           queuedBytes := output.queuedBytes + output.buffer.bytes.length
           channel := output.channel ++ [.output output.buffer.bytes] }, .done)) := by
  cases failed : output.buffer.failed with
  | some kind => exact Or.inl ⟨kind, rfl, by rw [flushBuffer, failed]⟩
  | none =>
      right
      by_cases idle : output.buffer.frame = true ∨ output.buffer.bytes = []
      · exact Or.inl ⟨rfl, idle, by simp only [flushBuffer, failed, if_pos idle]⟩
      right
      by_cases full : usizeMax < output.queuedBytes + output.buffer.bytes.length ∨
          max < output.queuedBytes + output.buffer.bytes.length
      · exact Or.inl ⟨rfl, by simp only [flushBuffer, failed, if_neg idle, if_pos full]⟩
      right
      have shape : output.flushBuffer max = if output.closed then
          ({ output with buffer := { output.buffer with bytes := [] } }, .failed .brokenPipe)
          else ({ output with
            buffer := { output.buffer with bytes := [] }
            queuedBytes := output.queuedBytes + output.buffer.bytes.length
            channel := output.channel ++ [.output output.buffer.bytes] }, .done) := by
        simp only [flushBuffer, failed, if_neg idle, if_neg full]
      have open_ : output.buffer.frame = false := by simpa using fun framed => idle (Or.inl framed)
      cases closed : output.closed with
      | true => exact Or.inl ⟨rfl, open_, by rw [shape, closed, if_pos rfl]⟩
      | false =>
          refine Or.inr ⟨rfl, open_, by omega, ?_⟩
          rw [shape, closed, if_neg Bool.false_ne_true]

theorem write_cases (bytes : Bytes) :
    (∃ kind, output.write max bytes =
      ({ output with buffer := { output.buffer with failed := some kind } }, .failed kind)) ∨
    (output.buffer.failed = none ∧ output.write max bytes =
      ({ output with buffer := { output.buffer with bytes := output.buffer.bytes ++ bytes } },
        .done)) := by
  unfold write
  simp only
  split
  · rename_i kind failed
    left
    exact ⟨kind, by rw [failed]⟩
  · rename_i unfailed
    have none_ : output.buffer.failed = none := by
      cases closed : output.closed <;> simp_all
    split
    · exact Or.inl ⟨.wouldBlock, rfl⟩
    · exact Or.inr ⟨none_, rfl⟩

theorem frame_exec (op : Op) :
    (output.exec max op).buffer.frame =
      frameAfter output.buffer.frame (op, (output.step max op).2) := by
  cases op with
  | beginFrame =>
      simp only [exec, step, beginFrame]
      split <;> rfl
  | finishFrame =>
      simp only [exec, step, finishFrame]
      rcases flushBuffer_cases max { output with buffer := { output.buffer with frame := false } }
        with ⟨kind, -, shape⟩ | ⟨-, -, shape⟩ | ⟨-, shape⟩ | ⟨-, -, shape⟩ | ⟨-, -, -, shape⟩ <;>
        rw [shape] <;> rfl
  | cancelFrame => rfl
  | write bytes =>
      simp only [exec, step]
      rcases write_cases max output bytes with ⟨kind, shape⟩ | ⟨-, shape⟩ <;> rw [shape] <;> rfl
  | flush =>
      simp only [exec, step]
      rcases flushBuffer_cases max output
        with ⟨kind, -, shape⟩ | ⟨-, -, shape⟩ | ⟨-, shape⟩ | ⟨-, -, shape⟩ | ⟨-, -, -, shape⟩ <;>
        rw [shape] <;> rfl
  | control message =>
      simp only [exec, step, control]
      split <;> rfl
  | receive =>
      simp only [exec, step, receive]
      split <;> rfl
  | account =>
      simp only [exec, step, account]
      split <;> rfl
  | close => rfl

end Steps

section Stream

variable (max : Nat)

@[simp] theorem run_nil (output : SocketOutput) : output.run max [] = output := rfl

@[simp] theorem run_cons (output : SocketOutput) (op : Op) (ops : List Op) :
    output.run max (op :: ops) = (output.exec max op).run max ops := rfl

theorem run_append (output : SocketOutput) (first second : List Op) :
    output.run max (first ++ second) = (output.run max first).run max second :=
  runFrom_append output first second

theorem trace_append (output : SocketOutput) (first second : List Op) :
    output.trace max (first ++ second) =
      output.trace max first ++ (output.run max first).trace max second := by
  induction first generalizing output with
  | nil => rfl
  | cons op rest ih => simp [trace, ih]

/-- A refused write is remembered until the frame is cancelled. -/
theorem failed_exec (output : SocketOutput) (op : Op) (failed : output.buffer.failed ≠ none)
    (kept : op ≠ .cancelFrame) : (output.exec max op).buffer.failed ≠ none := by
  cases op with
  | cancelFrame => exact absurd rfl kept
  | beginFrame =>
      simp only [exec, step, beginFrame]
      split <;> exact failed
  | finishFrame =>
      obtain ⟨kind, same⟩ := Option.ne_none_iff_exists'.mp failed
      simp [exec, step, finishFrame, flushBuffer, same]
  | write bytes =>
      rcases write_cases max output bytes with ⟨kind, shape⟩ | ⟨none_, -⟩
      · simp [exec, step, shape]
      · exact absurd none_ failed
  | flush =>
      obtain ⟨kind, same⟩ := Option.ne_none_iff_exists'.mp failed
      simp [exec, step, flushBuffer, same]
  | control message =>
      simp only [exec, step, control]
      split <;> exact failed
  | receive =>
      simp only [exec, step, receive]
      split <;> exact failed
  | account =>
      simp only [exec, step, account]
      split <;> exact failed
  | close => exact failed

/-- Nothing that waits behind a refused write is handed over. -/
theorem handedLater_failed (output : SocketOutput) (failed : output.buffer.failed ≠ none)
    (frame : Bool) (ops : List Op) : handedLater frame (output.trace max ops) = false := by
  induction ops generalizing output frame with
  | nil => rfl
  | cons op rest ih =>
      by_cases cancelled : op = .cancelFrame
      · subst cancelled
        rfl
      · have later := ih (output.exec max op) (failed_exec max output op failed cancelled)
        obtain ⟨kind, same⟩ := Option.ne_none_iff_exists'.mp failed
        have unsettled : settles frame (op, (output.step max op).2) ≠ some true := by
          cases op <;> simp [settles, step, finishFrame, flushBuffer, same] <;> cases kind <;> simp
        rw [trace, handedLater, later]
        cases settled : settles frame (op, (output.step max op).2) with
        | none => rfl
        | some handed =>
            cases handed with
            | false => rfl
            | true => exact absurd settled unsettled

/-- What the steps will still hand over: what waits now, if it is handed over, and what they
accept and hand over themselves. -/
def pending (output : SocketOutput) (steps : List (Op × Outcome)) : Bytes :=
  (if handedLater output.buffer.frame steps then output.buffer.bytes else []) ++
    handedBytes output.buffer.frame steps

/-- A step leaves what waits and adds to it, hands all of it over, or loses it: the buffer is
emptied, or holds on to it for good. -/
inductive Moved (output next : SocketOutput) (step : Op × Outcome) : Prop where
  | kept (unsettled : settles output.buffer.frame step = none)
      (stream : next.stream = output.stream)
      (bytes : next.buffer.bytes = output.buffer.bytes ++ accepted step)
  | handed (settled : settles output.buffer.frame step = some true)
      (quiet : accepted step = [])
      (stream : next.stream = output.stream ++ output.buffer.bytes)
      (bytes : next.buffer.bytes = [])
  | lost (settled : settles output.buffer.frame step = some false)
      (quiet : accepted step = [])
      (stream : next.stream = output.stream)
      (bytes : next.buffer.bytes = [] ∨ next.buffer.failed ≠ none)

theorem stream_send (output : SocketOutput) (buffer : OutputBuffer) (count : Nat) (data : Bytes) :
    stream { output with
      buffer := buffer
      queuedBytes := count
      channel := output.channel ++ [.output data] } = output.stream ++ data := by
  simp [stream, messages, MainMessage.bytes]

theorem flush_moved (output : SocketOutput) :
    Moved output (output.exec max .flush) (.flush, (output.step max .flush).2) := by
  simp only [exec, step]
  rcases flushBuffer_cases max output with ⟨kind, failed, shape⟩ | ⟨-, idle, shape⟩ | ⟨-, shape⟩ |
    ⟨-, -, shape⟩ | ⟨-, open_, -, shape⟩ <;> rw [shape]
  · cases kind with
    | brokenPipe => exact .lost rfl rfl rfl (Or.inr (by simp [failed]))
    | wouldBlock => exact .kept rfl rfl (by simp [accepted])
  · cases framed : output.buffer.frame with
    | true => exact .kept (by simp [settles, framed]) rfl (by simp [accepted])
    | false =>
        have empty : output.buffer.bytes = [] := by simpa [framed] using idle
        exact .handed (by simp [settles, framed]) rfl (by simp [empty]) empty
  · exact .kept rfl rfl (by simp [accepted])
  · exact .lost rfl rfl rfl (Or.inl rfl)
  · exact .handed (by simp [settles, open_]) rfl (stream_send output _ _ _) rfl

theorem finishFrame_moved (output : SocketOutput) :
    Moved output (output.exec max .finishFrame) (.finishFrame, (output.step max .finishFrame).2) := by
  simp only [exec, step, finishFrame]
  rcases flushBuffer_cases max { output with buffer := { output.buffer with frame := false } }
    with ⟨kind, failed, shape⟩ | ⟨-, idle, shape⟩ | ⟨-, shape⟩ | ⟨-, -, shape⟩ |
      ⟨-, -, -, shape⟩ <;> rw [shape]
  · cases kind with
    | brokenPipe => exact .lost rfl rfl rfl (Or.inr (by simpa using failed ▸ Option.some_ne_none _))
    | wouldBlock => exact .kept rfl rfl (by simp [accepted])
  · have empty : output.buffer.bytes = [] := by simpa using idle
    exact .handed rfl rfl (by simp [empty, stream, messages]) empty
  · exact .kept rfl rfl (by simp [accepted])
  · exact .lost rfl rfl rfl (Or.inl rfl)
  · exact .handed rfl rfl (stream_send output _ _ _) rfl

theorem exec_moved (output : SocketOutput) (op : Op) :
    Moved output (output.exec max op) (op, (output.step max op).2) := by
  cases op with
  | beginFrame =>
      simp only [exec, step, beginFrame]
      split <;> exact .kept rfl rfl (by simp [accepted])
  | finishFrame => exact finishFrame_moved max output
  | cancelFrame => exact .lost rfl rfl rfl (Or.inl rfl)
  | write bytes =>
      simp only [exec, step]
      rcases write_cases max output bytes with ⟨kind, shape⟩ | ⟨-, shape⟩ <;> rw [shape]
      · exact .kept rfl rfl (by simp [accepted])
      · exact .kept rfl rfl (by simp [accepted])
  | flush => exact flush_moved max output
  | control message =>
      simp only [exec, step, control]
      split
      · exact .kept rfl rfl (by simp [accepted])
      · rename_i quiet
        simp only [not_or, not_not] at quiet
        exact .kept rfl (by simp [stream, messages, quiet.2]) (by simp [accepted])
  | receive =>
      simp only [exec, step, receive]
      split
      · rename_i idle waiting
        exact .kept rfl (by simp [stream, messages, idle, waiting]) (by simp [accepted])
      · exact .kept rfl rfl (by simp [accepted])
  | account =>
      simp only [exec, step, account]
      split
      · exact .kept rfl rfl (by simp [accepted])
      · rename_i message writing
        exact .kept rfl (by simp [stream, messages, writing]) (by simp [accepted])
  | close => exact .kept rfl rfl (by simp [exec, step, accepted])

/-- One step keeps the stream and what is still to come together. -/
theorem pending_exec (output : SocketOutput) (op : Op) (rest : List Op) :
    output.stream ++ output.pending (output.trace max (op :: rest)) =
      (output.exec max op).stream ++
        (output.exec max op).pending ((output.exec max op).trace max rest) := by
  have frame := frame_exec max output op
  have moved := exec_moved max output op
  simp only [pending, trace, handedLater, handedBytes]
  rw [← frame]
  cases moved with
  | kept unsettled stream bytes =>
      rw [unsettled, stream, bytes]
      cases handedLater (output.exec max op).buffer.frame ((output.exec max op).trace max rest) <;>
        simp
  | handed settled quiet stream bytes => simp [settled, quiet, stream, bytes]
  | lost settled quiet stream bytes =>
      rw [settled, quiet, stream]
      cases bytes with
      | inl empty => simp [empty]
      | inr failed => simp [handedLater_failed max (output.exec max op) failed]

theorem stream_run (output : SocketOutput) (ops : List Op) :
    (output.run max ops).stream = output.stream ++ output.pending (output.trace max ops) := by
  induction ops generalizing output with
  | nil => simp [pending, trace, handedLater, handedBytes]
  | cons op rest ih => rw [run_cons, ih, pending_exec]

end Stream

section Count

variable (max : Nat)

/-- The count is what was sent and is not accounted for yet, within the bound. -/
def Counted (output : SocketOutput) : Prop :=
  output.queuedBytes = output.undrained ∧ output.queuedBytes ≤ max

theorem Counted.flush {max : Nat} {output : SocketOutput} (counted : Counted max output) :
    Counted max (output.flushBuffer max).1 := by
  rcases flushBuffer_cases max output with ⟨kind, -, shape⟩ | ⟨-, -, shape⟩ | ⟨-, shape⟩ |
    ⟨-, -, shape⟩ | ⟨-, -, fits, shape⟩ <;> rw [shape]
  · exact counted
  · exact counted
  · exact counted
  · exact counted
  · refine ⟨?_, fits⟩
    have same := counted.1
    simp only [undrained, List.flatMap_append, List.length_append] at same ⊢
    simp [same, MainMessage.bytes]
    omega

theorem Counted.exec {max : Nat} {output : SocketOutput} (counted : Counted max output) (op : Op) :
    Counted max (output.exec max op) := by
  obtain ⟨same, bound⟩ := counted
  cases op with
  | beginFrame =>
      simp only [SocketOutput.exec, step, beginFrame]
      split <;> exact ⟨same, bound⟩
  | finishFrame =>
      have unframed : Counted max
          { output with buffer := { output.buffer with frame := false } } := ⟨same, bound⟩
      exact unframed.flush
  | cancelFrame => exact ⟨same, bound⟩
  | write bytes =>
      simp only [SocketOutput.exec, step]
      rcases write_cases max output bytes with ⟨kind, shape⟩ | ⟨-, shape⟩ <;> rw [shape] <;>
        exact ⟨same, bound⟩
  | flush => exact Counted.flush ⟨same, bound⟩
  | control message =>
      simp only [SocketOutput.exec, step, control]
      split
      · exact ⟨same, bound⟩
      · rename_i quiet
        simp only [not_or, not_not] at quiet
        exact ⟨by simpa [undrained, quiet.2] using same, bound⟩
  | receive =>
      simp only [SocketOutput.exec, step, receive]
      split
      · rename_i idle waiting
        exact ⟨by simpa [undrained, idle, waiting] using same, bound⟩
      · exact ⟨same, bound⟩
  | account =>
      simp only [SocketOutput.exec, step, account]
      split
      · exact ⟨same, bound⟩
      · rename_i message writing
        simp only [undrained, writing] at same
        refine ⟨?_, by simp only; omega⟩
        simp [undrained, same]
  | close => exact ⟨same, bound⟩

theorem counted_run (output : SocketOutput) (counted : Counted max output) (ops : List Op) :
    Counted max (output.run max ops) :=
  runFrom_invariant (Counted max) (fun _ op held => Counted.exec held op) output ops counted

end Count

section Frames

variable (max : Nat)

theorem settles_open (op : Op) (outcome : Outcome) (unfinished : op ≠ .finishFrame) :
    settles true (op, outcome) ≠ some true := by
  cases op with
  | finishFrame => exact absurd rfl unfinished
  | flush =>
      cases outcome with
      | done => simp [settles]
      | deferred => simp [settles]
      | failed kind => cases kind <;> simp [settles]
  | _ => simp [settles]

theorem frameAfter_open (op : Op) (outcome : Outcome) (unfinished : op ≠ .finishFrame)
    (unsettled : settles true (op, outcome) = none) : frameAfter true (op, outcome) = true := by
  cases op with
  | finishFrame => exact absurd rfl unfinished
  | cancelFrame => simp [settles] at unsettled
  | beginFrame => cases outcome <;> rfl
  | _ => rfl

/-- While the frame stays open nothing is handed over, so it depends on what comes behind. -/
theorem handedLater_open (output : SocketOutput) (framed : output.buffer.frame = true)
    (during rest : List Op) (unfinished : .finishFrame ∉ during)
    (behind : (output.run max during).buffer.frame = true →
      handedLater true ((output.run max during).trace max rest) = false) :
    handedLater true (output.trace max (during ++ rest)) = false := by
  induction during generalizing output with
  | nil => exact behind framed
  | cons op more ih =>
      simp only [List.mem_cons, not_or] at unfinished
      have first : op ≠ .finishFrame := Ne.symm unfinished.1
      rw [List.cons_append, trace, handedLater]
      cases settled : settles true (op, (output.step max op).2) with
      | none =>
          have still := frameAfter_open op _ first settled
          rw [Option.getD_none, still]
          apply ih (output.exec max op) _ unfinished.2 behind
          rw [frame_exec, framed, still]
      | some handed =>
          cases handed with
          | false => rfl
          | true => exact absurd settled (settles_open op _ first)

/-- Steps that neither flush nor finish hand over nothing before a cancellation. -/
theorem handedLater_idle (output : SocketOutput) (frame : Bool) (idle rest : List Op)
    (unflushed : .flush ∉ idle) (unfinished : .finishFrame ∉ idle) :
    handedLater frame (output.trace max (idle ++ .cancelFrame :: rest)) = false := by
  induction idle generalizing output frame with
  | nil => rfl
  | cons op more ih =>
      simp only [List.mem_cons, not_or] at unflushed unfinished
      rw [List.cons_append, trace, handedLater, ih _ _ unflushed.2 unfinished.2]
      cases op with
      | finishFrame => exact absurd rfl unfinished.1
      | flush => exact absurd rfl unflushed.1
      | cancelFrame => rfl
      | _ => simp [settles]

end Frames

/-- What the writer of an attached terminal promises of its output. -/
structure WholeFrames (max : Nat) : Prop where
  stream : ∀ ops, (new.run max ops).stream = handedBytes false (new.trace max ops)
  cancelled : ∀ before bytes during after,
    (new.run max (before ++ [.write bytes])).buffer.frame = true → .finishFrame ∉ during →
      handedLater true ((new.run max (before ++ [.write bytes])).trace max
        (during ++ .cancelFrame :: after)) = false
  unfinished : ∀ before bytes during idle after kind,
    (new.run max (before ++ [.write bytes])).buffer.frame = true → .finishFrame ∉ during →
      ((new.run max (before ++ .write bytes :: during)).step max .finishFrame).2 = .failed kind →
        .flush ∉ idle → .finishFrame ∉ idle →
          handedLater true ((new.run max (before ++ [.write bytes])).trace max
            (during ++ .finishFrame :: (idle ++ .cancelFrame :: after))) = false
  refused : ∀ before bytes during more after kind,
    (new.run max (before ++ [.write bytes])).buffer.frame = true → .finishFrame ∉ during →
      ((new.run max (before ++ .write bytes :: during)).step max (.write more)).2 = .failed kind →
        handedLater true ((new.run max (before ++ [.write bytes])).trace max
          (during ++ .write more :: after)) = false
  kept : ∀ ops op, op = .flush ∨ op = .finishFrame →
    ((new.run max ops).step max op).2 = .failed .wouldBlock →
      ((new.run max ops).exec max op).buffer.bytes = (new.run max ops).buffer.bytes
  counted : ∀ ops, (new.run max ops).queuedBytes = (new.run max ops).undrained ∧
    (new.run max ops).queuedBytes ≤ max

theorem run_write (max : Nat) (before during : List Op) (bytes : Bytes) :
    (new.run max (before ++ [.write bytes])).run max during =
      new.run max (before ++ .write bytes :: during) := by
  rw [← run_append, List.append_assoc]
  rfl

theorem flush_kept (max : Nat) (output : SocketOutput)
    (full : (output.flushBuffer max).2 = .failed .wouldBlock) :
    (output.flushBuffer max).1.buffer.bytes = output.buffer.bytes := by
  rcases flushBuffer_cases max output with ⟨kind, -, shape⟩ | ⟨-, -, shape⟩ | ⟨-, shape⟩ |
    ⟨-, -, shape⟩ | ⟨-, -, -, shape⟩ <;> rw [shape] at full ⊢
  · simp at full
  · simp at full

/-- The terminal is sent whole frames only. -/
theorem whole_frames (max : Nat) : WholeFrames max where
  stream := by
    intro ops
    rw [stream_run]
    change (if _ then [] else []) ++ handedBytes false _ = _
    split <;> rfl
  cancelled := by
    intro before bytes during after framed unfinished
    apply handedLater_open max _ framed during _ unfinished
    intro _
    rfl
  unfinished := by
    intro before bytes during idle after kind framed unfinished refused unflushed calm
    apply handedLater_open max _ framed during _ unfinished
    intro _
    rw [run_write, trace, handedLater, refused,
      handedLater_idle max _ _ idle after unflushed calm]
    cases kind <;> rfl
  refused := by
    intro before bytes during more after kind framed unfinished refused
    apply handedLater_open max _ framed during _ unfinished
    intro _
    rw [run_write, trace, handedLater, handedLater_failed]
    · rfl
    · rcases write_cases max (new.run max (before ++ .write bytes :: during)) more with
        ⟨kind, shape⟩ | ⟨-, shape⟩
      · simp [exec, step, shape]
      · simp [step, shape] at refused
  kept := by
    intro ops op flushes full
    rcases flushes with rfl | rfl
    · exact flush_kept max _ full
    · exact flush_kept max { new.run max ops with
        buffer := { (new.run max ops).buffer with frame := false } } full
  counted := fun ops => counted_run max new ⟨rfl, Nat.zero_le max⟩ ops

end SocketOutput

end Repartee.Session
