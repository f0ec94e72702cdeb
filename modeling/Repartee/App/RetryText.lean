import Repartee.App.EchoRows
import Repartee.Commands.Parser
import Repartee.State.ReadConfluence

/-!
The text a refused message leaves in its author's composer, and what that text does when it is
submitted from there again.
-/

namespace Repartee.App

open Text Lib E2e Commands
open Repartee.State (casefold)

/-- Who submitted a message. -/
inductive SubmitOrigin where
  | script
  | tui
  | web (session : Str)
  deriving DecidableEq

/-- The client as far as submitting and handing back look at it. -/
structure Composers where
  state : State.AppState
  /-- By web session, the buffer it is recorded at. -/
  webActiveBuffers : Map Str Str
  /-- The sessions that may have gone elsewhere since. -/
  webBufferUnconfirmed : List Str
  /-- The input line of the terminal. -/
  inputValue : Str
  logBrowserMode : Bool
  /-- Whether a script takes the command for itself. -/
  scriptSuppresses : ParsedCommand → Bool

/-- A text in the composer of a buffer. -/
structure Restored where
  bufferId : Option Str
  text : Str
  deriving DecidableEq

namespace Composers

variable (app : Composers)

def lookingAt : SubmitOrigin → Option Str
  | .script => none
  | .tui => app.state.activeBufferId
  | .web session =>
      if session ∈ app.webBufferUnconfirmed then none else app.webActiveBuffers.get? session

/-- Restored only where the author is, and in the terminal only into an empty line. -/
def restoreInputTextTo (text : Str) : SubmitOrigin → Option Restored
  | .script => none
  | .web session => (app.webActiveBuffers.get? session).map fun bufferId => ⟨some bufferId, text⟩
  | .tui => if app.inputValue.isEmpty then some ⟨app.state.activeBufferId, text⟩ else none

def bufferOf (bufferId : Option Str) : Option State.Buffer := bufferId.bind app.state.buffers.get?

/-- Whether the buffer the author looks at bears the name of the target. -/
def composerIsTarget (origin : SubmitOrigin) (target : Str) : Bool :=
  (app.bufferOf (app.lookingAt origin)).any fun buffer => eqNocase buffer.name target

def meText (body : Str) : Str := "/me ".toList ++ body

def msgText (target body : Str) : Str := "/msg ".toList ++ (target ++ ' ' :: body)

def retryFormFor (origin : SubmitOrigin) (target body : Str) (isAction : Bool) : Str :=
  if isAction then meText body
  else if app.composerIsTarget origin target then body
  else msgText target body

end Composers

/-- What of a translated send its way back reads. -/
structure DeferredSend where
  connId : Str
  bufferId : Str
  bufferName : Str
  bufferType : BufferType
  isAction : Bool
  origin : SubmitOrigin
  retryText : Str
  retryBody : Str

namespace Composers

variable (app : Composers)

/-- Chosen again where the author is now; nothing when no form is right there. -/
def deferredRetryText (out : DeferredSend) : Option Str :=
  if out.origin = .script then none
  else if app.lookingAt out.origin = some out.bufferId then some out.retryText
  else if out.isAction then none
  else if (app.state.buffers.get? out.bufferId).isNone then none
  else
    match app.lookingAt out.origin with
    | none => none
    | some lookingAt =>
        if (app.state.buffers.get? lookingAt).all fun buffer => buffer.connectionId != out.connId then
          none
        else some (msgText out.bufferName out.retryBody)

end Composers

/-- Where a conversation went since. -/
inductive BufferRedirect where
  | stays
  | movedTo (bufferId : Str)
  | unknown

/-- Follows a renamed query; the first part says whether the send goes on. -/
def Composers.redirectOutgoingDeliver (app : Composers) (departed : Bool) (redirect : BufferRedirect)
    (out : DeferredSend) : Bool × DeferredSend :=
  if out.bufferType ≠ .channel ∧ departed = true then (false, out)
  else
    match redirect with
    | .stays => (true, out)
    | .unknown => (decide (out.bufferType = .channel), out)
    | .movedTo bufferId =>
        match app.state.buffers.get? bufferId with
        | none => (false, out)
        | some buffer =>
            (true,
              { out with
                bufferId := bufferId
                bufferName := buffer.name
                retryText :=
                  if out.isAction = false ∧ out.retryText ≠ out.retryBody then
                    Composers.msgText buffer.name out.retryBody
                  else out.retryText })

inductive Kind where
  | message
  | action
  | otherCtcp
  deriving DecidableEq

/-- What is handed to the gate. -/
structure Send where
  connId : Str
  target : Str
  body : Str
  kind : Kind
  deriving DecidableEq

/-- A wire text as the gate for sends by target reads it. -/
def gatedSend (connId target wireText : Str) : Send :=
  match translatableOutgoingBody wireText with
  | none => ⟨connId, target, wireText, .otherCtcp⟩
  | some body =>
      ⟨connId, target, body, if utf8Length body ≠ utf8Length wireText then .action else .message⟩

/-- What a submission comes to. -/
inductive Submitted where
  | sends (send : Send)
  | overDcc (nick text : Str)
  | runs (command : ParsedCommand)
  | nothing
  deriving DecidableEq

section Submit

variable (unicode : Irc.Unicode) (shellWords : Str → Option (List Str)) (app : Composers)
  (composer : Option Str)

def Composers.casemappingOf (connId : Str) : Str :=
  ((app.state.connections.get? connId).map State.Connection.casemapping).getD "rfc1459".toList

/-- The id and the name of the query for a target, open or not. -/
def ensureQueryBuffer (connId target : Str) : Str × Str :=
  let mapping := app.casemappingOf connId
  match app.state.buffers.rows.find? fun entry =>
      entry.2.connectionId = connId ∧ entry.2.bufferType = .query ∧
        casefold entry.2.name mapping = casefold target mapping with
  | some entry => (entry.1, entry.2.name)
  | none => (Irc.makeBufferId unicode connId target, target)

def cmdMsg : List Str → Submitted
  | target :: text :: _ =>
      match stripPrefix ['='] target with
      | some nick => .overDcc nick text
      | none =>
          match app.bufferOf composer with
          | none => .nothing
          | some buffer =>
              .sends (gatedSend buffer.connectionId
                (ensureQueryBuffer unicode app buffer.connectionId target).2 text)
  | _ => .nothing

def dccNick (name : Str) : Str := (stripPrefix ['='] name).getD name

def cmdMe : List Str → Submitted
  | [] => .nothing
  | action :: _ =>
      match app.bufferOf composer with
      | none => .nothing
      | some buffer =>
          if buffer.bufferType = .dccChat then .overDcc (dccNick buffer.name) (actionFrame action)
          else if buffer.bufferType = .channel ∨ buffer.bufferType = .query then
            .sends (gatedSend buffer.connectionId buffer.name (actionFrame action))
          else .nothing

def handlePlainMessage (text : Str) : Submitted :=
  match app.bufferOf composer with
  | none => .nothing
  | some buffer =>
      if buffer.bufferType = .dccChat then .overDcc (dccNick buffer.name) text
      else if buffer.bufferType = .channel ∨ buffer.bufferType = .query then
        .sends ⟨buffer.connectionId, buffer.name, text, .message⟩
      else .nothing

/-- The commands that hand back no text are not followed into their handlers. -/
def executeCommand (parsed : ParsedCommand) : Submitted :=
  if app.logBrowserMode then .nothing
  else if app.scriptSuppresses parsed then .nothing
  else if resolveAlias parsed.name = some "msg".toList then cmdMsg unicode app composer parsed.args
  else if resolveAlias parsed.name = some "me".toList then cmdMe app composer parsed.args
  else .runs parsed

def handleSubmit (text : Str) : Submitted :=
  match parseCommand unicode shellWords text with
  | some parsed => executeCommand unicode app composer parsed
  | none => if app.logBrowserMode then .nothing else handlePlainMessage app composer text

end Submit

/-- How a translated message was sent: typed into its buffer, or addressed to a target. -/
inductive Dispatch where
  | bufferInput (text : Str)
  | byTarget (body : Str) (isAction : Bool)

namespace Dispatch

def body : Dispatch → Str
  | bufferInput text => text
  | byTarget body _ => body

def isAction : Dispatch → Bool
  | bufferInput _ => false
  | byTarget _ isAction => isAction

/-- The send that was refused. -/
def send (d : Dispatch) (connId target : Str) : Send :=
  ⟨connId, target, d.body, if d.isAction then .action else .message⟩

end Dispatch

namespace Composers

variable (app : Composers)

/-- Buffer input retries as itself. -/
def dispatchText (origin : SubmitOrigin) (target : Str) : Dispatch → Str
  | .bufferInput text => text
  | .byTarget body isAction => app.retryFormFor origin target body isAction

def dispatched (origin : SubmitOrigin) (connId bufferId target : Str) (bufferType : BufferType)
    (d : Dispatch) : DeferredSend :=
  ⟨connId, bufferId, target, bufferType, d.isAction, origin, app.dispatchText origin target d, d.body⟩

/-- A send refused on the spot. -/
def refuseUntranslatableSend (origin : SubmitOrigin) (target : Str) (d : Dispatch) :
    Option Restored :=
  app.restoreInputTextTo (app.dispatchText origin target d) origin

/-- A send that fails later. -/
def abandonWithText (out : DeferredSend) : Option Restored :=
  (app.deferredRetryText out).bind fun text => app.restoreInputTextTo text out.origin

/-- A send that was dispatched in one state and is delivered, or given up, in another. -/
def delivered (before during : Composers) (origin : SubmitOrigin) (connId bufferId target : Str)
    (bufferType : BufferType) (d : Dispatch) (departed : Bool) (redirect : BufferRedirect) :
    DeferredSend :=
  (during.redirectOutgoingDeliver departed redirect
    (before.dispatched origin connId bufferId target bufferType d)).2

/-- Two names are one target where the server's case mapping says so. -/
def SameSend (a b : Send) : Prop :=
  a.connId = b.connId ∧ a.kind = b.kind ∧ a.body = b.body ∧
    casefold a.target (app.casemappingOf b.connId) = casefold b.target (app.casemappingOf b.connId)

/-- The line does what the send did. -/
def Resubmits (unicode : Irc.Unicode) (shellWords : Str → Option (List Str))
    (composer : Option Str) (line : Str) (send : Send) : Prop :=
  ∃ sent, handleSubmit unicode shellWords app composer line = .sends sent ∧ app.SameSend sent send

/-- What was restored, if anything, sends the same when it is submitted where it stands. -/
def DoesTheSame (unicode : Irc.Unicode) (shellWords : Str → Option (List Str))
    (restored : Option Restored) (send : Send) : Prop :=
  ∀ given ∈ restored, app.Resubmits unicode shellWords given.bufferId given.text send

/-- The composer a text would be restored into. -/
def restoresInto (origin : SubmitOrigin) : Option (Option Str) :=
  (app.restoreInputTextTo [] origin).map Restored.bufferId

/-- The composer stands in the conversation itself. -/
def InConversation (composer : Option Str) (connId target : Str) : Prop :=
  ∃ buffer, app.bufferOf composer = some buffer ∧
    (buffer.bufferType = .channel ∨ buffer.bufferType = .query) ∧ buffer.connectionId = connId ∧
      casefold buffer.name (app.casemappingOf connId) = casefold target (app.casemappingOf connId)

def OnConnection (composer : Option Str) (connId : Str) : Prop :=
  ∃ buffer, app.bufferOf composer = some buffer ∧ buffer.connectionId = connId

end Composers

/-- A name that is one word to the command line, and none of the names of direct chats. -/
def Addressable (target : Str) : Prop :=
  target ≠ [] ∧ ' ' ∉ target ∧ ∀ c ∈ target.head?, isWhitespace c = false ∧ c ≠ '='

/-- A text the command line keeps to its end, and that is no CTCP request. -/
def SpokenWhole (body : Str) : Prop :=
  body ≠ [] ∧ (∀ c ∈ body.getLast?, isWhitespace c = false) ∧
    translatableOutgoingBody body = some body

/-- The three forms of a text that is handed back. -/
inductive RetryForm where
  | asIs
  | msg
  | me

namespace RetryForm

def text (target body : Str) : RetryForm → Str
  | asIs => body
  | msg => Composers.msgText target body
  | me => Composers.meText body

def kind : RetryForm → Kind
  | asIs => .message
  | msg => .message
  | me => .action

/-- What has to hold of the composer, the target and the text for a form to do what it stands for. -/
def Works (app : Composers) (composer : Option Str) (connId target body : Str) : RetryForm → Prop
  | asIs => app.logBrowserMode = false ∧ app.InConversation composer connId target ∧
      body.head? ≠ some '/'
  | msg => app.logBrowserMode = false ∧ app.scriptSuppresses ⟨"msg".toList, [target, body]⟩ = false ∧
      app.OnConnection composer connId ∧ Addressable target ∧ SpokenWhole body
  | me => app.logBrowserMode = false ∧ app.scriptSuppresses ⟨"me".toList, [body]⟩ = false ∧
      app.InConversation composer connId target ∧ trim body = body

end RetryForm

/-- The form a send is handed back in, chosen where its author looks. -/
def Composers.formFor (app : Composers) (origin : SubmitOrigin) (target : Str) : Dispatch → RetryForm
  | .bufferInput _ => .asIs
  | .byTarget _ isAction =>
      if isAction then .me else if app.composerIsTarget origin target then .asIs else .msg

namespace Composers

variable (app : Composers)

def RefusedFits (origin : SubmitOrigin) (connId target : Str) (d : Dispatch) : Prop :=
  ∀ composer ∈ app.restoresInto origin,
    (app.formFor origin target d).Works app composer connId target d.body

/-- Where its author still looks at the conversation a message comes back in the form it was given
when it was sent; elsewhere on the connection it comes back addressed, and an action not at all. -/
def DeferredFits (out : DeferredSend) (form : RetryForm) : Prop :=
  ∀ composer ∈ app.restoresInto out.origin,
    if app.lookingAt out.origin = some out.bufferId then
      form.Works app composer out.connId out.bufferName out.retryBody
    else
      out.isAction = false → (app.state.buffers.get? out.bufferId).isSome = true →
        app.OnConnection (app.lookingAt out.origin) out.connId →
          RetryForm.msg.Works app composer out.connId out.bufferName out.retryBody

end Composers

section Forms

variable (app : Composers)

theorem formFor_text (origin : SubmitOrigin) (target : Str) (d : Dispatch) :
    app.dispatchText origin target d = (app.formFor origin target d).text target d.body := by
  cases d with
  | bufferInput text => rfl
  | byTarget body isAction =>
      simp only [Composers.dispatchText, Composers.retryFormFor, Composers.formFor]
      split
      · rfl
      · split <;> rfl

theorem formFor_kind (origin : SubmitOrigin) (connId target : Str) (d : Dispatch) :
    (app.formFor origin target d).kind = (d.send connId target).kind := by
  cases d with
  | bufferInput text => rfl
  | byTarget body isAction =>
      cases isAction with
      | true => rfl
      | false =>
          simp only [Composers.formFor, Bool.false_eq_true, if_false]
          split <;> rfl

theorem restoreInputTextTo_eq (text : Str) (origin : SubmitOrigin) :
    app.restoreInputTextTo text origin =
      (app.restoresInto origin).map fun bufferId => ⟨bufferId, text⟩ := by
  cases origin with
  | script => rfl
  | tui =>
      simp only [Composers.restoresInto, Composers.restoreInputTextTo]
      cases app.inputValue.isEmpty <;> rfl
  | web session =>
      simp only [Composers.restoresInto, Composers.restoreInputTextTo]
      cases app.webActiveBuffers.get? session <;> rfl

theorem casefold_length (name mapping : Str) : (casefold name mapping).length = name.length := by
  rw [casefold, List.length_map]

theorem trim_of_length {s : Str} (whole : (trim s).length = s.length) : trim s = s := by
  have short := (List.dropWhile_suffix (l := s) isWhitespace).length_le
  have kept := List.rdropWhile_prefix isWhitespace (s.dropWhile isWhitespace)
  have shorter := kept.length_le
  rw [Config.Env.trim_eq] at whole ⊢
  have front : s.dropWhile isWhitespace = s :=
    (List.dropWhile_suffix _).eq_of_length (by omega)
  rw [front] at whole kept ⊢
  exact kept.eq_of_length whole

end Forms

section Gate

variable {connId target wireText : Str}

theorem stripPrefix_eq_some {start text rest : Str} (stripped : stripPrefix start text = some rest) :
    text = start ++ rest := by
  unfold stripPrefix at stripped
  split at stripped
  · rename_i isPrefix
    obtain ⟨tail, rfl⟩ := List.isPrefixOf_iff_prefix.mp isPrefix
    rw [← Option.some.inj stripped, List.drop_left]
  · cases stripped

theorem stripSuffix_eq_some {tail text front : Str} (stripped : stripSuffix tail text = some front) :
    text = front ++ tail := by
  unfold stripSuffix at stripped
  split at stripped
  · rename_i isSuffix
    obtain ⟨start, rfl⟩ := List.isSuffixOf_iff_suffix.mp isSuffix
    rw [← Option.some.inj stripped]
    simp
  · cases stripped

/-- What has something to translate is a message as it stands, or the frame of an action. -/
theorem translatableOutgoingBody_cases {body : Str}
    (prose : translatableOutgoingBody wireText = some body) :
    body = wireText ∨ wireText = actionFrame body := by
  rw [translatableOutgoingBody] at prose
  cases framed : (stripPrefix [ctcpDelimiter] wireText).bind (stripSuffix [ctcpDelimiter]) with
  | none =>
      rw [framed] at prose
      exact .inl (Option.some.inj prose).symm
  | some ctcp =>
      rw [framed] at prose
      obtain ⟨inner, opened, closed⟩ := Option.bind_eq_some_iff.mp framed
      right
      rw [stripPrefix_eq_some opened, stripSuffix_eq_some closed, stripPrefix_eq_some prose,
        actionFrame_eq]
      simp

theorem gatedSend_plain (plain : translatableOutgoingBody wireText = some wireText) :
    gatedSend connId target wireText = ⟨connId, target, wireText, .message⟩ := by
  rw [gatedSend, plain]
  simp

theorem gatedSend_frame (body : Str) :
    gatedSend connId target (actionFrame body) = ⟨connId, target, body, .action⟩ := by
  have longer : utf8Length body ≠ utf8Length (actionFrame body) := by
    rw [utf8Length_actionFrame]
    omega
  rw [gatedSend, translatableOutgoingBody_frame]
  simp only [ne_eq, longer, not_false_eq_true, if_true]

/-- Only a text without a frame goes out as a message. -/
theorem plain_of_message (message : (gatedSend connId target wireText).kind = .message) :
    translatableOutgoingBody wireText = some wireText := by
  cases prose : translatableOutgoingBody wireText with
  | none =>
      rw [gatedSend, prose] at message
      cases message
  | some body =>
      cases translatableOutgoingBody_cases prose with
      | inl whole => rw [whole]
      | inr frame =>
          rw [frame, gatedSend_frame] at message
          cases message

end Gate

section Submissions

variable {unicode : Irc.Unicode} {shellWords : Str → Option (List Str)} {app : Composers}
  {composer : Option Str} {connId target body : Str}

theorem ensureQueryBuffer_target :
    casefold (ensureQueryBuffer unicode app connId target).2 (app.casemappingOf connId) =
      casefold target (app.casemappingOf connId) := by
  simp only [ensureQueryBuffer]
  split
  · rename_i entry found
    have matches_ := List.find?_some found
    simp only [decide_eq_true_eq] at matches_
    exact matches_.2.2
  · rfl

theorem resolves_msg : resolveAlias "msg".toList = some "msg".toList := by decide +kernel

theorem resolves_me : resolveAlias "me".toList = some "me".toList := by decide +kernel

theorem executeCommand_msg {args : List Str} (live : app.logBrowserMode = false)
    (passed : app.scriptSuppresses ⟨"msg".toList, args⟩ = false) :
    executeCommand unicode app composer ⟨"msg".toList, args⟩ = cmdMsg unicode app composer args := by
  rw [executeCommand, live, passed, if_neg Bool.false_ne_true, if_neg Bool.false_ne_true,
    if_pos resolves_msg]

theorem executeCommand_me {args : List Str} (live : app.logBrowserMode = false)
    (passed : app.scriptSuppresses ⟨"me".toList, args⟩ = false) :
    executeCommand unicode app composer ⟨"me".toList, args⟩ = cmdMe app composer args := by
  have other : resolveAlias "me".toList ≠ some "msg".toList := by rw [resolves_me]; decide
  rw [executeCommand, live, passed, if_neg Bool.false_ne_true, if_neg Bool.false_ne_true,
    if_neg other, if_pos resolves_me]

/-- A command that sends was let through, and is one of the two. -/
theorem executeCommand_sends {parsed : ParsedCommand} {sent : Send}
    (sends : executeCommand unicode app composer parsed = .sends sent) :
    app.logBrowserMode = false ∧ app.scriptSuppresses parsed = false ∧
      (resolveAlias parsed.name = some "msg".toList ∧
          cmdMsg unicode app composer parsed.args = .sends sent ∨
        resolveAlias parsed.name = some "me".toList ∧ cmdMe app composer parsed.args = .sends sent) := by
  unfold executeCommand at sends
  split at sends
  · cases sends
  rename_i live
  split at sends
  · cases sends
  rename_i passed
  refine ⟨Bool.eq_false_iff.mpr live, Bool.eq_false_iff.mpr passed, ?_⟩
  split at sends
  · rename_i msg
    exact .inl ⟨msg, sends⟩
  split at sends
  · rename_i me
    exact .inr ⟨me, sends⟩
  · cases sends

theorem cmdMsg_sends {args : List Str} {sent : Send}
    (sends : cmdMsg unicode app composer args = .sends sent) :
    ∃ named text more buffer, args = named :: text :: more ∧ stripPrefix ['='] named = none ∧
      app.bufferOf composer = some buffer ∧
      sent = gatedSend buffer.connectionId
        (ensureQueryBuffer unicode app buffer.connectionId named).2 text := by
  unfold cmdMsg at sends
  split at sends
  · rename_i named text more
    split at sends
    · cases sends
    rename_i irc
    split at sends
    · cases sends
    rename_i buffer opened
    exact ⟨named, text, more, buffer, rfl, irc, opened, (Submitted.sends.inj sends).symm⟩
  · cases sends

theorem cmdMe_sends {args : List Str} {sent : Send}
    (sends : cmdMe app composer args = .sends sent) :
    ∃ action more buffer, args = action :: more ∧ app.bufferOf composer = some buffer ∧
      (buffer.bufferType = .channel ∨ buffer.bufferType = .query) ∧
      sent = ⟨buffer.connectionId, buffer.name, action, .action⟩ := by
  unfold cmdMe at sends
  split at sends
  · cases sends
  rename_i action more
  split at sends
  · cases sends
  rename_i buffer opened
  split at sends
  · cases sends
  split at sends
  · rename_i talks
    rw [gatedSend_frame] at sends
    exact ⟨action, more, buffer, rfl, opened, talks, (Submitted.sends.inj sends).symm⟩
  · cases sends

theorem cmdMe_conversation {buffer : State.Buffer} (opened : app.bufferOf composer = some buffer)
    (talks : buffer.bufferType = .channel ∨ buffer.bufferType = .query) (action : Str) :
    cmdMe app composer [action] =
      .sends ⟨buffer.connectionId, buffer.name, action, .action⟩ := by
  have irc : buffer.bufferType ≠ .dccChat := by
    intro dcc
    rw [dcc] at talks
    exact talks.elim (fun same => by cases same) fun same => by cases same
  rw [cmdMe, opened]
  simp only [if_neg irc, if_pos talks, gatedSend_frame]

theorem handlePlainMessage_conversation {buffer : State.Buffer}
    (opened : app.bufferOf composer = some buffer)
    (talks : buffer.bufferType = .channel ∨ buffer.bufferType = .query) (text : Str) :
    handlePlainMessage app composer text =
      .sends ⟨buffer.connectionId, buffer.name, text, .message⟩ := by
  have irc : buffer.bufferType ≠ .dccChat := by
    intro dcc
    rw [dcc] at talks
    exact talks.elim (fun same => by cases same) fun same => by cases same
  rw [handlePlainMessage, opened]
  simp only [if_neg irc, if_pos talks]

theorem handlePlainMessage_sends {text : Str} {sent : Send}
    (sends : handlePlainMessage app composer text = .sends sent) :
    ∃ buffer, app.bufferOf composer = some buffer ∧
      (buffer.bufferType = .channel ∨ buffer.bufferType = .query) ∧
      sent = ⟨buffer.connectionId, buffer.name, text, .message⟩ := by
  unfold handlePlainMessage at sends
  split at sends
  · cases sends
  rename_i buffer opened
  split at sends
  · cases sends
  split at sends
  · rename_i talks
    exact ⟨buffer, opened, talks, (Submitted.sends.inj sends).symm⟩
  · cases sends

end Submissions

section Resubmit

variable {unicode : Irc.Unicode} {shellWords : Str → Option (List Str)} {app : Composers}
  {composer : Option Str} {connId target body : Str}

/-- A text that begins with a slash runs as a command, and no command says all of its own line. -/
theorem slash_resubmits (slash : body.head? = some '/') :
    ¬app.Resubmits unicode shellWords composer body ⟨connId, target, body, .message⟩ := by
  intro again
  rcases again with ⟨sent, submitted, same⟩
  rw [handleSubmit] at submitted
  cases reads : parseCommand unicode shellWords body with
  | none =>
      cases body with
      | nil => cases slash
      | cons c trimmed =>
          have first : c = '/' := by simpa using slash
          subst first
          have parses : (parseCommand unicode shellWords ('/' :: trimmed)).isSome = true :=
            parseCommand_slash trimmed
          rw [reads] at parses
          cases parses
  | some parsed =>
      rw [reads] at submitted
      have runs := executeCommand_sends submitted
      rcases runs.2.2 with msg | me
      · rcases cmdMsg_sends msg.2 with ⟨named, text, more, buffer, args, -, -, sentIs⟩
        have short : text.length < body.length := by
          apply msg_args_shorter reads msg.1
          rw [args]
          simp
        have message : (gatedSend buffer.connectionId
            (ensureQueryBuffer unicode app buffer.connectionId named).2 text).kind = .message := by
          rw [← sentIs]
          exact same.2.1
        have whole : sent.body = text := by rw [sentIs, gatedSend_plain (plain_of_message message)]
        have equal : text = body := by rw [← whole]; exact same.2.2.1
        rw [equal] at short
        exact absurd short (lt_irrefl _)
      · rcases cmdMe_sends me.2 with ⟨action, more, buffer, -, -, -, sentIs⟩
        have kind := same.2.1
        rw [sentIs] at kind
        cases kind

theorem asIs_resubmits :
    app.Resubmits unicode shellWords composer body ⟨connId, target, body, .message⟩ ↔
      RetryForm.asIs.Works app composer connId target body := by
  constructor
  · intro again
    by_cases slash : body.head? = some '/'
    · exact absurd again (slash_resubmits slash)
    rcases again with ⟨sent, submitted, same⟩
    rw [handleSubmit, parseCommand_plain (by
      intro c first
      rintro rfl
      exact slash first)] at submitted
    cases live : app.logBrowserMode with
    | true =>
        rw [live] at submitted
        cases submitted
    | false =>
        rw [live] at submitted
        rcases handlePlainMessage_sends submitted with ⟨buffer, opened, talks, rfl⟩
        exact ⟨live, ⟨buffer, opened, talks, same.1, same.2.2.2⟩, slash⟩
  · intro works
    rcases works with ⟨live, ⟨buffer, opened, talks, connected, named⟩, plain⟩
    refine ⟨⟨buffer.connectionId, buffer.name, body, .message⟩, ?_, connected, rfl, rfl, named⟩
    rw [handleSubmit, parseCommand_plain (by
      intro c first
      rintro rfl
      exact plain first), live]
    exact handlePlainMessage_conversation opened talks body

theorem me_resubmits (lowers : LowersAscii unicode) :
    app.Resubmits unicode shellWords composer (Composers.meText body)
        ⟨connId, target, body, .action⟩ ↔
      RetryForm.me.Works app composer connId target body := by
  have reads : handleSubmit unicode shellWords app composer (Composers.meText body) =
      executeCommand unicode app composer ⟨"me".toList, [trim body]⟩ := by
    rw [handleSubmit, Composers.meText, parse_me lowers]
  constructor
  · intro again
    rcases again with ⟨sent, submitted, same⟩
    rw [reads] at submitted
    have runs := executeCommand_sends submitted
    rcases runs.2.2 with msg | me
    · have other : some "me".toList = some "msg".toList := resolves_me.symm.trans msg.1
      exact absurd other (by decide)
    · rcases cmdMe_sends me.2 with ⟨action, more, buffer, args, opened, talks, rfl⟩
      have said : action = trim body := (List.cons.inj args).1.symm
      have kept : trim body = body := said.symm.trans same.2.2.1
      have passed := runs.2.1
      rw [kept] at passed
      exact ⟨runs.1, passed, ⟨buffer, opened, talks, same.1, same.2.2.2⟩, kept⟩
  · intro works
    rcases works with ⟨live, passed, ⟨buffer, opened, talks, connected, named⟩, kept⟩
    refine ⟨⟨buffer.connectionId, buffer.name, body, .action⟩, ?_, connected, rfl, rfl, named⟩
    rw [reads, kept, executeCommand_me live passed]
    exact cmdMe_conversation opened talks body

theorem Addressable.irc (addressable : Addressable target) : stripPrefix ['='] target = none := by
  unfold stripPrefix
  apply if_neg
  intro starts
  rcases List.isPrefixOf_iff_prefix.mp starts with ⟨rest, rfl⟩
  exact (addressable.2.2 '=' rfl).2 rfl

theorem wordAndRest_two {rest first tail : Str} {more : List Str}
    (divided : wordAndRest rest = first :: tail :: more) : more = [] := by
  unfold wordAndRest at divided
  split at divided
  · exact (List.cons.inj (List.cons.inj divided).2).2.symm
  · cases divided

/-- The line is cut after the target and nowhere else. -/
theorem wordAndRest_msg (addressable : Addressable target) (spoken : SpokenWhole body) :
    wordAndRest (trim (target ++ ' ' :: body)) = [target, body] := by
  have kept : trim (target ++ ' ' :: body) = target ++ ' ' :: body := by
    apply Config.Env.trim_solidEnds
    · intro c first
      cases target with
      | nil => exact absurd rfl addressable.1
      | cons d rest => exact (addressable.2.2 c first).1
    · intro c last
      apply spoken.2.1 c
      cases body with
      | nil => exact absurd rfl spoken.1
      | cons d rest => simpa [List.getLast?_append, List.getLast?_cons] using last
  rw [kept, wordAndRest, splitOnce_append ' ' target body addressable.2.1]

/-- The target and the text come back from the line only where the line is kept whole. -/
theorem msg_kept {named : Str} (divided : wordAndRest (trim (target ++ ' ' :: body)) = [named, body])
    (long : named.length = target.length) (irc : stripPrefix ['='] named = none) :
    named = target ∧ Addressable target ∧ body ≠ [] ∧
      ∀ c ∈ body.getLast?, isWhitespace c = false := by
  cases parts : splitOnce ' ' (trim (target ++ ' ' :: body)) with
  | none =>
      rw [wordAndRest, parts] at divided
      cases divided
  | some halves =>
      rw [wordAndRest, parts] at divided
      have first : halves.1 = named := (List.cons.inj divided).1
      have second : halves.2 = body := (List.cons.inj (List.cons.inj divided).2).1
      have read := (splitOnce_eq_some ' ' _ halves.1 halves.2).mp parts
      rw [first, second] at read
      have whole : trim (target ++ ' ' :: body) = target ++ ' ' :: body := by
        apply trim_of_length
        rw [read.1]
        simp [long]
      have same : named = target := List.append_cancel_right (read.1.symm.trans whole)
      have ends := Config.Env.solidEnds_of_trim _ whole
      rw [same] at read irc
      refine ⟨same, ⟨?_, read.2, ?_⟩, ?_, ?_⟩
      · rintro rfl
        exact absurd (ends.1 ' ' rfl) (by decide)
      · intro c head
        cases target with
        | nil => cases head
        | cons d rest =>
            have here : d = c := by simpa using head
            refine ⟨ends.1 c head, ?_⟩
            rintro rfl
            rw [here] at irc
            cases irc
      · rintro rfl
        exact absurd (ends.2 ' ' (by simp)) (by decide)
      · intro c last
        apply ends.2 c
        cases body with
        | nil => cases last
        | cons d rest => simpa [List.getLast?_append, List.getLast?_cons] using last

theorem msg_resubmits (lowers : LowersAscii unicode) :
    app.Resubmits unicode shellWords composer (Composers.msgText target body)
        ⟨connId, target, body, .message⟩ ↔
      RetryForm.msg.Works app composer connId target body := by
  have reads : handleSubmit unicode shellWords app composer (Composers.msgText target body) =
      executeCommand unicode app composer
        ⟨"msg".toList, wordAndRest (trim (target ++ ' ' :: body))⟩ := by
    rw [handleSubmit, Composers.msgText, parse_msg lowers]
  constructor
  · intro again
    rcases again with ⟨sent, submitted, same⟩
    rw [reads] at submitted
    have runs := executeCommand_sends submitted
    rcases runs.2.2 with msg | me
    · rcases cmdMsg_sends msg.2 with ⟨named, text, more, buffer, args, irc, opened, sentIs⟩
      have message : (gatedSend buffer.connectionId
          (ensureQueryBuffer unicode app buffer.connectionId named).2 text).kind = .message := by
        rw [← sentIs]
        exact same.2.1
      have plain := plain_of_message message
      rw [gatedSend_plain plain] at sentIs
      rw [sentIs] at same
      have connected : buffer.connectionId = connId := same.1
      have said : text = body := same.2.2.1
      have folded := same.2.2.2
      simp only at folded
      rw [connected, ensureQueryBuffer_target] at folded
      have long : named.length = target.length := by
        rw [← casefold_length named, folded, casefold_length]
      have divided : wordAndRest (trim (target ++ ' ' :: body)) = [named, body] := by
        have two := wordAndRest_two args
        rw [two, said] at args
        exact args
      rcases msg_kept divided long irc with ⟨same_, addressable, some_, solid⟩
      have passed := runs.2.1
      rw [divided, same_] at passed
      rw [said] at plain
      exact ⟨runs.1, passed, ⟨buffer, opened, connected⟩, addressable, some_, solid, plain⟩
    · have other : some "msg".toList = some "me".toList := resolves_msg.symm.trans me.1
      exact absurd other (by decide)
  · intro works
    rcases works with ⟨live, passed, ⟨buffer, opened, connected⟩, addressable, spoken⟩
    refine ⟨⟨connId, (ensureQueryBuffer unicode app connId target).2, body, .message⟩, ?_, rfl, rfl,
      rfl, ensureQueryBuffer_target⟩
    rw [reads, wordAndRest_msg addressable spoken, executeCommand_msg live passed, cmdMsg,
      addressable.irc, opened]
    simp only [connected, gatedSend_plain spoken.2.2]

theorem form_resubmits (lowers : LowersAscii unicode) (form : RetryForm) :
    app.Resubmits unicode shellWords composer (form.text target body)
        ⟨connId, target, body, form.kind⟩ ↔
      form.Works app composer connId target body := by
  cases form with
  | asIs => exact asIs_resubmits
  | msg => exact msg_resubmits lowers
  | me => exact me_resubmits lowers

end Resubmit

/-- A send carries its text in the form it was given when it was sent. -/
structure DeferredSend.Renders (out : DeferredSend) (form : RetryForm) (d : Dispatch) : Prop where
  isAction : out.isAction = d.isAction
  kind : form.kind = if d.isAction then .action else .message
  retryBody : out.retryBody = d.body
  retryText : out.retryText = form.text out.bufferName d.body

section Deferred

variable {unicode : Irc.Unicode} {shellWords : Str → Option (List Str)}

theorem dispatched_renders (before : Composers) (origin : SubmitOrigin)
    (connId bufferId target : Str) (bufferType : BufferType) (d : Dispatch) :
    (before.dispatched origin connId bufferId target bufferType d).Renders
      (before.formFor origin target d) d :=
  ⟨rfl, formFor_kind before origin connId target d, rfl, formFor_text before origin target d⟩

theorem msgText_ne (target body : Str) : Composers.msgText target body ≠ body := by
  intro same
  have long := congrArg List.length same
  rw [Composers.msgText, List.length_append, List.length_append, List.length_cons] at long
  omega

/-- A renamed query keeps the form, under its new name. -/
theorem redirect_renders (during : Composers) (departed : Bool) (redirect : BufferRedirect)
    {out : DeferredSend} {form : RetryForm} {d : Dispatch} (renders : out.Renders form d) :
    (during.redirectOutgoingDeliver departed redirect out).2.Renders form d := by
  unfold Composers.redirectOutgoingDeliver
  split
  · exact renders
  cases redirect with
  | stays => exact renders
  | unknown => exact renders
  | movedTo bufferId =>
      simp only
      cases during.state.buffers.get? bufferId with
      | none => exact renders
      | some buffer =>
          refine ⟨renders.isAction, renders.kind, renders.retryBody, ?_⟩
          have text := renders.retryText
          have body := renders.retryBody
          have action := renders.isAction
          have kind := renders.kind
          show (if out.isAction = false ∧ out.retryText ≠ out.retryBody then
              Composers.msgText buffer.name out.retryBody else out.retryText) =
            form.text buffer.name d.body
          cases form with
          | asIs =>
              have same : out.retryText = out.retryBody := text.trans body.symm
              simp only [same, ne_eq, not_true_eq_false, and_false, if_false]
              exact body
          | msg =>
              have message : out.isAction = false := by
                cases isAction : d.isAction with
                | false => rw [action, isAction]
                | true => rw [isAction] at kind; cases kind
              have other : out.retryText ≠ out.retryBody := by
                rw [text, body]
                exact msgText_ne _ _
              rw [if_pos ⟨message, other⟩, body]
              rfl
          | me =>
              have action_ : out.isAction = true := by
                cases isAction : d.isAction with
                | true => rw [action, isAction]
                | false => rw [isAction] at kind; cases kind
              rw [if_neg (fun both => by rw [action_] at both; cases both.1), text]
              rfl

theorem redirect_connId (during : Composers) (departed : Bool) (redirect : BufferRedirect)
    (out : DeferredSend) :
    (during.redirectOutgoingDeliver departed redirect out).2.connId = out.connId := by
  unfold Composers.redirectOutgoingDeliver
  split
  · rfl
  cases redirect with
  | stays => rfl
  | unknown => rfl
  | movedTo bufferId =>
      simp only
      cases during.state.buffers.get? bufferId <;> rfl

theorem refused_does_the_same (lowers : LowersAscii unicode) (app : Composers)
    (origin : SubmitOrigin) (connId target : Str) (d : Dispatch) :
    app.DoesTheSame unicode shellWords (app.refuseUntranslatableSend origin target d)
        (d.send connId target) ↔
      app.RefusedFits origin connId target d := by
  have send : d.send connId target =
      ⟨connId, target, d.body, (app.formFor origin target d).kind⟩ := by
    rw [formFor_kind app origin connId target d]
    rfl
  unfold Composers.DoesTheSame Composers.refuseUntranslatableSend Composers.RefusedFits
  rw [restoreInputTextTo_eq, formFor_text, send]
  simp only [Option.mem_map, forall_exists_index, and_imp, forall_apply_eq_imp_iff₂,
    form_resubmits lowers]

/-- Away from the conversation a text comes back addressed, and only on its own connection. -/
theorem deferredRetryText_away (app : Composers) {out : DeferredSend}
    (typed : out.origin ≠ .script) (away : app.lookingAt out.origin ≠ some out.bufferId) (text : Str) :
    app.deferredRetryText out = some text ↔
      (out.isAction = false ∧ (app.state.buffers.get? out.bufferId).isSome = true ∧
        app.OnConnection (app.lookingAt out.origin) out.connId) ∧
        text = Composers.msgText out.bufferName out.retryBody := by
  unfold Composers.deferredRetryText Composers.OnConnection Composers.bufferOf
  rw [if_neg typed, if_neg away]
  cases out.isAction with
  | true => simp
  | false =>
      cases app.state.buffers.get? out.bufferId with
      | none => simp
      | some conversation =>
          cases app.lookingAt out.origin with
          | none => simp
          | some lookingAt =>
              simp only [Option.bind_some]
              cases app.state.buffers.get? lookingAt with
              | none => simp
              | some buffer =>
                  by_cases connected : buffer.connectionId = out.connId
                  · simp [connected, eq_comm]
                  · simp [connected]

theorem deferred_does_the_same (lowers : LowersAscii unicode) (app : Composers)
    {out : DeferredSend} {form : RetryForm} {d : Dispatch} (renders : out.Renders form d)
    {connId : Str} (connected : out.connId = connId) :
    app.DoesTheSame unicode shellWords (app.abandonWithText out) (d.send connId out.bufferName) ↔
      app.DeferredFits out form := by
  subst connected
  by_cases typed : out.origin = .script
  · have nothing : app.abandonWithText out = none := by
      unfold Composers.abandonWithText Composers.deferredRetryText
      rw [if_pos typed]
      rfl
    unfold Composers.DoesTheSame Composers.DeferredFits
    rw [nothing, typed]
    constructor
    · intro does composer into
      cases into
    · intro fits given restored
      cases restored
  unfold Composers.DoesTheSame Composers.DeferredFits Composers.abandonWithText
  by_cases here : app.lookingAt out.origin = some out.bufferId
  · have text : app.deferredRetryText out = some (form.text out.bufferName d.body) := by
      unfold Composers.deferredRetryText
      rw [if_neg typed, if_pos here, renders.retryText]
    have send : d.send out.connId out.bufferName =
        ⟨out.connId, out.bufferName, d.body, form.kind⟩ := by
      rw [renders.kind]
      rfl
    rw [text, Option.bind_some, restoreInputTextTo_eq, send, renders.retryBody]
    simp only [Option.mem_map, forall_exists_index, and_imp, forall_apply_eq_imp_iff₂,
      form_resubmits lowers, if_pos here]
  · simp only [if_neg here]
    have send (message : out.isAction = false) : d.send out.connId out.bufferName =
        ⟨out.connId, out.bufferName, out.retryBody, RetryForm.msg.kind⟩ := by
      rw [renders.isAction] at message
      rw [Dispatch.send, message, renders.retryBody]
      rfl
    constructor
    · intro does composer into message opened connected
      have text := (deferredRetryText_away app typed here _).mpr
        ⟨⟨message, opened, connected⟩, rfl⟩
      apply (form_resubmits lowers .msg).mp
      rw [← send message]
      apply does ⟨composer, Composers.msgText out.bufferName out.retryBody⟩
      rw [text, Option.bind_some, restoreInputTextTo_eq, Option.mem_map]
      exact ⟨composer, into, rfl⟩
    · intro fits given restored
      rcases Option.bind_eq_some_iff.mp restored with ⟨text, found, handed⟩
      rcases (deferredRetryText_away app typed here text).mp found with
        ⟨⟨message, opened, connected⟩, rfl⟩
      rw [restoreInputTextTo_eq, Option.map_eq_some_iff] at handed
      rcases handed with ⟨composer, into, rfl⟩
      rw [send message]
      exact (form_resubmits lowers .msg).mpr (fits composer into message opened connected)

/-- What is handed back sends the same message to the same target if and only if the form it is
handed back in fits the composer, the target and the text: for a send refused on the spot, and for one
that fails after its conversation may have been renamed and its author may have moved. -/
theorem retry_does_the_same (lowers : LowersAscii unicode) (app : Composers)
    (origin : SubmitOrigin) (connId target : Str) (d : Dispatch) :
    (app.DoesTheSame unicode shellWords (app.refuseUntranslatableSend origin target d)
        (d.send connId target) ↔ app.RefusedFits origin connId target d) ∧
      ∀ (before during : Composers) (bufferId : Str) (bufferType : BufferType) (departed : Bool)
        (redirect : BufferRedirect) (out : DeferredSend),
        out = before.delivered during origin connId bufferId target bufferType d departed redirect →
          (app.DoesTheSame unicode shellWords (app.abandonWithText out)
              (d.send connId out.bufferName) ↔
            app.DeferredFits out (before.formFor origin target d)) := by
  constructor
  · exact refused_does_the_same lowers app origin connId target d
  · rintro before during bufferId bufferType departed redirect out rfl
    have renders := redirect_renders during departed redirect
      (dispatched_renders before origin connId bufferId target bufferType d)
    have connected := redirect_connId during departed redirect
      (before.dispatched origin connId bufferId target bufferType d)
    exact deferred_does_the_same lowers app renders connected

end Deferred

section Query

/-- A terminal in the query with bob. -/
def bobsQuery : Composers where
  state :=
    { State.bouncerChannel 0 with
      buffers := Map.insert Table.empty "net/bob".toList
        ⟨"net".toList, .query, "bob".toList, [], .none, 0, Table.empty, false, false⟩
      activeBufferId := some "net/bob".toList }
  webActiveBuffers := Table.empty
  webBufferUnconfirmed := []
  inputValue := []
  logBrowserMode := false
  scriptSuppresses _ := false

def toBob (body : String) : Dispatch := .byTarget body.toList false

theorem retry_does_the_same_greeting :
    (bobsQuery.DoesTheSame .ascii (fun _ => none)
        (bobsQuery.refuseUntranslatableSend .tui "bob".toList (toBob "hello"))
        ((toBob "hello").send "net".toList "bob".toList) ↔
      bobsQuery.RefusedFits .tui "net".toList "bob".toList (toBob "hello")) ∧
      ∀ (before during : Composers) (bufferId : Str) (bufferType : BufferType) (departed : Bool)
        (redirect : BufferRedirect) (out : DeferredSend),
        out = before.delivered during .tui "net".toList bufferId "bob".toList bufferType
            (toBob "hello") departed redirect →
          (bobsQuery.DoesTheSame .ascii (fun _ => none) (bobsQuery.abandonWithText out)
              ((toBob "hello").send "net".toList out.bufferName) ↔
            bobsQuery.DeferredFits out (before.formFor .tui "bob".toList (toBob "hello"))) :=
  retry_does_the_same lowersAscii_ascii bobsQuery .tui "net".toList "bob".toList (toBob "hello")

/-- A command said to bob in his own window comes back bare, and runs. -/
theorem said_command_runs :
    handleSubmit .ascii (fun _ => none) bobsQuery (some "net/bob".toList)
        "/msg bob /quit".toList = .sends ((toBob "/quit").send "net".toList "bob".toList) ∧
      bobsQuery.refuseUntranslatableSend .tui "bob".toList (toBob "/quit") =
        some ⟨some "net/bob".toList, "/quit".toList⟩ ∧
      handleSubmit .ascii (fun _ => none) bobsQuery (some "net/bob".toList) "/quit".toList =
        .runs ⟨"quit".toList, []⟩ ∧
      ¬bobsQuery.DoesTheSame .ascii (fun _ => none)
        (bobsQuery.refuseUntranslatableSend .tui "bob".toList (toBob "/quit"))
        ((toBob "/quit").send "net".toList "bob".toList) := by
  have restored : bobsQuery.refuseUntranslatableSend .tui "bob".toList (toBob "/quit") =
      some ⟨some "net/bob".toList, "/quit".toList⟩ := by decide +kernel
  have runs : handleSubmit .ascii (fun _ => none) bobsQuery (some "net/bob".toList)
      "/quit".toList = .runs ⟨"quit".toList, []⟩ := by decide +kernel
  refine ⟨by decide +kernel, restored, runs, ?_⟩
  intro does
  rcases does _ restored with ⟨sent, submitted, -⟩
  rw [runs] at submitted
  cases submitted

end Query

end Repartee.App
