import Repartee.App.Layout
import Repartee.E2e.Chunks
import Repartee.Translate.Queue

/-!
A translated message on its way out: the answer of the backend is checked, wrapped, and put through
the gate. Where the lines are not encrypted, they are what the peers read.
-/

namespace Repartee.App

open Repartee.Text
open Repartee.Lib
open Repartee.E2e
open Repartee.Translate (UntranslatedReason)

/-! ### The answer -/

inductive TranslateOutcome where
  | translated (id : Nat) (text : Str)
  | untranslated (id : Nat) (reason : UntranslatedReason)
  deriving DecidableEq

def TranslateOutcome.id : TranslateOutcome → Nat
  | .translated id _ => id
  | .untranslated id _ => id

def readsAsRpe2eProtocol (text : Str) : Bool :=
  ctcpTag.isPrefixOf text || wirePrefix.isPrefixOf text

def maxTranslationBytes : Nat := 8 * messageMaxBytes

def isLineBreak (c : Char) : Bool := c = '\r' || c = '\n'

def trimEndMatches (drops : Char → Bool) (s : Str) : Str := (s.reverse.dropWhile drops).reverse

/-- The answer, or why it is not used: nothing but one line of prose is. -/
def singleLineOrRefuse (expected : Nat) : TranslateOutcome → TranslateOutcome
  | .untranslated id reason =>
      if id ≠ expected then
        .untranslated expected (.error "backend answered the wrong request".toList)
      else .untranslated id reason
  | .translated id text =>
      let trimmed := trimEndMatches isLineBreak text
      if id ≠ expected then
        .untranslated expected (.error "backend answered the wrong request".toList)
      else if trimmed.any isLineBreak then
        .untranslated id (.error "backend returned multiple lines".toList)
      else if trimmed.contains ctcpDelimiter then
        .untranslated id (.error "backend returned CTCP framing".toList)
      else if readsAsRpe2eProtocol trimmed then
        .untranslated id (.error "backend returned E2E protocol text".toList)
      else if (trim trimmed).isEmpty then
        .untranslated id (.error "backend returned nothing".toList)
      else if utf8Length trimmed > maxTranslationBytes then
        .untranslated id (.error "backend answer too long".toList)
      else .translated id trimmed

/-- How a call of the backend ended. -/
inductive BackendRun where
  | deadlinePassed
  | elapsed
  | panicked
  | answered (outcome : TranslateOutcome)

def translateIsolated (id : Nat) : BackendRun → TranslateOutcome
  | .deadlinePassed => .untranslated id .timeout
  | .elapsed => .untranslated id .timeout
  | .panicked => .untranslated id (.error "backend panic".toList)
  | .answered outcome => singleLineOrRefuse id outcome

/-! ### The message -/

structure OutgoingTranslateDeliver where
  connId : Str
  bufferId : Str
  bufferName : Str
  bufferType : BufferType
  originalText : Str
  outcome : TranslateOutcome
  peerHandle : Option Str
  isAction : Bool
  submittedAt : Nat
  connGeneration : Option Nat

def actionWrapperBytes : Nat := utf8Length (actionFrame [])

def outgoingBodyBudget (isAction : Bool) : Nat :=
  if isAction then messageMaxBytes - actionWrapperBytes else messageMaxBytes

/-- An action is split first and framed then, so that each line is a whole action. -/
def wrapOutgoingBody (body : Str) (isAction : Bool) : List Str :=
  if !isAction then [body]
  else if utf8Length body ≤ outgoingBodyBudget isAction then [actionFrame body]
  else (splitIrcMessage body (outgoingBodyBudget isAction)).map actionFrame

/-- The translation, or the original where none was needed. -/
def bodyToPublish (out : OutgoingTranslateDeliver) : Except Str Str :=
  match out.outcome with
  | .translated _ text =>
      if readsAsRpe2eProtocol text then .error "the translation was E2E protocol text".toList
      else .ok text
  | .untranslated _ reason =>
      if reason.isGap then .error ("translation failed (".toList ++ reason.label ++ ")".toList)
      else .ok out.originalText

/-- What is published, or why nothing is. -/
def translatedWireBody (out : OutgoingTranslateDeliver) : Except Str Str := do
  let body ← bodyToPublish out
  if body.any fun c => isLineBreak c || c = ctcpDelimiter then
    .error "the translation contained a control character".toList
  else .ok body

/-- The client, its connections that have a handle, and the clock. -/
structure Client where
  state : AppState
  ircHandles : List Str
  connGenerations : Map Str Nat
  timeoutMs : Nat
  now : Nat

def Client.connectionGeneration (client : Client) (connId : Str) : Option Nat :=
  if client.ircHandles.contains connId then client.connGenerations.get? connId else none

variable (P : Platform) (unicode : Irc.Unicode)

def gateOf (out : OutgoingTranslateDeliver) (text : Str) : Gate (List Str × Str) :=
  e2eEncryptOrPassthrough P unicode out.bufferId out.bufferName out.bufferType text out.peerHandle

def planTranslatedWires (out : OutgoingTranslateDeliver) (wireTexts : List Str) : Gate (List Str) := do
  let plans ← Prog.collect (gateOf P unicode out) wireTexts
  return plans.flatMap Prod.fst

/-- Why a message that came back is not sent after all. -/
def tooLate (client : Client) (out : OutgoingTranslateDeliver) : Option Str :=
  if max client.timeoutMs 1 ≤ client.now - out.submittedAt then
    some "the translation took longer than the timeout".toList
  else if !client.ircHandles.contains out.connId then some "the connection is unavailable".toList
  else if client.connectionGeneration out.connId ≠ out.connGeneration then
    some "the connection was re-established while this was being translated".toList
  else none

/-- The lines on the wire, and why the message was given back, if it was. -/
structure Sending where
  lines : List Str
  abandoned : Option Str

/-- The connection takes so many lines before a write fails. -/
def sendOutgoingTranslated (client : Client) (out : OutgoingTranslateDeliver) (writes : Nat) :
    Sending × AppState :=
  match translatedWireBody out with
  | .error why => (⟨[], some why⟩, client.state)
  | .ok body =>
      match tooLate client out with
      | some why => (⟨[], some why⟩, client.state)
      | none =>
          match planTranslatedWires P unicode out (wrapOutgoingBody body out.isAction) client.state with
          | (.error refusal, s) => (⟨[], some refusal.userMessage⟩, s)
          | (.ok lines, s) =>
              (⟨lines.take writes, if writes < lines.length then some "the send failed".toList else none⟩,
                s)

end Repartee.App
