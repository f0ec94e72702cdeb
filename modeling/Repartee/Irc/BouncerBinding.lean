import Repartee.Irc.BatchFlow

/-!
The network a bouncer binds a connection to: what it says in its limit tokens, directly or in a
batch of them, until the end of registration.
-/

namespace Repartee.Irc

open Text Lib

section Isupport

def keyChar (c : Char) : Bool := c.isAlphanum || decide (c ∈ "./-_".toList)

/-- A token the client takes: a name, with a value or taken back. -/
def isupportToken (token : Str) : Bool :=
  let key := ((stripPrefix "-".toList token).getD token).takeWhile fun c => decide (c ≠ '=')
  !("-".toList.isPrefixOf token && decide ('=' ∈ token)) && decide (key ≠ []) &&
    key.all keyChar && !token.any fun c => isWhitespace c || isControl c

/-- The tokens of a line without the nick it starts with and the text it ends with. One bad token
spoils the line. -/
def responseTokens : List Str → Option (List Str)
  | [] => none
  | _ :: rest =>
      if rest = [] then none
      else
        let tokens := if rest.getLast?.any fun value => decide (' ' ∈ value) then rest.dropLast
          else rest
        if tokens.all isupportToken then some tokens else none

def Numeric.welcome : Nat := 1
def Numeric.isupport : Nat := 5
def Numeric.endOfMotd : Nat := 376
def Numeric.noMotd : Nat := 422

def isupportLine (message : Message) : Option (List Str) :=
  match message.command with
  | .response code args => if code = Numeric.isupport then responseTokens args else none
  | _ => none

/-- The tokens of all the lines, if each is a line of tokens. -/
def isupportLines : List Message → Option (List Str)
  | [] => some []
  | message :: rest =>
      (isupportLine message).bind fun tokens => (isupportLines rest).map (tokens ++ ·)

def BatchInfo.isupportTokens (batch : BatchInfo) (cleanEnd : Bool) : Option (List Str) :=
  if !cleanEnd || decide (batch.droppedMessages ≠ 0) || decide (batch.messages = []) ||
      decide (batch.params ≠ []) then none
  else isupportLines batch.messages

end Isupport

section Identity

/-- A positive decimal integer that fits 64 bits, without leading zeros. -/
def normalizeNetworkId (value : Str) : Option Str :=
  if value ≠ [] ∧ value.all Char.isDigit then
    match parseI64 value with
    | .ok id => if 0 < id then some (intText id) else none
    | .error _ => none
  else none

inductive Identity where
  | control
  | network (id : Str)
  deriving DecidableEq

inductive Selection where
  | automatic
  | control
  | network (id : Str)
  deriving DecidableEq

/-- What is known before the server says anything, or once it takes everything back. -/
def Selection.unstated : Selection → Option Identity
  | .network _ => none
  | .automatic => some .control
  | .control => some .control

inductive BindingError where
  | accountRequired
  | invalidId
  | controlSelectedNetwork
  | differentNetwork
  | rejected
  | closed
  | unconfirmed
  | disconnected
  | stream (text : Str)
  deriving DecidableEq

def BindingError.text : BindingError → Str
  | .accountRequired => ("Account authentication is required. Configure SASL credentials, " ++
      "a client certificate, or a supported server password (PASS).").toList
  | .invalidId => "Bouncer network ID must be a positive decimal integer".toList
  | .controlSelectedNetwork => ("Bouncer control login selected a network; remove the network " ++
      "selector from the login").toList
  | .differentNetwork => "Bouncer selected a different network than requested".toList
  | .rejected => "Bouncer rejected the requested network binding".toList
  | .closed => "Bouncer closed registration".toList
  | .unconfirmed => "Bouncer did not confirm the requested network ID".toList
  | .disconnected => "Bouncer disconnected before confirming the network ID".toList
  | .stream text => text

def withdrawalToken : Str := "-BOUNCER_NETID".toList
def netidPrefix : Str := "BOUNCER_NETID=".toList

def applyToken (expected : Selection) (confirmed : Option Identity) (token : Str) :
    Except BindingError (Option Identity) :=
  let confirmed := if token = withdrawalToken then expected.unstated else confirmed
  match stripPrefix netidPrefix token with
  | none => .ok confirmed
  | some value => match normalizeNetworkId value with
      | none => .error .invalidId
      | some network => match expected with
          | .control => .error .controlSelectedNetwork
          | .network wanted =>
              if network ≠ wanted then .error .differentNetwork else .ok (some (.network network))
          | .automatic => .ok (some (.network network))

end Identity

section Confirming

variable (unicode : Unicode) (now : Nat)

/-- What a message does to the tracker, and the tokens that take effect with it. -/
def BatchTracker.takeTokens (tracker : BatchTracker) (message : Message) :
    BatchTracker × List Str :=
  match message.command with
  | .batch reference kind params =>
      let tracker := tracker.invalidateParent (getBatchTag message)
      match reference with
      | '+' :: ref =>
          (tracker.startBatch unicode now ref (kind.getD []) (params.getD []) message.tags, [])
      | '-' :: ref =>
          match tracker.endBatch ref with
          | (none, ended) => (ended, [])
          | (some batch, ended) =>
              if batch.batchType ≠ isupportType ∨
                  batch.parentRef.any (fun parent => !ended.isOpen parent) then (ended, [])
              else (ended, (batch.isupportTokens true).getD [])
      | _ => (tracker, [])
  | command =>
      if (getBatchTag message).isSome then ((tracker.addMessage message).2, [])
      else match command with
        | .response code args =>
            (tracker, if code = Numeric.isupport then (responseTokens args).getD [] else [])
        | _ => (tracker, [])

structure Confirming where
  tracker : BatchTracker
  welcomed : Bool
  confirmed : Option Identity

def confirmIdentity (expected : Selection) (s : Confirming) (message : Message) :
    Except BindingError Confirming :=
  let taken := s.tracker.takeTokens unicode now message
  (taken.2.foldlM (applyToken expected) s.confirmed).map fun confirmed =>
    { s with tracker := taken.1, confirmed := confirmed }

/-- The server wants an account before it welcomes anybody. -/
def isAccountFailure (message : Message) : Bool :=
  match message.command with
  | .raw command args => eqNocase command "FAIL".toList &&
      args.head?.any (fun arg => decide (arg = "*".toList)) &&
      (args.drop 1).head?.any fun arg => eqNocase arg "ACCOUNT_REQUIRED".toList
  | _ => false

def welcomes (message : Message) : Bool :=
  match message.command with
  | .response code _ => decide (code = Numeric.welcome)
  | _ => false

def takeMessage (expected : Selection) (s : Confirming) (message : Message) :
    Except BindingError Confirming :=
  if !s.welcomed && isAccountFailure message then .error .accountRequired
  else confirmIdentity unicode now expected
    { s with welcomed := s.welcomed || welcomes message } message

inductive Turn where
  | goOn
  | fail (e : BindingError)
  | registered
  deriving DecidableEq

/-- Whether registration fails, or is over, with the message. -/
def turn (message : Message) : Turn :=
  match message.command with
  | .raw command args =>
      if eqNocase command "FAIL".toList &&
          args.head?.any fun arg => eqNocase arg "BOUNCER".toList then
        if (args.drop 1).head?.any fun code => eqNocase code "ACCOUNT_REQUIRED".toList then
          .fail .accountRequired
        else .fail .rejected
      else .goOn
  | .error _ => .fail .closed
  | .response code _ => if code = Numeric.endOfMotd ∨ code = Numeric.noMotd then .registered else .goOn
  | _ => .goOn

/-- Reads the stream to the end of registration. The messages read join the early ones. -/
def listenForIdentity (expected : Selection) (s : Confirming) (earlyMessages : List Message) :
    List (Except Str Message) → Except BindingError (Identity × List Message)
  | [] => .error .disconnected
  | .error text :: _ => .error (.stream text)
  | .ok message :: rest =>
      match takeMessage unicode now expected s message with
      | .error e => .error e
      | .ok s => match turn message with
          | .fail e => .error e
          | .registered => match s.confirmed with
              | none => .error .unconfirmed
              | some identity => .ok (identity, earlyMessages ++ [message])
          | .goOn => listenForIdentity expected s (earlyMessages ++ [message]) rest

def confirmRegistration (expected : Selection) (earlyMessages : List Message)
    (stream : List (Except Str Message)) : Except BindingError (Identity × List Message) :=
  match earlyMessages.foldlM (takeMessage unicode now expected)
      ⟨.new, false, expected.unstated⟩ with
  | .error e => .error e
  | .ok s => listenForIdentity unicode now expected s earlyMessages stream

end Confirming

end Repartee.Irc
