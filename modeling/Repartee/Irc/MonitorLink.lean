import Repartee.Irc.Monitor
import Repartee.Lib.Run

/-!
The client's MONITOR against a server that keeps a folded set: commands and answers travel in order,
the user edits his targets meanwhile, and the connection is lost and comes back. While it is away
the client folds its names by the default mapping.
-/

namespace Repartee.Monitor

open Repartee.Lib
open Repartee.Text
open Repartee.State (casefold)

/-- The network: how it folds names, and how many targets it takes, if it has a limit. -/
structure Network where
  mapping : Str
  limit : Option Nat

def defaultMapping : Str := "rfc1459".toList

inductive Reply where
  | status (online : Bool) (masks : Str)
  | line (names : List Str)
  | endOfList
  | full (names : List Str)
  deriving DecidableEq

def joinNames (names : List Str) : Str := [','].intercalate names

def Reply.number : Reply → Nat
  | .status true _ => 730
  | .status false _ => 731
  | .line _ => 732
  | .endOfList => 733
  | .full _ => 734

def Reply.args : Reply → List Str
  | .status _ masks => ["me".toList, masks]
  | .line names => ["me".toList, joinNames names]
  | .endOfList => ["me".toList, "End of MONITOR list".toList]
  | .full names => ["me".toList, "100".toList, joinNames names, "Monitor list is full".toList]

/-- `online` from the server's advertising MONITOR to the loss of the connection. -/
structure World where
  client : MonitorState
  online : Bool
  held : Finset Str
  toServer : List Command
  toClient : List Reply

def World.start (mapping : Str) : World := ⟨.new mapping, false, ∅, [], []⟩

/-- What the server makes of a command: the set it holds after a `+`, the names it reports as
rejected, the lines of a list. -/
structure Answer where
  held : Finset Str
  fulls : List (List Str)
  lines : List (List Str)

/-- The names a command carries. -/
def Command.asks (command : Command) : List Str := (command.names.getD []).splitOn ','

/-- Names on the wire hold no comma. -/
def Joinable (names : List Str) : Prop := names ≠ [] ∧ ∀ name ∈ names, ',' ∉ name

instance (names : List Str) : Decidable (Joinable names) := by unfold Joinable; infer_instance

variable (net : Network)

/-- A `+` takes in what is asked for, all of it unless the set is full; what is reported as rejected
was. A list names the set. -/
def Faithful (held : Finset Str) (command : Command) (answer : Answer) : Prop :=
  match command.operation with
  | .plus =>
      held ⊆ answer.held ∧ answer.held ⊆ held ∪ keysOf net.mapping command.asks ∧
        (keysOf net.mapping command.asks ⊆ answer.held ∨
          net.limit.any (fun limit => limit ≤ answer.held.card) = true) ∧
        (answer.held = held ∨ net.limit.all (fun limit => answer.held.card ≤ limit) = true) ∧
        ∀ names ∈ answer.fulls, Joinable names ∧ keysOf net.mapping names ∩ answer.held = ∅ ∧
          keysOf net.mapping names ⊆ keysOf net.mapping command.asks
  | .list => (∀ names ∈ answer.lines, Joinable names) ∧ keysOf net.mapping answer.lines.flatten = held
  | .minus => True
  | .status => True

instance (held : Finset Str) (command : Command) (answer : Answer) :
    Decidable (Faithful net held command answer) := by
  unfold Faithful
  cases command.operation <;> infer_instance

inductive Event where
  | edit (change : Change)
  | askList
  | askStatus
  | tick (now : Nat) (sends : List Bool)
  | serve (answer : Answer)
  | presence (online : Bool) (masks : Str)
  | receive
  | disconnect
  | connect (held : Finset Str)

namespace World

variable (w : World)

/-- Before each use the client is told the mapping and whether the server has MONITOR. -/
def ensure : World :=
  { w with
    client := (w.client.setMapping (if w.online then net.mapping else defaultMapping)).setSupported
      w.online }

def edit (change : Change) : World :=
  match w.client.change change with
  | .ok client => { w with client := client }
  | .error _ => w

/-- The commands of one tick, until there is none or a send fails. -/
def polls (now : Nat) : List Bool → World → World
  | [], w => w
  | ok :: rest, w =>
      match w.client.nextCommand now with
      | none => w
      | some command =>
          if ok then
            polls now rest { w with
              client := w.client.sent command now true
              toServer := w.toServer ++ [command] }
          else { w with client := w.client.sent command now false }

def tick (now : Nat) (sends : List Bool) : World :=
  if w.online then polls now sends { w with client := w.client.expire now }
  else { w with client := w.client.expire now }

def serve (answer : Answer) : World :=
  match w.toServer with
  | [] => w
  | command :: rest =>
      match command.operation with
      | .plus =>
          { w with
            toServer := rest
            held := answer.held
            toClient := w.toClient ++ answer.fulls.map Reply.full }
      | .minus =>
          { w with toServer := rest, held := w.held \ keysOf net.mapping command.asks }
      | .list =>
          { w with
            toServer := rest
            toClient := w.toClient ++ (answer.lines.map Reply.line ++ [.endOfList]) }
      | .status => { w with toServer := rest }

def receive : World :=
  match w.toClient with
  | [] => w
  | reply :: rest =>
      { w with client := w.client.receive reply.number reply.args, toClient := rest }

end World

def exec (w : World) : Event → World
  | .edit change => (w.ensure net).edit change
  | .askList => { w.ensure net with client := { (w.ensure net).client with showList := true } }
  | .askStatus => { w.ensure net with client := { (w.ensure net).client with requestStatus := true } }
  | .tick now sends => (w.ensure net).tick now sends
  | .serve answer => w.serve net answer
  | .presence online masks => { w with toClient := w.toClient ++ [.status online masks] }
  | .receive => (w.ensure net).receive
  | .disconnect =>
      { w with
        client := w.client.resetTransport
        online := false
        toServer := []
        toClient := [] }
  | .connect held =>
      { w with
        client := w.client.resetTransport
        online := true
        held := held
        toServer := []
        toClient := [] }

/-- A user's targets have been checked; a tick sends at most two commands. -/
def Allowed (w : World) : Event → Prop
  | .edit change => ∀ name ∈ change.names, invalidTarget name = false
  | .tick _ sends => sends.length ≤ 2
  | .serve answer => ∀ command ∈ w.toServer.head?, Faithful net w.held command answer
  | .presence _ _ => w.online = true
  | .connect _ => w.online = false
  | .askList => True
  | .askStatus => True
  | .receive => True
  | .disconnect => True

instance (w : World) (event : Event) : Decidable (Allowed net w event) := by
  cases event <;> unfold Allowed <;> infer_instance

end Repartee.Monitor
