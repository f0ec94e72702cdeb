import Repartee.E2e.Manager.Outgoing
import Repartee.Irc.Netsplit

/-!
The part of the application's state that sending looks at: the buffers, the connections and the
loaded manager, and the queue of notices that leave with the next flush.
-/

namespace Repartee.App

open Text Lib E2e

inductive BufferType where
  | mentions
  | server
  | channel
  | query
  | dccChat
  | special
  | shell
  | log
  deriving DecidableEq

structure NickEntry where
  nick : Str
  ident : Option Str
  host : Option Str
  deriving DecidableEq

structure Buffer where
  connectionId : Str
  bufferType : BufferType
  name : Str
  /-- The server-stamped handle of a query's peer. -/
  peerHandle : Option Str
  /-- Keyed by the nick in lower case. -/
  users : Map Str NickEntry

structure Connection where
  label : Str
  /-- The label the connection was configured with. -/
  originLabel : Str
  networkScope : Option Str
  bouncerNetworkId : Option Str
  bouncerControl : Bool
  nick : Str

def Connection.networkKey (conn : Connection) : Str := conn.networkScope.getD conn.label

structure PendingE2eSend where
  connectionId : Str
  target : Str
  noticeText : Str
  deriving DecidableEq

structure AppState where
  buffers : Map Str Buffer
  connections : Map Str Connection
  /-- Whether there is a manager; without one the world is not looked at. -/
  e2eLoaded : Bool
  world : World
  pendingE2eSends : List PendingE2eSend
  /-- The lines shown to the user alone, with their buffers. -/
  localMessages : List (Str × Str)

namespace AppState

variable (s : AppState)

def setWorld (w : World) (s : AppState) : AppState := { s with world := w }

/-- The connection of a buffer, or of the buffer the id would name. -/
def connectionOf (bufferId : Str) : Option Str :=
  match s.buffers.get? bufferId with
  | some buf => some buf.connectionId
  | none => (splitOnce '/' bufferId).map Prod.fst

def networkOf (bufferId : Str) : Option Str :=
  ((s.connectionOf bufferId).bind s.connections.get?).map Connection.networkKey

def peerHandleOf (bufferId : Str) : Option Str := (s.buffers.get? bufferId).bind Buffer.peerHandle

end AppState

/-- A program on the application's state whose errors are the manager's. -/
abbrev AppAction (α : Type) : Type := Prog AppState E2eError α

def onWorld {α : Type} (m : Action α) : AppAction α := Prog.zoom AppState.world AppState.setWorld m

/-- A read of the keyring. -/
def keyring {α : Type} (f : Keyring → α) : AppAction α := onWorld (query f)

end Repartee.App
