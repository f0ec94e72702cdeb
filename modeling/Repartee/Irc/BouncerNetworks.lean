import Repartee.Lib.Run
import Repartee.Irc.BouncerBinding
import Repartee.Irc.Capabilities

/-!
The registry of a bouncer's networks: notifications change it one network at a time, a snapshot
batch replaces it. Times are in nanoseconds.
-/

namespace Repartee.Irc

open Text Lib

structure Network where
  id : Str
  attributes : Map Str Str

inductive RegistryEvent where
  | unrelated
  | pending
  | snapshot
  | changed (id : Str)
  | invalid
  deriving DecidableEq

structure PendingNetworks where
  tag : Str
  networks : Map Str Network
  valid : Bool
  started : Nat

structure NetworkRegistry where
  networks : Map Str Network
  complete : Bool
  pending : Option PendingNetworks

abbrev Attributes : Type := Map Str (Option Str)

def pendingTimeout : Nat := 30 * 1000000000

/-- An attribute that is empty or has no value is cleared. -/
def Network.setAttribute (network : Network) (entry : Str × Option Str) : Network :=
  match entry.2.filter fun value => decide (value ≠ []) with
  | some value => { network with attributes := network.attributes.insert entry.1 value }
  | none => { network with attributes := network.attributes.erase entry.1 }

def applyUpdate (networks : Map Str Network) (id : Str) (attributes : Option Attributes) :
    Map Str Network :=
  match attributes with
  | none => networks.erase id
  | some attributes =>
      let network := (networks.get? id).getD ⟨id, Table.empty⟩
      networks.insert id (attributes.rows.foldl Network.setAttribute network)

def attributesOf (tags : List (Str × Option Str)) : Attributes :=
  tags.foldl (fun attributes tag => attributes.insert tag.1 tag.2) Table.empty

/-- The tags of a text, as the protocol library reads them from the front of a message. -/
abbrev TagReader : Type := Str → Option (List (Str × Option Str))

variable (readTags : TagReader)

def parseUpdate : List Str → Option (Str × Option Attributes)
  | [_, id, text] =>
      match normalizeNetworkId id with
      | none => none
      | some id =>
          if text = "*".toList then some (id, none)
          else if text = [] ∨ text.any (fun c => isWhitespace c || isControl c) = true then none
          else (readTags text).map fun tags => (id, some (attributesOf tags))
  | _ => none

def isNetworkLine (command : Str) (args : List Str) : Bool :=
  eqNocase command "BOUNCER".toList &&
    args.head?.any fun arg => eqNocase arg "NETWORK".toList

namespace NetworkRegistry

def new : NetworkRegistry := ⟨Table.empty, false, none⟩

def expire (registry : NetworkRegistry) (now : Nat) : NetworkRegistry :=
  { registry with pending :=
      registry.pending.filter fun pending => decide (now - pending.started ≤ pendingTimeout) }

def handleBatch (registry : NetworkRegistry) (now : Nat) (reference : Str) (kind : Option Str) :
    NetworkRegistry × RegistryEvent :=
  match reference with
  | '+' :: tag =>
      if kind.any fun kind => eqNocase kind networksCap then
        ({ registry with pending := some ⟨tag, Table.empty, true, now⟩ }, .pending)
      else (registry, .unrelated)
  | '-' :: tag =>
      match registry.pending with
      | none => (registry, .unrelated)
      | some pending =>
          if pending.tag ≠ tag then (registry, .unrelated)
          else if !pending.valid then ({ registry with pending := none }, .invalid)
          else (⟨pending.networks, true, none⟩, .snapshot)
  | _ => (registry, .unrelated)

/-- A line of a batch counts for the snapshot only, one outside a batch for both. -/
def handleNetwork (registry : NetworkRegistry) (batch : Option Str) (args : List Str) :
    NetworkRegistry × RegistryEvent :=
  if batch.any fun tag => registry.pending.all fun pending => decide (pending.tag ≠ tag) then
    (registry, .pending)
  else match parseUpdate readTags args with
    | none =>
        (if batch.isSome then
          { registry with pending := registry.pending.map fun p => { p with valid := false } }
        else registry, .invalid)
    | some (id, attributes) =>
        let registry := { registry with pending := registry.pending.map fun p =>
          { p with networks := applyUpdate p.networks id attributes } }
        if batch.isSome then (registry, .pending)
        else ({ registry with networks := applyUpdate registry.networks id attributes },
          .changed id)

def handle (registry : NetworkRegistry) (now : Nat) (message : Message) :
    NetworkRegistry × RegistryEvent :=
  let registry := registry.expire now
  match message.command with
  | .batch reference kind _ => registry.handleBatch now reference kind
  | .raw command args =>
      if isNetworkLine command args then
        registry.handleNetwork readTags (getBatchTag message) args
      else (registry, .unrelated)
  | _ => (registry, .unrelated)

end NetworkRegistry

end Repartee.Irc
