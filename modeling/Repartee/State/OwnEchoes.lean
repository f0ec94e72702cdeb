import Repartee.Lib.Run
import Repartee.Translate.Queue

/-!
The records of translated sends whose reflections are still out: how a reflected wire line is to be
rendered when it comes back. A message files one record for each of its wire lines, and all of them
are dropped together, at the cap or when one of them has expired.
-/

namespace Repartee.State

open Repartee.Lib
open Repartee.Translate (WireOrigin)

structure OwnEchoDecoration where
  wireText : Str
  echoId : Nat
  display : Option (Str × WireOrigin)
  isLast : Bool
  filedAt : Nat
  deriving DecidableEq

/-- In milliseconds, as every instant below. -/
def ownEchoTtl : Nat := 30 * 1000

def ownEchoMax : Nat := 32

def OwnEchoDecoration.expired (d : OwnEchoDecoration) (now : Nat) : Bool :=
  decide (ownEchoTtl ≤ now - d.filedAt)

section Buffer

variable (entries : List OwnEchoDecoration)

/-- The messages with an expired record, each once. -/
def expiredIds (now : Nat) : List Nat :=
  (entries.filter fun d => d.expired now).foldl
    (fun dropped d => if d.echoId ∈ dropped then dropped else dropped ++ [d.echoId]) []

def without (dropped : List Nat) : List OwnEchoDecoration :=
  entries.filter fun d => decide (d.echoId ∉ dropped)

/-- Drops the oldest messages while the records that are left reach the cap. Each round drops a
record at least, so that there are as many rounds as records. -/
def evictOldest : Nat → List Nat → List Nat
  | 0, dropped => dropped
  | rounds + 1, dropped =>
      if ownEchoMax ≤ (without entries dropped).length then
        match (without entries dropped).head? with
        | some oldest => evictOldest rounds (dropped ++ [oldest.echoId])
        | none => dropped
      else dropped

/-- The messages that give way to one more record. -/
def droppedFor (now : Nat) : List Nat := evictOldest entries entries.length (expiredIds entries now)

/-- The records with one more, and the messages given up. -/
def decorateOwnEcho (decoration : OwnEchoDecoration) (now : Nat) :
    List OwnEchoDecoration × List Nat :=
  (without entries (droppedFor entries now) ++ [decoration], droppedFor entries now)

structure TakenEcho where
  entries : List OwnEchoDecoration
  found : Option OwnEchoDecoration
  abandoned : List Nat
  deriving DecidableEq

/-- Takes the oldest record of the wire line out. -/
def takeOwnEchoDecoration (wireText : Str) (now : Nat) : TakenEcho :=
  let dropped := expiredIds entries now
  let live := without entries dropped
  let found := live.find? fun d => decide (d.wireText = wireText)
  { entries := live.eraseP fun d => decide (d.wireText = wireText)
    found := found
    abandoned := dropped.filter fun id => decide (found.map OwnEchoDecoration.echoId ≠ some id) }

end Buffer

/-- A wire line of a message, with the clock as its record is stamped and as it is filed. -/
structure WireLine where
  text : Str
  filedAt : Nat
  now : Nat
  deriving DecidableEq

/-- The records of a message: only the last carries what is to be displayed. -/
def recordsOf (echoId : Nat) (display : Option (Str × WireOrigin)) :
    List WireLine → List (OwnEchoDecoration × Nat)
  | [] => []
  | line :: rest =>
      let isLast := rest.isEmpty
      (⟨line.text, echoId, if isLast then display else none, isLast, line.filedAt⟩, line.now) ::
        recordsOf echoId display rest

/-- The records of each buffer, and those of them that were filed and not consumed, whether they
are still there or not. -/
structure Reflections where
  decorations : Str → List OwnEchoDecoration
  owed : List OwnEchoDecoration

namespace Reflections

def new : Reflections := ⟨fun _ => [], []⟩

def put (s : Reflections) (buffer : Str) (entries : List OwnEchoDecoration) : Reflections :=
  { s with decorations := Function.update s.decorations buffer entries }

def file (buffer : Str) (s : Reflections) (filing : OwnEchoDecoration × Nat) : Reflections :=
  { s.put buffer (decorateOwnEcho (s.decorations buffer) filing.1 filing.2).1 with
    owed := s.owed ++ [filing.1] }

def expectOwnReflection (s : Reflections) (buffer : Str) (echoId : Nat)
    (display : Option (Str × WireOrigin)) (lines : List WireLine) : Reflections :=
  (recordsOf echoId display lines).foldl (file buffer) s

def take (s : Reflections) (buffer : Str) (wireText : Str) (now : Nat) : Reflections :=
  let taken := takeOwnEchoDecoration (s.decorations buffer) wireText now
  { s.put buffer taken.entries with owed := taken.found.elim s.owed s.owed.erase }

/-- The messages whose reservation has timed out. -/
def forget (s : Reflections) (buffer : Str) (ids : List Nat) : Reflections :=
  s.put buffer (without (s.decorations buffer) ids)

/-- The buffer is closed, its session has ended, or its nick has changed hands. -/
def retire (s : Reflections) (buffer : Str) : Reflections := s.put buffer []

/-- A buffer takes the id of another, whose records are retired. -/
def rekey (s : Reflections) (old new : Str) : Reflections :=
  let retired := s.retire new
  (retired.put old []).put new (retired.decorations old)

end Reflections

inductive EchoOp where
  | send (buffer : Str) (echoId : Nat) (display : Option (Str × WireOrigin)) (lines : List WireLine)
  | echo (buffer : Str) (wireText : Str) (now : Nat)
  | forget (buffer : Str) (ids : List Nat)
  | retire (buffer : Str)
  | rekey (old new : Str)
  deriving DecidableEq

def EchoOp.exec (s : Reflections) : EchoOp → Reflections
  | .send buffer echoId display lines => s.expectOwnReflection buffer echoId display lines
  | .echo buffer wireText now => s.take buffer wireText now
  | .forget buffer ids => s.forget buffer ids
  | .retire buffer => s.retire buffer
  | .rekey old new => s.rekey old new

def EchoOp.sentId : EchoOp → Option Nat
  | .send _ echoId _ _ => some echoId
  | _ => none

end Repartee.State
