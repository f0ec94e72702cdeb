import Repartee.Text

/-!
The registry of deleted messages: weak references to the identities somebody still holds, a
bounded list of the most recent deletions, and a temporary database for the older ones.
-/

namespace Repartee.State

open Text

/-- Scope, target and message id. -/
abbrev RedactionKey : Type := Str × Str × Str

structure Identity where
  key : RedactionKey
  /-- Written at most once. -/
  notice : Option Str
  deriving DecidableEq, Repr

/-- The statements run against the temporary database. -/
inductive Statement where
  | exists (key : RedactionKey)
  | create
  | insert (key : RedactionKey)
  | delete (scope : Str)
  deriving DecidableEq

structure Registry where
  identities : RedactionKey → Option Nat
  recent : List Nat
  recentLimit : Nat
  operations : Nat
  /-- The rows of the database, once it is open. -/
  archived : Option (List (Bytes × Bytes))
  archivedScopes : List Str
  archiveFailed : Bool

/-- The registry with the identities made so far, each named by its place, and the strong
references held outside of it, one entry each. -/
structure Store where
  registry : Registry
  made : List Identity
  handles : List Nat

def Registry.new (recentLimit : Nat) : Registry :=
  ⟨fun _ => none, [], recentLimit, 0, none, [], false⟩

def Store.new (recentLimit : Nat) : Store := ⟨.new recentLimit, [], []⟩

def messageDeleted : Str := "Message deleted".toList

def messageUnavailable : Str := "Message unavailable: deletion tracking failed".toList

section

variable (sha256 : Bytes → Bytes)

/-- A length in eight bytes, most significant first. -/
def beBytes (n : Nat) : Bytes :=
  (List.range 8).map fun i => UInt8.ofNat (n / 256 ^ (7 - i))

def scopeDigest (scope : Str) : Bytes := sha256 (utf8 scope)

def fingerprint (key : RedactionKey) : Bytes :=
  sha256 (beBytes (utf8Length key.2.1) ++ utf8 key.2.1 ++
    (beBytes (utf8Length key.2.2) ++ utf8 key.2.2))

def archiveRow (key : RedactionKey) : Bytes × Bytes :=
  (scopeDigest sha256 key.1, fingerprint sha256 key)

namespace Store

variable (w : Store) (fails : Statement → Bool)

def strongCount (o : Nat) : Nat := w.registry.recent.count o + w.handles.count o

def noticeOf (o : Nat) : Option Str := w.made[o]?.bind Identity.notice

/-- The identity of a key, when something still holds it. -/
def upgrade (key : RedactionKey) : Option Nat :=
  (w.registry.identities key).filter fun o => decide (0 < w.strongCount o)

def hold (o : Nat) : Store := { w with handles := o :: w.handles }

/-- A new identity, held by whoever asked for it. -/
def make (identity : Identity) : Nat × Store :=
  (w.made.length, { w with made := w.made ++ [identity], handles := w.made.length :: w.handles })

def archiveError : Store := { w with registry := { w.registry with archiveFailed := true } }

/-- Whether the database lists the key; the error is a failed query. -/
def archivedAnswer (key : RedactionKey) : Except Unit Bool :=
  match w.registry.archived with
  | none => .ok false
  | some rows =>
      if fails (.exists key) then .error () else .ok (decide (archiveRow sha256 key ∈ rows))

def get (key : RedactionKey) : Option Nat × Store :=
  let retained := w.upgrade key
  if (retained.bind w.noticeOf).isSome then (retained, retained.elim w w.hold)
  else
    let (notice, w') := match w.archivedAnswer sha256 fails key with
      | .ok true => (some messageDeleted, w)
      | .ok false => if w.registry.archiveFailed then (some messageUnavailable, w) else (none, w)
      | .error _ => (some messageUnavailable, w.archiveError)
    match notice with
    | some text =>
        let (o, held) := w'.make ⟨key, some text⟩
        (some o, held)
    | none => (retained, retained.elim w' w'.hold)

def point (key : RedactionKey) (entry : Option Nat) : Store :=
  { w with registry := { w.registry with
      identities := fun k => if k = key then entry else w.registry.identities k } }

/-- Every 256 operations the references to dead identities go. -/
def sweep : Store :=
  if w.registry.operations + 1 ≥ 256 then
    { w with registry := { w.registry with
        identities := fun k => (w.registry.identities k).filter fun o => decide (0 < w.strongCount o)
        operations := 0 } }
  else { w with registry := { w.registry with operations := w.registry.operations + 1 } }

def track (key : RedactionKey) : Nat × Store :=
  match w.sweep.get sha256 fails key with
  | (some o, w') => (o, w'.point key (some o))
  | (none, w') =>
      let (o, held) := w'.make ⟨key, none⟩
      (o, held.point key (some o))

/-- One row written, after the database is opened if it was not. -/
def archive (key : RedactionKey) : Except Unit Unit × Store :=
  if w.registry.archived.isNone && fails .create then (.error (), w)
  else
    let rows := w.registry.archived.getD []
    if fails (.insert key) then
      (.error (), { w with registry := { w.registry with archived := some rows } })
    else
      (.ok (), { w with registry := { w.registry with
        archived := some (if archiveRow sha256 key ∈ rows then rows
          else rows ++ [archiveRow sha256 key])
        archivedScopes := if key.1 ∈ w.registry.archivedScopes then w.registry.archivedScopes
          else key.1 :: w.registry.archivedScopes } })

/-- The oldest recent deletion leaves for the database. -/
def evictOldest : Store :=
  match w.registry.recent with
  | [] => w
  | expired :: rest =>
      let w' := { w with registry := { w.registry with recent := rest } }
      match w.made[expired]? with
      | none => w'
      | some identity =>
          let w'' := match w'.archive sha256 fails identity.key with
            | (.ok _, stored) => stored
            | (.error _, stored) => stored.archiveError
          if w''.strongCount expired = 0 then w''.point identity.key none else w''

def setNotice (o : Nat) (notice : Str) : Store :=
  { w with made := w.made.modify o fun identity => { identity with notice := some notice } }

def pushRecent (o : Nat) : Store :=
  { w with registry := { w.registry with recent := w.registry.recent ++ [o] } }

def evictOver : Store :=
  (fun s => s.evictOldest sha256 fails)^[w.registry.recent.length - w.registry.recentLimit] w

def redact (key : RedactionKey) (notice : Str) : Nat × Store :=
  let (o, w') := w.track sha256 fails key
  if (w'.noticeOf o).isSome then (o, w')
  else (o, ((w'.setNotice o notice).pushRecent o).evictOver sha256 fails)

/-- The rows of the scopes that are gone are deleted, statement by statement. -/
def deleteScopes (active : List Str) : Store :=
  match w.registry.archived with
  | none => w
  | some rows =>
      let gone := w.registry.archivedScopes.filter fun scope => decide (scope ∉ active)
      let failed := gone.any fun scope => fails (.delete scope)
      let deleted := gone.filter fun scope => !fails (.delete scope)
      { w with registry := { w.registry with
          archived := some (rows.filter fun row =>
            deleted.all fun scope => decide (row.1 ≠ scopeDigest sha256 scope))
          archiveFailed := w.registry.archiveFailed || failed } }

def retainScopes (active : List Str) : Store :=
  let w₁ := w.deleteScopes sha256 fails active
  let w₂ := { w₁ with registry := { w₁.registry with
    archivedScopes := w₁.registry.archivedScopes.filter fun scope => decide (scope ∈ active)
    archived := if active = [] then none else w₁.registry.archived
    archiveFailed := if active = [] then false else w₁.registry.archiveFailed
    recent := w₁.registry.recent.filter fun o =>
      (w₁.made[o]?).any fun (identity : Identity) => decide (identity.key.1 ∈ active) } }
  { w₂ with registry := { w₂.registry with
    identities := fun k =>
      if k.1 ∈ active then
        (w₂.registry.identities k).filter fun o => decide (0 < w₂.strongCount o)
      else none } }

end Store

/-- What happens to the registry, and to the references it gave out. -/
inductive RegistryOp where
  | get (key : RedactionKey)
  | track (key : RedactionKey)
  | redact (key : RedactionKey) (notice : Str)
  | retainScopes (active : List Str)
  /-- A reference is cloned by somebody who holds one. -/
  | clone (o : Nat)
  | drop (o : Nat)

/-- An operation and the statements that fail in its course. -/
structure RegistryStep where
  op : RegistryOp
  fails : Statement → Bool

/-- What the operation returns, where it returns a reference. -/
def Store.answer (w : Store) (step : RegistryStep) : Option Nat × Store :=
  match step.op with
  | .get key => w.get sha256 step.fails key
  | .track key => ((w.track sha256 step.fails key).1, (w.track sha256 step.fails key).2)
  | .redact key notice =>
      ((w.redact sha256 step.fails key notice).1, (w.redact sha256 step.fails key notice).2)
  | .retainScopes active => (none, w.retainScopes sha256 step.fails active)
  | .clone o => if o ∈ w.handles then (some o, w.hold o) else (none, w)
  | .drop o => (none, { w with handles := w.handles.erase o })

def Store.exec (w : Store) (step : RegistryStep) : Store := (w.answer sha256 step).2

/-- The notice the caller sees in what it got. -/
def noticeSeen (answer : Option Nat × Store) : Option Str := answer.1.bind answer.2.noticeOf

end

end Repartee.State
