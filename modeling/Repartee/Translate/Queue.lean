import Repartee.Lib.Line
import Repartee.Text

/-!
The per-buffer reorder queue of translated lines: when a resolved line is allowed onto the screen.
-/

namespace Repartee.Translate

open Repartee.Lib

variable {ρ : Type}

/-- Why a line came back untranslated. -/
inductive UntranslatedReason where
  | filtered
  | qualityGate
  | dailyLimit
  | noProvider
  | timeout
  | error (text : Str)
  deriving DecidableEq

def UntranslatedReason.isGap : UntranslatedReason → Bool
  | .filtered => false
  | _ => true

def UntranslatedReason.label : UntranslatedReason → Str
  | .filtered => "filtered".toList
  | .qualityGate => "quality gate".toList
  | .dailyLimit => "daily limit".toList
  | .noProvider => "no provider".toList
  | .timeout => "timeout".toList
  | .error e => "error: ".toList ++ e

/-- The displayed text, and where an appended suffix starts. -/
def markUntranslated (original : Str) (reason : UntranslatedReason) : Str × Option Nat :=
  if reason.isGap then
    (original ++ " [untranslated: ".toList ++ reason.label ++ [']'], some (Text.utf8Length original))
  else (original, none)

def composeDisplay (translated original : Str) (showOriginal : Bool) : Str × Option Nat :=
  if !showOriginal || translated == original then (translated, none)
  else (translated ++ " [".toList ++ original ++ [']'], some (Text.utf8Length translated))

/-- What the network carried for a row whose display differs from it. -/
structure WireOrigin where
  text : Str
  suffixAt : Option Nat
  deriving DecidableEq

/-- A chat row; `rest` is what the queue neither reads nor writes of it. -/
structure Message (ρ : Type) where
  text : Str
  wireOrigin : Option WireOrigin
  rest : ρ
  deriving DecidableEq

inductive ActivityLevel where
  | none
  | events
  | highlight
  | activity
  | mention
  deriving DecidableEq

abbrev Row (ρ : Type) : Type := Message ρ × ActivityLevel

structure PendingPayload (ρ : Type) where
  message : Message ρ
  activity : ActivityLevel
  showOriginal : Bool
  deriving DecidableEq

inductive ReadyDelivery where
  | logged
  | transient
  | localLine
  deriving DecidableEq

inductive ReadyOrigin where
  | notTranslated
  | translated
  | untranslated (reason : UntranslatedReason)
  deriving DecidableEq

/-- A reservation waits for rows that do not exist yet and parks those that came early; a pending
line waits for its translation. -/
inductive Slot (ρ : Type) where
  | reserved (queuedAt : Nat) (held : List (Row ρ))
  | pending (original : Str) (payload : PendingPayload ρ) (queuedAt : Nat)
  | ready (message : Message ρ) (level : ActivityLevel) (origin : ReadyOrigin)
      (delivery : ReadyDelivery)
  deriving DecidableEq

structure Entry (ρ : Type) where
  id : Nat
  slot : Slot ρ
  deriving DecidableEq

def Entry.isReserved (e : Entry ρ) : Bool :=
  match e.slot with
  | .reserved .. => true
  | _ => false

def Entry.isPending (e : Entry ρ) : Bool :=
  match e.slot with
  | .pending .. => true
  | _ => false

def Entry.isReady (e : Entry ρ) : Bool :=
  match e.slot with
  | .ready .. => true
  | _ => false

def Entry.queuedAt (e : Entry ρ) : Nat :=
  match e.slot with
  | .reserved since _ => since
  | .pending _ _ since => since
  | .ready .. => 0

/-- A line cleared for delivery. -/
structure ReadyEntry (ρ : Type) where
  id : Nat
  message : Message ρ
  activity : ActivityLevel
  origin : ReadyOrigin
  delivery : ReadyDelivery
  deriving DecidableEq

structure CeilingForced where
  forced : Nat
  barriersLifted : Nat
  deriving DecidableEq

structure Expired where
  timedOut : Nat
  abandonedReservations : List Nat
  deriving DecidableEq

structure TranslateQueue (ρ : Type) where
  entries : List (Entry ρ)
  deriving DecidableEq

namespace TranslateQueue

def new : TranslateQueue ρ := ⟨[]⟩

variable (q : TranslateQueue ρ)

def pushBack (e : Entry ρ) : TranslateQueue ρ := ⟨q.entries ++ [e]⟩

def pushPendingAt (id : Nat) (original : Str) (payload : PendingPayload ρ) (now : Nat) :
    TranslateQueue ρ :=
  q.pushBack ⟨id, .pending original payload now⟩

def pushUntranslated (id : Nat) (message : Message ρ) (level : ActivityLevel)
    (reason : UntranslatedReason) : TranslateQueue ρ :=
  q.pushBack ⟨id, .ready message level (.untranslated reason) .logged⟩

def pushResolvedAs (id : Nat) (message : Message ρ) (level : ActivityLevel)
    (delivery : ReadyDelivery) : TranslateQueue ρ :=
  q.pushBack ⟨id, .ready message level .notTranslated delivery⟩

def pushResolved (id : Nat) (message : Message ρ) (level : ActivityLevel) : TranslateQueue ρ :=
  q.pushResolvedAs id message level .logged

def reserveAt (id now : Nat) : TranslateQueue ρ :=
  q.pushBack ⟨id, .reserved now []⟩

/-- A row of a reservation, cleared for delivery. -/
def rowEntry (id : Nat) (row : Row ρ) : Entry ρ :=
  ⟨id, .ready row.1 row.2 .notTranslated .logged⟩

/-- Places a ready row before the first entry with a larger id. -/
def insertResolvedInOrder (id : Nat) (message : Message ρ) (level : ActivityLevel) :
    TranslateQueue ρ :=
  match splitAtFirst (fun e => decide (id < e.id)) q.entries with
  | some (earlier, e, later) => ⟨earlier ++ rowEntry id (message, level) :: e :: later⟩
  | none => q.pushBack (rowEntry id (message, level))

/-- Parks a row at its reservation; the row comes back when the reservation is gone. -/
def holdInReserved (id : Nat) (message : Message ρ) (level : ActivityLevel) :
    TranslateQueue ρ × Option (Message ρ) :=
  match splitAtFirst (fun e => e.id == id) q.entries with
  | some (earlier, ⟨key, .reserved since held⟩, later) =>
      (⟨earlier ++ ⟨key, .reserved since (held ++ [(message, level)])⟩ :: later⟩, none)
  | _ => (q, some message)

/-- Fills a reservation with the parked rows and the given ones, all under its id. No row at all
gives the place back; `false` when the reservation is gone. -/
def fillReservedWith (id : Nat) (rows : List (Row ρ)) : TranslateQueue ρ × Bool :=
  match splitAtFirst (fun e => e.id == id && e.isReserved) q.entries with
  | some (earlier, ⟨key, .reserved _ held⟩, later) =>
      (⟨earlier ++ (held ++ rows).map (rowEntry key) ++ later⟩, true)
  | _ => (q, false)

def holdsReservation (id : Nat) : Bool :=
  q.entries.any fun e => e.id == id && e.isReserved

/-- Ends a reservation whose remaining rows will never arrive; the parked ones are released. -/
def releaseReserved (id : Nat) : TranslateQueue ρ := (q.fillReservedWith id []).1

/-- The row a pending line becomes. -/
def resolvedSlot (original : Str) (payload : PendingPayload ρ)
    (outcome : Except UntranslatedReason Str) : Slot ρ :=
  match outcome with
  | .ok translated =>
      let display := composeDisplay translated original payload.showOriginal
      .ready { payload.message with
          text := display.1
          wireOrigin := some ⟨original, display.2⟩ }
        payload.activity .translated .logged
  | .error reason =>
      let display := markUntranslated original reason
      .ready { payload.message with
          text := display.1
          wireOrigin := some ⟨original, display.2⟩ }
        payload.activity (.untranslated reason) .logged

/-- Folds an outcome into its line; `false` when the id is unknown or already resolved. -/
def resolve (id : Nat) (outcome : Except UntranslatedReason Str) : TranslateQueue ρ × Bool :=
  match splitAtFirst (fun e => e.id == id) q.entries with
  | some (earlier, ⟨key, .pending original payload _⟩, later) =>
      (⟨earlier ++ ⟨key, resolvedSlot original payload outcome⟩ :: later⟩, true)
  | _ => (q, false)

/-- The ready entries at the head, and the rest. -/
def popReady : List (Entry ρ) → List (ReadyEntry ρ) × List (Entry ρ)
  | [] => ([], [])
  | ⟨id, .ready message level origin delivery⟩ :: rest =>
      let popped := popReady rest
      (⟨id, message, level, origin, delivery⟩ :: popped.1, popped.2)
  | e :: rest => ([], e :: rest)

def drainReady : TranslateQueue ρ × List (ReadyEntry ρ) :=
  (⟨(popReady q.entries).2⟩, (popReady q.entries).1)

/-- Ends the wait of one entry, whatever it waits for. -/
def giveUp (id : Nat) : TranslateQueue ρ :=
  ((q.releaseReserved id).resolve id (.error .timeout)).1

def giveUpAll (entries : List (Entry ρ)) : TranslateQueue ρ :=
  entries.foldl (fun q e => q.giveUp e.id) q

/-- Forces every entry that has waited for at least `timeout`. -/
def expire (now timeout : Nat) : TranslateQueue ρ × Expired :=
  let expired := q.entries.filter fun e => !e.isReady && decide (timeout ≤ now - e.queuedAt)
  (q.giveUpAll expired, ⟨expired.length, (expired.filter Entry.isReserved).map Entry.id⟩)

/-- Forces the oldest waiting entries, as many as the queue is over its bound. -/
def enforceCeiling (max : Nat) : TranslateQueue ρ × CeilingForced :=
  if q.entries.length ≤ max then (q, ⟨0, 0⟩)
  else
    let forced := (q.entries.filter fun e => !e.isReady).take (q.entries.length - max)
    (q.giveUpAll forced, ⟨forced.length, (forced.filter Entry.isReserved).length⟩)

/-- Releases everything, untranslated where still pending. -/
def flushAll : TranslateQueue ρ × List (ReadyEntry ρ) :=
  (q.giveUpAll (q.entries.filter fun e => !e.isReady)).drainReady

/-- Releases the lines that wait for a translation, and leaves the reservations alone. -/
def flushPending : TranslateQueue ρ × List (ReadyEntry ρ) :=
  let pending := q.entries.filter Entry.isPending
  (pending.foldl (fun q e => (q.resolve e.id (.error .timeout)).1) q).drainReady

end TranslateQueue

end Repartee.Translate
