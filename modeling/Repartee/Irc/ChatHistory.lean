import Repartee.Irc.Batch

/-!
The state of the history requests of a connection, and what a completed history batch does to it.
-/

namespace Repartee.Irc

open Text Lib

inductive Direction where
  | around | between | before | after | latest
  deriving DecidableEq

structure HistoryState where
  /-- By target in lower case and direction: the limit asked for and when. -/
  inFlight : Map (Str × Direction) (Nat × Nat)
  ambiguousReply : Bool
  clearedDisplayTargets : Finset Str
  beforeExhausted : Finset Str
  /-- The oldest line pulled, in milliseconds, with its message id. -/
  oldestFetched : Map Str (Int × Option Str)
  /-- The oldest line that was stored. -/
  oldestIngested : Map Str Int
  gapfillCutoffMs : Option Int
  gapfilledTargets : Finset Str
  closedTargets : Finset Str
  completion : Map Str Bool
  gapfillPages : Map Str Nat

def HistoryState.new : HistoryState :=
  ⟨Table.empty, false, ∅, ∅, Table.empty, Table.empty, none, ∅, ∅, Table.empty, Table.empty⟩

def maxGapfillPages : Nat := 10000

namespace HistoryState

variable (h : HistoryState)

def closeTarget (target : Str) : HistoryState :=
  { h with closedTargets := insert (asciiLower target) h.closedTargets }

def resetPagination (target : Str) : HistoryState :=
  { h with
    beforeExhausted := h.beforeExhausted.erase (asciiLower target)
    oldestFetched := h.oldestFetched.erase (asciiLower target)
    oldestIngested := h.oldestIngested.erase (asciiLower target) }

def anyInFlight (target : Str) : Bool :=
  h.inFlight.rows.any fun e => e.1.1 = asciiLower target

def shouldRequest (target : Str) (dir : Direction) (capEnabled : Bool) : Bool :=
  capEnabled && !h.anyInFlight target &&
    !(decide (dir = .before) && decide (asciiLower target ∈ h.beforeExhausted))

def markInFlight (now : Nat) (target : Str) (dir : Direction) (limit : Nat) : HistoryState :=
  { h with
    clearedDisplayTargets := h.clearedDisplayTargets.erase (asciiLower target)
    completion := h.completion.erase (asciiLower target)
    inFlight := h.inFlight.insert (asciiLower target, dir) (limit, now) }

def inFlightDirection (target : Str) : Option Direction :=
  (h.inFlight.rows.find? fun e => decide (e.1.1 = asciiLower target)).map fun e => e.1.2

def requestedLimit (target : Str) (dir : Direction) : Option Nat :=
  (h.inFlight.get? (asciiLower target, dir)).map Prod.fst

def suppressPendingDisplay (target : Str) : HistoryState :=
  if (h.inFlightDirection target).isSome then
    { h with clearedDisplayTargets := insert (asciiLower target) h.clearedDisplayTargets }
  else h

def displaySuppressed (target : Str) : Bool :=
  decide (asciiLower target ∈ h.clearedDisplayTargets)

def releaseStale (key : Str × Direction) : HistoryState :=
  { h with
    ambiguousReply := true
    completion := h.completion.insert key.1 false
    inFlight := h.inFlight.erase key }

/-- Releases the requests sent too long ago. -/
def clearStale (now timeout : Nat) : HistoryState :=
  let stale := (h.inFlight.rows.filter fun e => decide (timeout ≤ now - e.2.2)).map Prod.fst
  stale.foldl releaseStale h

def markBeforeExhausted (target : Str) : HistoryState :=
  { h with beforeExhausted := insert (asciiLower target) h.beforeExhausted }

def noteOldestIngested (target : Str) (oldestMs : Int) : HistoryState :=
  let kept := match h.oldestIngested.get? (asciiLower target) with
    | some cur => if oldestMs < cur then oldestMs else cur
    | none => oldestMs
  { h with oldestIngested := h.oldestIngested.insert (asciiLower target) kept }

/-- A connection was made. -/
def setGapfillCutoff (nowMs : Int) : HistoryState :=
  { h with
    gapfillCutoffMs := some nowMs
    ambiguousReply := false
    gapfilledTargets := ∅
    gapfillPages := Table.empty }

/-- The older of the line on record and the line given. -/
def lowerFetched (target : Str) (oldest : Int × Option Str) : HistoryState :=
  let kept := match h.oldestFetched.get? target with
    | some cur => if oldest.1 < cur.1 then oldest else cur
    | none => oldest
  { h with oldestFetched := h.oldestFetched.insert target kept }

/-- The request for a target is answered; a short page that closed well ends its history. -/
def settle (target : Str) (rows : Nat) (cleanEnd : Bool) (request : Direction × Nat) :
    HistoryState :=
  let h := { h with inFlight := h.inFlight.erase (target, request.1) }
  if cleanEnd && decide (request.1 = .before) && decide (rows < request.2) then
    h.markBeforeExhausted target
  else h

def completeTarget (target : Str) (rows : Nat) (oldest : Option (Int × Option Str))
    (cleanEnd : Bool) : HistoryState :=
  let target := asciiLower target
  let completed := (h.inFlight.rows.filter fun e => decide (e.1.1 = target)).map fun e =>
    (e.1.2, e.2.1)
  let advances := cleanEnd && completed.any fun c => decide (c.1 = .before)
  let h := match oldest with
    | some oldest => if advances then h.lowerFetched target oldest else h
    | none => h
  let h := if completed = [] then h
    else { h with completion := h.completion.insert target cleanEnd }
  completed.foldl (fun h request => h.settle target rows cleanEnd request) h

section Gapfill

variable (unicode : Unicode)

def noteGapfillPage (target : Str) : Bool × HistoryState :=
  let n := (h.gapfillPages.get? (unicode.toLowercase target)).getD 0 + 1
  (decide (n ≤ maxGapfillPages),
    { h with gapfillPages := h.gapfillPages.insert (unicode.toLowercase target) n })

def markConnectGapfilled (target : Str) : HistoryState :=
  { h with gapfilledTargets := insert (unicode.toLowercase target) h.gapfilledTargets }

def clearConnectGapfilled (target : Str) : HistoryState :=
  { h with gapfilledTargets := h.gapfilledTargets.erase (unicode.toLowercase target) }

end Gapfill

end HistoryState

section Completion

/-- What the ingest of a batch reports of its lines. -/
structure IngestOutcome where
  oldest : Option (Int × Option Str)
  newest : Option (Int × Option Str)
  oldestIngestedMs : Option Int

structure GapfillContinuation where
  target : Str
  anchorMs : Int
  anchorMsgid : Option Str
  deriving DecidableEq

/-- A history batch: its target, the lines that are no redactions, how the ingest went, and the
unpinned buffers its rows were shown in. -/
structure HistoryBatch where
  target : Str
  rows : Nat
  outcome : IngestOutcome
  surfaced : List Str
  cleanEnd : Bool

variable (unicode : Unicode)

/-- Whether rows of the batch are shown at all. -/
def collectDisplay (h : HistoryState) (serverOwned : Bool) (batch : HistoryBatch) : Bool :=
  let direction := h.inFlightDirection batch.target
  let isGapfill := direction = some .after ∨ direction = some .latest
  !h.displaySuppressed batch.target && (decide isGapfill || serverOwned) &&
    !(serverOwned && decide (direction = some .before) && !batch.cleanEnd)

/-- A full page of a gap, with its last line before the gap ends, calls for the next. -/
def nextPage (h : HistoryState) (batch : HistoryBatch) (afterLimit : Option Nat) :
    Option GapfillContinuation :=
  match afterLimit, batch.outcome.newest with
  | some limit, some (newestMs, newestMsgid) =>
      if batch.cleanEnd && decide (limit ≤ batch.rows) &&
          h.gapfillCutoffMs.all fun cutoff => newestMs < cutoff then
        some ⟨batch.target, newestMs, newestMsgid⟩
      else none
  | _, _ => none

/-- Counts the page that is called for, and calls for it while the cap allows. -/
def chainPage (h : HistoryState) (batch : HistoryBatch) (afterLimit : Option Nat) :
    Option GapfillContinuation × HistoryState :=
  match nextPage h batch afterLimit with
  | none => (none, h)
  | some continuation =>
      let noted := h.noteGapfillPage unicode batch.target
      (if noted.1 then some continuation else none, noted.2)

def processHistoryBatch (h : HistoryState) (serverOwned : Bool) (batch : HistoryBatch) :
    Option GapfillContinuation × HistoryState :=
  let direction := h.inFlightDirection batch.target
  let isBefore := decide (direction = some .before)
  let afterLimit :=
    if decide (direction = some .after) && !h.displaySuppressed batch.target then
      h.requestedLimit batch.target .after
    else none
  let surfaced := if collectDisplay h serverOwned batch && serverOwned && isBefore
    then batch.surfaced else []
  let h := h.completeTarget batch.target batch.rows batch.outcome.oldest batch.cleanEnd
  let h := match batch.outcome.oldestIngestedMs with
    | some ms => if isBefore then h.noteOldestIngested batch.target ms else h
    | none => h
  let paged := chainPage unicode h batch afterLimit
  (paged.1, surfaced.foldl HistoryState.resetPagination paged.2)

/-- A request that is only sent when it should be. -/
def HistoryState.request (h : HistoryState) (now : Nat) (target : Str) (dir : Direction)
    (limit : Nat) (capEnabled : Bool) : HistoryState :=
  if h.shouldRequest target dir capEnabled then h.markInFlight now target dir limit else h

end Completion

section Events

inductive HistoryEvent where
  | request (now : Nat) (target : Str) (dir : Direction) (limit : Nat) (capEnabled : Bool)
  /-- A completed batch, with the limit and the time of the request that may follow. -/
  | batch (serverOwned : Bool) (page : HistoryBatch) (now limit : Nat) (capEnabled : Bool)
  | complete (target : Str) (rows : Nat) (oldest : Option (Int × Option Str)) (cleanEnd : Bool)
  | clearStale (now timeout : Nat)
  | connect (nowMs : Int)
  | suppress (target : Str)
  | claim (target : Str)
  | unclaim (target : Str)
  | close (target : Str)
  | reset (target : Str)

variable (unicode : Unicode)

def HistoryEvent.exec (h : HistoryState) (event : HistoryEvent) : HistoryState :=
  match event with
  | .request now target dir limit capEnabled => h.request now target dir limit capEnabled
  | .batch serverOwned page now limit capEnabled =>
      let processed := processHistoryBatch unicode h serverOwned page
      match processed.1 with
      | none => processed.2
      | some next => processed.2.request now next.target .after limit capEnabled
  | .complete target rows oldest cleanEnd => h.completeTarget target rows oldest cleanEnd
  | .clearStale now timeout => h.clearStale now timeout
  | .connect nowMs => h.setGapfillCutoff nowMs
  | .suppress target => h.suppressPendingDisplay target
  | .claim target => h.markConnectGapfilled unicode target
  | .unclaim target => h.clearConnectGapfilled unicode target
  | .close target => h.closeTarget target
  | .reset target => h.resetPagination target

end Events

end Repartee.Irc
