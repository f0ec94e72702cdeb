import Repartee.Lib.Keyed
import Repartee.Lib.Run
import Repartee.Lib.SlidingWindow
import Repartee.Text

/-!
The flood protection of a connection: the detectors for client requests, for the nicks without an
ident, for storms of them in private, for repeated texts and for nick changes. Readings of the
monotonic clock are in nanoseconds.
-/

namespace Repartee.Irc

open Text
open Lib

namespace Flood

inductive FloodResult where
  | allow
  | triggered
  | blocked
  deriving DecidableEq, Repr

/-- Whether the message should be suppressed. -/
def FloodResult.suppressed : FloodResult → Bool
  | .allow => false
  | .triggered => true
  | .blocked => true

def fromSecs (n : Nat) : Nat := n * 1000000000

def fromMins (n : Nat) : Nat := fromSecs (n * 60)

/-- The earliest time an instant can hold: seconds are kept in 64 bits with a sign. -/
def earliest : Int := -(2 ^ 63) * 1000000000

/-- None when the earlier time cannot be held. -/
def checkedSub (now : Nat) (window : Nat) : Option Int :=
  if earliest ≤ (now : Int) - window then some ((now : Int) - window) else none

def cutoff (now : Nat) (window : Nat) : Int := (checkedSub now window).getD now

/-- Removes the times before the window from the front. -/
def pruneWindow (times : List Nat) (now : Nat) (window : Nat) : List Nat :=
  times.dropWhile fun t => decide ((t : Int) < cutoff now window)

/-- The times that are in the window, wherever they stand. -/
def retainWindow (times : List Nat) (now : Nat) (window : Nat) : List Nat :=
  times.filter fun t => decide (cutoff now window ≤ (t : Int))

def ctcpLimits : SlidingWindow.Limits := ⟨5, fromSecs 5, fromMins 1⟩

def tildeNickLimits : SlidingWindow.Limits := ⟨5, fromSecs 5, fromMins 1⟩

def nickLimits : SlidingWindow.Limits := ⟨5, fromSecs 3, fromMins 1⟩

def pmStormThreshold : Nat := 6

def pmStormWindow : Nat := fromSecs 5

def pmStormBlock : Nat := fromMins 1

def dupMinInWindow : Nat := 5

def dupThreshold : Nat := 3

def dupWindow : Nat := fromSecs 5

def dupBlock : Nat := fromMins 1

/-- The tables a detector keeps for its keys. -/
structure Tracked (κ : Type) where
  times : Map κ (List Nat)
  blocked : Map κ Nat

section Tracked

variable {κ : Type} [DecidableEq κ]

/-- Drops the idle keys and the blocks that are over, once there are many keys. -/
def Tracked.cleanup (tracked : Tracked κ) (window now : Nat) : Tracked κ :=
  if tracked.times.rows.length > 200 then
    ⟨(tracked.times.mapValues fun _ times => retainWindow times now window).retain
        fun _ times => !times.isEmpty,
      tracked.blocked.retain fun _ till => decide (till > now)⟩
  else tracked

/-- A call for a key that is not blocked. -/
def Tracked.record (limits : SlidingWindow.Limits) (tracked : Tracked κ) (k : κ) (now : Nat) :
    FloodResult × Tracked κ :=
  let times := pruneWindow ((tracked.times.get? k).getD [] ++ [now]) now limits.window
  if times.length ≥ limits.threshold then
    (.triggered, ⟨tracked.times.insert k [], tracked.blocked.insert k (now + limits.block)⟩)
  else (.allow, Tracked.cleanup ⟨tracked.times.insert k times, tracked.blocked⟩ limits.window now)

/-- What the detectors with keys do with a call. -/
def Tracked.check (limits : SlidingWindow.Limits) (tracked : Tracked κ) (k : κ) (now : Nat) :
    FloodResult × Tracked κ :=
  match tracked.blocked.get? k with
  | some till =>
      if now < till then
        (.blocked, { tracked with blocked := tracked.blocked.insert k (now + limits.block) })
      else Tracked.record limits { tracked with blocked := tracked.blocked.erase k } k now
  | none => Tracked.record limits tracked k now

end Tracked

structure FloodState where
  ctcpTimes : List Nat
  ctcpBlockedUntil : Option Nat
  tildeNick : Tracked UInt64
  pmStormNicks : List (UInt64 × Nat)
  pmStormBlockedUntil : Option Nat
  msgWindow : List (UInt64 × Nat)
  blockedTexts : Map UInt64 Nat
  nick : Tracked Str

namespace FloodState

def new : FloodState :=
  ⟨[], none, ⟨Table.empty, Table.empty⟩, [], none, [], Table.empty, ⟨Table.empty, Table.empty⟩⟩

def recordCtcp (state : FloodState) (now : Nat) : FloodResult × FloodState :=
  let times := pruneWindow (state.ctcpTimes ++ [now]) now ctcpLimits.window
  if times.length ≥ ctcpLimits.threshold then
    (.triggered,
      { state with ctcpTimes := [], ctcpBlockedUntil := some (now + ctcpLimits.block) })
  else (.allow, { state with ctcpTimes := times })

def checkCtcpFlood (state : FloodState) (now : Nat) : FloodResult × FloodState :=
  match state.ctcpBlockedUntil with
  | some till =>
      if now < till then
        (.blocked, { state with ctcpBlockedUntil := some (now + ctcpLimits.block) })
      else recordCtcp { state with ctcpBlockedUntil := none } now
  | none => recordCtcp state now

section Hashed

-- The fingerprint of a text, the hash of the standard library.
variable (hashText : Str → UInt64)

/-- Blocks only the nick that floods. -/
def checkTildeNickFlood (state : FloodState) (nick : Str) (now : Nat) : FloodResult × FloodState :=
  let verdict := state.tildeNick.check tildeNickLimits (hashText nick) now
  (verdict.1, { state with tildeNick := verdict.2 })

def uniqueCount (entries : List (UInt64 × Nat)) : Nat := (entries.map Prod.fst).dedup.length

def recordPmTilde (state : FloodState) (nick : Str) (now : Nat) : FloodResult × FloodState :=
  let nicks := (state.pmStormNicks ++ [(hashText nick, now)]).filter fun entry =>
    decide (cutoff now pmStormWindow ≤ (entry.2 : Int))
  if uniqueCount nicks ≥ pmStormThreshold then
    (.triggered,
      { state with pmStormNicks := [], pmStormBlockedUntil := some (now + pmStormBlock) })
  else (.allow, { state with pmStormNicks := nicks })

/-- Many nicks without an ident in private within the window. -/
def checkPmTildeStorm (state : FloodState) (nick : Str) (now : Nat) : FloodResult × FloodState :=
  match state.pmStormBlockedUntil with
  | some till =>
      if now < till then
        (.blocked, { state with pmStormBlockedUntil := some (now + pmStormBlock) })
      else recordPmTilde hashText { state with pmStormBlockedUntil := none } nick now
  | none => recordPmTilde hashText state nick now

def recordText (state : FloodState) (hash : UInt64) (now : Nat) : FloodResult × FloodState :=
  let msgWindow := (state.msgWindow ++ [(hash, now)]).filter fun entry =>
    decide (cutoff now dupWindow ≤ (entry.2 : Int))
  if msgWindow.length ≥ dupMinInWindow &&
      (msgWindow.filter fun entry => entry.1 == hash).length ≥ dupThreshold then
    (.triggered,
      { state with
        msgWindow := msgWindow
        blockedTexts := state.blockedTexts.insert hash (now + dupBlock) })
  else if state.blockedTexts.rows.length > 50 then
    (.allow,
      { state with
        msgWindow := msgWindow
        blockedTexts := state.blockedTexts.retain fun _ till => decide (till > now) })
  else (.allow, { state with msgWindow := msgWindow })

/-- The same text again and again, in channels only. -/
def checkDuplicateFlood (state : FloodState) (text : Str) (isChannel : Bool) (now : Nat) :
    FloodResult × FloodState :=
  if !isChannel || text.isEmpty then (.allow, state)
  else
    match state.blockedTexts.get? (hashText text) with
    | some till =>
        if now < till then
          (.blocked,
            { state with blockedTexts := state.blockedTexts.insert (hashText text) (now + dupBlock) })
        else recordText state (hashText text) now
    | none => recordText state (hashText text) now

end Hashed

/-- Nick changes in one buffer. -/
def shouldSuppressNickFlood (state : FloodState) (bufferId : Str) (now : Nat) : Bool × FloodState :=
  let verdict := state.nick.check nickLimits bufferId now
  (verdict.1.suppressed, { state with nick := verdict.2 })

/-- The buffer has been closed. -/
def removeBuffer (state : FloodState) (bufferId : Str) : FloodState :=
  { state with nick := ⟨state.nick.times.erase bufferId, state.nick.blocked.erase bufferId⟩ }

end FloodState


inductive Call where
  | ctcp
  | tilde (nick : Str)
  | pmTilde (nick : Str)
  | duplicate (text : Str) (isChannel : Bool)
  | nickChange (bufferId : Str)
  | removeBuffer (bufferId : Str)
  deriving DecidableEq

inductive Answer where
  | result (verdict : FloodResult)
  | suppress (yes : Bool)
  | done
  deriving DecidableEq

section Runs

variable (hashText : Str → UInt64)

/-- A call at its time. -/
def call (state : FloodState) (now : Nat) : Call → Answer × FloodState
  | .ctcp => (.result (state.checkCtcpFlood now).1, (state.checkCtcpFlood now).2)
  | .tilde nick =>
      (.result (state.checkTildeNickFlood hashText nick now).1,
        (state.checkTildeNickFlood hashText nick now).2)
  | .pmTilde nick =>
      (.result (state.checkPmTildeStorm hashText nick now).1,
        (state.checkPmTildeStorm hashText nick now).2)
  | .duplicate text isChannel =>
      (.result (state.checkDuplicateFlood hashText text isChannel now).1,
        (state.checkDuplicateFlood hashText text isChannel now).2)
  | .nickChange bufferId =>
      (.suppress (state.shouldSuppressNickFlood bufferId now).1,
        (state.shouldSuppressNickFlood bufferId now).2)
  | .removeBuffer bufferId => (.done, state.removeBuffer bufferId)

/-- The calls with their answers, in order. -/
def answers : FloodState → List (Nat × Call) → List ((Nat × Call) × Answer)
  | _, [] => []
  | state, made :: rest =>
      let verdict := call hashText state made.1 made.2
      (made, verdict.1) :: answers verdict.2 rest

end Runs

/-- The decisions on the messages of a nick without an ident. -/
def tildeDecisions (nick : Str) (answered : List ((Nat × Call) × Answer)) :
    List (Nat × FloodResult) :=
  answered.filterMap fun entry =>
    match entry with
    | ((now, .tilde other), .result verdict) => if other = nick then some (now, verdict) else none
    | _ => none

def tildeTimes (nick : Str) (calls : List (Nat × Call)) : List Nat :=
  calls.filterMap fun made => if made.2 = .tilde nick then some made.1 else none

/-- The decisions on the nick changes in a buffer, and where the buffer was closed. -/
def nickDecisions (bufferId : Str) (answered : List ((Nat × Call) × Answer)) :
    List (Option (Nat × Bool)) :=
  answered.filterMap fun entry =>
    match entry with
    | ((now, .nickChange other), .suppress yes) =>
        if other = bufferId then some (some (now, yes)) else none
    | ((_, .removeBuffer other), .done) => if other = bufferId then some none else none
    | _ => none

def nickEvents (bufferId : Str) (calls : List (Nat × Call)) : List (Option Nat) :=
  calls.filterMap fun made =>
    if made.2 = .nickChange bufferId then some (some made.1)
    else if made.2 = .removeBuffer bufferId then some none
    else none

def toResult : SlidingWindow.Verdict → FloodResult
  | .allow => .allow
  | .triggered => .triggered
  | .blocked => .blocked

/-- The automaton of one key, fed the times of its calls. -/
def automaton (limits : SlidingWindow.Limits) :
    SlidingWindow.Window → List Nat → List (Nat × FloodResult)
  | _, [] => []
  | window, now :: rest =>
      let verdict := SlidingWindow.ask limits window now
      (now, toResult verdict.1) :: automaton limits verdict.2 rest

/-- The automaton of one buffer, which starts anew when the buffer is closed. -/
def bufferAutomaton (limits : SlidingWindow.Limits) :
    SlidingWindow.Window → List (Option Nat) → List (Option (Nat × Bool))
  | _, [] => []
  | window, some now :: rest =>
      let verdict := SlidingWindow.ask limits window now
      some (now, (toResult verdict.1).suppressed) :: bufferAutomaton limits verdict.2 rest
  | _, none :: rest => none :: bufferAutomaton limits SlidingWindow.empty rest

section Windows

variable {κ : Type} [DecidableEq κ] {limits : SlidingWindow.Limits} {last now : Nat}

open SlidingWindow (Alike Ordered Window ask counts)

/-- The window fits below every reading of the clock. -/
def Fits (limits : SlidingWindow.Limits) : Prop := (limits.window : Int) ≤ -earliest

theorem cutoff_eq (fits : Fits limits) (now : Nat) :
    cutoff now limits.window = (now : Int) - limits.window := by
  have held : earliest ≤ (now : Int) - limits.window := by
    unfold Fits at fits
    omega
  simp [cutoff, checkedSub, held]

theorem retainWindow_eq (fits : Fits limits) (times : List Nat) (now : Nat) :
    retainWindow times now limits.window = times.filter (counts limits now) := by
  apply List.filter_congr
  intro t _
  rw [cutoff_eq fits, counts, decide_eq_decide]
  omega

theorem pruneWindow_eq (fits : Fits limits) (times : List Nat) (now : Nat)
    (ordered : Ordered last times) :
    pruneWindow times now limits.window = times.filter (counts limits now) := by
  have dropped := ordered.dropWhile (fun t => decide ((t : Int) < cutoff now limits.window)) (by
    intro s t before old
    simp only [decide_eq_true_eq] at old ⊢
    omega)
  rw [pruneWindow, dropped]
  apply List.filter_congr
  intro t _
  rw [cutoff_eq fits, counts]
  by_cases old : (t : Int) < (now : Int) - limits.window
  · have gone : ¬now ≤ t + limits.window := by omega
    simp [old, gone]
  · have kept : now ≤ t + limits.window := by omega
    simp [old, kept]

namespace Tracked

/-- What is kept for a key. -/
def window (tracked : Tracked κ) (k : κ) : Window :=
  ⟨(tracked.times.get? k).getD [], tracked.blocked.get? k⟩

/-- The tables hold for a key what its automaton holds, as far as later calls can tell. -/
structure Follows (limits : SlidingWindow.Limits) (last : Nat) (tracked : Tracked κ) (k : κ)
    (w : Window) : Prop where
  alike : Alike limits last (tracked.window k) w
  ordered : Ordered last (tracked.window k).times

variable {tracked : Tracked κ} {k x : κ} {w : Window}

theorem cleanup_times (fits : Fits limits) (tracked : Tracked κ) (x : κ) (now : Nat) :
    ((tracked.cleanup limits.window now).window x = tracked.window x) ∨
      (tracked.cleanup limits.window now).window x =
        ⟨(tracked.window x).times.filter (counts limits now),
          (tracked.window x).blockedUntil.filter fun till => decide (now < till)⟩ := by
  unfold cleanup
  split
  · right
    simp only [window, Map.get?_retain, Map.get?_mapValues, Window.mk.injEq]
    refine ⟨?_, trivial⟩
    cases tracked.times.get? x with
    | none => rfl
    | some times =>
        simp only [Option.map_some, Option.getD_some, retainWindow_eq fits]
        cases times.filter (counts limits now) with
        | nil => rfl
        | cons t rest => rfl
  · left
    rfl

/-- The cleanup goes unnoticed. -/
theorem Follows.cleanup (fits : Fits limits) (follows : Follows limits now tracked x w) :
    Follows limits now (tracked.cleanup limits.window now) x w := by
  rcases cleanup_times fits tracked x now with same | swept
  · exact ⟨same ▸ follows.alike, same ▸ follows.ordered⟩
  · constructor
    · rw [swept]
      exact (Alike.swept now (tracked.window x)).trans follows.alike
    · rw [swept]
      exact follows.ordered.filter _

theorem Follows.later (follows : Follows limits last tracked x w) (ordered : last ≤ now) :
    Follows limits now tracked x w :=
  ⟨follows.alike.later ordered, follows.ordered.later ordered⟩

/-- The tables agree for a key. -/
theorem Follows.congr {other : Tracked κ} (follows : Follows limits last tracked x w)
    (same : other.window x = tracked.window x) : Follows limits last other x w :=
  ⟨same ▸ follows.alike, same ▸ follows.ordered⟩

theorem window_insert (times : List Nat) (tracked : Tracked κ) (k x : κ) :
    Tracked.window ⟨tracked.times.insert k times, tracked.blocked⟩ x =
      if k = x then ⟨times, (tracked.window k).blockedUntil⟩ else tracked.window x := by
  unfold window
  rw [Map.get?_insert]
  split
  · rename_i same
    rw [same]
    rfl
  · rfl

theorem window_block (till : Nat) (tracked : Tracked κ) (k x : κ) :
    Tracked.window { tracked with blocked := tracked.blocked.insert k till } x =
      if k = x then ⟨(tracked.window k).times, some till⟩ else tracked.window x := by
  unfold window
  simp only [Map.get?_insert]
  split
  · rename_i same
    rw [same]
  · rfl

theorem window_unblock (tracked : Tracked κ) (k x : κ) :
    Tracked.window { tracked with blocked := tracked.blocked.erase k } x =
      if k = x then ⟨(tracked.window k).times, none⟩ else tracked.window x := by
  unfold window
  simp only [Map.get?_erase]
  split
  · rename_i same
    rw [same]
  · rfl

/-- A call for another key goes unnoticed. -/
theorem record_other (fits : Fits limits) (other : k ≠ x)
    (follows : Follows limits now tracked x w) :
    Follows limits now (record limits tracked k now).2 x w := by
  unfold record
  simp only
  split
  · have both := window_block (now + limits.block) ⟨tracked.times.insert k [], tracked.blocked⟩ k x
    rw [if_neg other, window_insert, if_neg other] at both
    exact follows.congr both
  · apply Follows.cleanup fits
    exact follows.congr (by rw [window_insert, if_neg other])

theorem check_other (fits : Fits limits) (other : k ≠ x) (later : last ≤ now)
    (follows : Follows limits last tracked x w) :
    Follows limits now (check limits tracked k now).2 x w := by
  have here := follows.later later
  unfold check
  cases tracked.blocked.get? k with
  | none => exact record_other fits other here
  | some till =>
      simp only
      split
      · exact here.congr (by rw [window_block, if_neg other])
      · exact record_other fits other (here.congr (by rw [window_unblock, if_neg other]))

theorem filter_push (times : List Nat) (now : Nat) :
    (times ++ [now]).filter (counts limits now) = times.filter (counts limits now) ++ [now] := by
  simp [List.filter_append, counts]

/-- A call for a key that is not blocked is one step of its automaton. -/
theorem record_self (fits : Fits limits) (later : last ≤ now)
    (free : (tracked.window k).blockedUntil = none)
    (ordered : Ordered last (tracked.window k).times) :
    (record limits tracked k now).1 = toResult (ask limits (tracked.window k) now).1 ∧
      Follows limits now (record limits tracked k now).2 k (ask limits (tracked.window k) now).2 := by
  have pushed := ordered.push later
  have kept : pruneWindow ((tracked.times.get? k).getD [] ++ [now]) now limits.window =
      (tracked.window k).times.filter (counts limits now) ++ [now] := by
    rw [← filter_push]
    exact pruneWindow_eq fits _ now pushed
  have open_ : (tracked.window k).blockedAt now = false := by simp [Window.blockedAt, free]
  unfold record ask
  simp only [kept, open_, Bool.false_eq_true, if_false, ge_iff_le]
  split
  · refine ⟨rfl, ?_⟩
    have both := window_block (now + limits.block) ⟨tracked.times.insert k [], tracked.blocked⟩ k k
    rw [if_pos rfl, window_insert, if_pos rfl] at both
    exact ⟨both ▸ Alike.refl now _, both ▸ Ordered.nil now⟩
  · refine ⟨rfl, Follows.cleanup fits ?_⟩
    have stored := window_insert ((tracked.window k).times.filter (counts limits now) ++ [now])
      tracked k k
    rw [if_pos rfl, free] at stored
    refine ⟨stored ▸ Alike.refl now _, ?_⟩
    rw [stored]
    exact (ordered.filter _).push later

/-- A call for a key is one step of its automaton. -/
theorem check_window (fits : Fits limits) (later : last ≤ now)
    (ordered : Ordered last (tracked.window k).times) :
    (check limits tracked k now).1 = toResult (ask limits (tracked.window k) now).1 ∧
      Follows limits now (check limits tracked k now).2 k (ask limits (tracked.window k) now).2 := by
  unfold check
  cases found : tracked.blocked.get? k with
  | none => exact record_self fits later found ordered
  | some till =>
      simp only
      split
      · rename_i barred
        have held : (tracked.window k).blockedAt now = true := by
          simp [Window.blockedAt, window, found, barred]
        have stored := window_block (now + limits.block) tracked k k
        rw [if_pos rfl] at stored
        simp only [ask, held, if_true]
        exact ⟨rfl, stored ▸ Alike.refl now _, stored ▸ ordered.later later⟩
      · rename_i over_
        have freed := window_unblock tracked k k
        rw [if_pos rfl] at freed
        have passed : (tracked.window k).blockedAt now = false := by
          simp [Window.blockedAt, window, found, over_]
        have step : ask limits (tracked.window k) now =
            ask limits (window { tracked with blocked := tracked.blocked.erase k } k) now := by
          rw [freed]
          simp only [ask, passed]
          rfl
        rw [step]
        exact record_self fits later (by rw [freed]) (by rw [freed]; exact ordered)

/-- What the detectors answer is what the automaton of the key answers. -/
theorem check_self (fits : Fits limits) (later : last ≤ now)
    (follows : Follows limits last tracked k w) :
    (check limits tracked k now).1 = toResult (ask limits w now).1 ∧
      Follows limits now (check limits tracked k now).2 k (ask limits w now).2 := by
  have own := check_window fits later follows.ordered
  have alike := follows.alike.ask later
  exact ⟨by rw [own.1, alike.1], own.2.alike.trans alike.2, own.2.ordered⟩

theorem follows_empty (k : κ) :
    Follows limits last (⟨Table.empty, Table.empty⟩ : Tracked κ) k SlidingWindow.empty :=
  ⟨Alike.refl last _, Ordered.nil last⟩

end Tracked

end Windows

section Decisions

variable {hashText : Str → UInt64} {state : FloodState} {last now : Nat}

theorem tildeNickLimits_fits : Fits tildeNickLimits := by
  unfold Fits
  decide

theorem nickLimits_fits : Fits nickLimits := by
  unfold Fits
  decide

theorem recordCtcp_frame (state : FloodState) (now : Nat) :
    (state.recordCtcp now).2.tildeNick = state.tildeNick ∧
      (state.recordCtcp now).2.nick = state.nick := by
  unfold FloodState.recordCtcp
  simp only
  split <;> exact ⟨rfl, rfl⟩

theorem recordPmTilde_frame (state : FloodState) (nick : Str) (now : Nat) :
    (state.recordPmTilde hashText nick now).2.tildeNick = state.tildeNick ∧
      (state.recordPmTilde hashText nick now).2.nick = state.nick := by
  unfold FloodState.recordPmTilde
  simp only
  split <;> exact ⟨rfl, rfl⟩

theorem recordText_frame (state : FloodState) (hash : UInt64) (now : Nat) :
    (state.recordText hash now).2.tildeNick = state.tildeNick ∧
      (state.recordText hash now).2.nick = state.nick := by
  unfold FloodState.recordText
  simp only
  split
  · exact ⟨rfl, rfl⟩
  · split <;> exact ⟨rfl, rfl⟩

/-- A call reaches the tables of its own detector only. -/
theorem call_frame (state : FloodState) (now : Nat) (made : Call) :
    ((∀ nick, made ≠ .tilde nick) → (call hashText state now made).2.tildeNick = state.tildeNick) ∧
      ((∀ b, made ≠ .nickChange b) → (∀ b, made ≠ .removeBuffer b) →
        (call hashText state now made).2.nick = state.nick) := by
  cases made with
  | ctcp =>
      have both : (state.checkCtcpFlood now).2.tildeNick = state.tildeNick ∧
          (state.checkCtcpFlood now).2.nick = state.nick := by
        unfold FloodState.checkCtcpFlood
        cases state.ctcpBlockedUntil with
        | none => exact recordCtcp_frame state now
        | some till =>
            simp only
            split
            · exact ⟨rfl, rfl⟩
            · exact recordCtcp_frame _ now
      exact ⟨fun _ => both.1, fun _ _ => both.2⟩
  | tilde nick => exact ⟨fun other => absurd rfl (other nick), fun _ _ => rfl⟩
  | pmTilde nick =>
      have both : (state.checkPmTildeStorm hashText nick now).2.tildeNick = state.tildeNick ∧
          (state.checkPmTildeStorm hashText nick now).2.nick = state.nick := by
        unfold FloodState.checkPmTildeStorm
        cases state.pmStormBlockedUntil with
        | none => exact recordPmTilde_frame state nick now
        | some till =>
            simp only
            split
            · exact ⟨rfl, rfl⟩
            · exact recordPmTilde_frame _ nick now
      exact ⟨fun _ => both.1, fun _ _ => both.2⟩
  | duplicate text isChannel =>
      have both : (state.checkDuplicateFlood hashText text isChannel now).2.tildeNick =
            state.tildeNick ∧
          (state.checkDuplicateFlood hashText text isChannel now).2.nick = state.nick := by
        unfold FloodState.checkDuplicateFlood
        split
        · exact ⟨rfl, rfl⟩
        · cases state.blockedTexts.get? (hashText text) with
          | none => exact recordText_frame state _ now
          | some till =>
              simp only
              split
              · exact ⟨rfl, rfl⟩
              · exact recordText_frame state _ now
      exact ⟨fun _ => both.1, fun _ _ => both.2⟩
  | nickChange bufferId => exact ⟨fun _ => rfl, fun other => absurd rfl (other bufferId)⟩
  | removeBuffer bufferId => exact ⟨fun _ => rfl, fun _ other => absurd rfl (other bufferId)⟩

/-- The calls are made in the order of their times. -/
def InOrder (calls : List (Nat × Call)) : Prop := (calls.map Prod.fst).Pairwise (· ≤ ·)

/-- The nicks without an ident that the calls are about. -/
def tildeNicks (calls : List (Nat × Call)) : List Str :=
  calls.filterMap fun made =>
    match made.2 with
    | .tilde nick => some nick
    | _ => none

/-- No other nick of the calls has the nick's fingerprint. -/
def Unshared (hashText : Str → UInt64) (nick : Str) (calls : List (Nat × Call)) : Prop :=
  ∀ other ∈ tildeNicks calls, hashText other = hashText nick → other = nick

theorem tilde_run (nick : Str) (calls : List (Nat × Call)) (unshared : Unshared hashText nick calls)
    (ordered : InOrder calls) (late : ∀ made ∈ calls, last ≤ made.1) (state : FloodState)
    (w : SlidingWindow.Window)
    (follows : state.tildeNick.Follows tildeNickLimits last (hashText nick) w) :
    tildeDecisions nick (answers hashText state calls) =
      automaton tildeNickLimits w (tildeTimes nick calls) := by
  induction calls generalizing last state w with
  | nil => rfl
  | cons made rest ih =>
      rcases made with ⟨now, made⟩
      have after : last ≤ now := late (now, made) List.mem_cons_self
      have sorted := List.pairwise_cons.mp ordered
      have apart : Unshared hashText nick rest := by
        intro other member
        exact unshared other ((List.sublist_cons_self _ rest).filterMap _ |>.subset member)
      have next := ih apart sorted.2 fun m member => sorted.1 m.1 (List.mem_map_of_mem member)
      have elsewhere (quiet : ∀ n, made ≠ .tilde n) :
          (call hashText state now made).2.tildeNick.Follows tildeNickLimits now (hashText nick) w := by
        rw [(call_frame state now made).1 quiet]
        exact follows.later after
      cases made with
      | tilde other =>
          by_cases own : other = nick
          · subst own
            have step := Tracked.check_self tildeNickLimits_fits after follows
            have tail := next (call hashText state now (.tilde other)).2 _ step.2
            calc
              tildeDecisions other (answers hashText state ((now, .tilde other) :: rest))
                  = (now, (state.tildeNick.check tildeNickLimits (hashText other) now).1) ::
                      tildeDecisions other
                        (answers hashText (call hashText state now (.tilde other)).2 rest) := by
                    simp [tildeDecisions, answers, call, FloodState.checkTildeNickFlood]
              _ = automaton tildeNickLimits w (tildeTimes other ((now, .tilde other) :: rest)) := by
                    rw [tail, step.1]
                    simp [tildeTimes, automaton]
          · have foreign : hashText other ≠ hashText nick := fun same =>
              own (unshared other (by simp [tildeNicks]) same)
            have tail := next (call hashText state now (.tilde other)).2 w
              (Tracked.check_other tildeNickLimits_fits foreign after follows)
            simpa [tildeDecisions, answers, call, tildeTimes, own] using tail
      | ctcp =>
          have tail := next _ w (elsewhere (by simp))
          simpa [tildeDecisions, answers, call, tildeTimes] using tail
      | pmTilde other =>
          have tail := next _ w (elsewhere (by simp))
          simpa [tildeDecisions, answers, call, tildeTimes] using tail
      | duplicate text isChannel =>
          have tail := next _ w (elsewhere (by simp))
          simpa [tildeDecisions, answers, call, tildeTimes] using tail
      | nickChange bufferId =>
          have tail := next _ w (elsewhere (by simp))
          simpa [tildeDecisions, answers, call, tildeTimes] using tail
      | removeBuffer bufferId =>
          have tail := next _ w (elsewhere (by simp))
          simpa [tildeDecisions, answers, call, tildeTimes] using tail

/-- The tables of a closed buffer are as if it had never been open; the others are as before. -/
theorem removeBuffer_window (state : FloodState) (closed bufferId : Str) :
    (state.removeBuffer closed).nick.window bufferId =
      if closed = bufferId then SlidingWindow.empty else state.nick.window bufferId := by
  unfold FloodState.removeBuffer Tracked.window
  simp only [Map.get?_erase]
  split <;> rfl

theorem nick_run (bufferId : Str) (calls : List (Nat × Call)) (ordered : InOrder calls)
    (late : ∀ made ∈ calls, last ≤ made.1) (state : FloodState) (w : SlidingWindow.Window)
    (follows : state.nick.Follows nickLimits last bufferId w) :
    nickDecisions bufferId (answers hashText state calls) =
      bufferAutomaton nickLimits w (nickEvents bufferId calls) := by
  induction calls generalizing last state w with
  | nil => rfl
  | cons made rest ih =>
      rcases made with ⟨now, made⟩
      have after : last ≤ now := late (now, made) List.mem_cons_self
      have sorted := List.pairwise_cons.mp ordered
      have next := ih sorted.2 fun m member => sorted.1 m.1 (List.mem_map_of_mem member)
      have elsewhere (quiet : ∀ b, made ≠ .nickChange b) (kept : ∀ b, made ≠ .removeBuffer b) :
          (call hashText state now made).2.nick.Follows nickLimits now bufferId w := by
        rw [(call_frame state now made).2 quiet kept]
        exact follows.later after
      cases made with
      | nickChange other =>
          by_cases own : other = bufferId
          · subst own
            have step := Tracked.check_self nickLimits_fits after follows
            have tail := next (call hashText state now (.nickChange other)).2 _ step.2
            calc
              nickDecisions other (answers hashText state ((now, .nickChange other) :: rest))
                  = some (now, (state.nick.check nickLimits other now).1.suppressed) ::
                      nickDecisions other
                        (answers hashText (call hashText state now (.nickChange other)).2 rest) := by
                    simp [nickDecisions, answers, call, FloodState.shouldSuppressNickFlood]
              _ = bufferAutomaton nickLimits w
                    (nickEvents other ((now, .nickChange other) :: rest)) := by
                    rw [tail, step.1]
                    simp [nickEvents, bufferAutomaton]
          · have tail := next (call hashText state now (.nickChange other)).2 w
              (Tracked.check_other nickLimits_fits own after follows)
            simpa [nickDecisions, answers, call, nickEvents, own] using tail
      | removeBuffer closed =>
          have step := removeBuffer_window state closed bufferId
          by_cases own : closed = bufferId
          · subst own
            rw [if_pos rfl] at step
            have tail := next (state.removeBuffer closed) SlidingWindow.empty
              ⟨step ▸ SlidingWindow.Alike.refl now _, step ▸ SlidingWindow.Ordered.nil now⟩
            simpa [nickDecisions, answers, call, nickEvents, bufferAutomaton] using tail
          · rw [if_neg own] at step
            have tail := next (state.removeBuffer closed) w ((follows.later after).congr step)
            simpa [nickDecisions, answers, call, nickEvents, own] using tail
      | ctcp =>
          have tail := next _ w (elsewhere (by simp) (by simp))
          simpa [nickDecisions, answers, call, nickEvents] using tail
      | pmTilde other =>
          have tail := next _ w (elsewhere (by simp) (by simp))
          simpa [nickDecisions, answers, call, nickEvents] using tail
      | duplicate text isChannel =>
          have tail := next _ w (elsewhere (by simp) (by simp))
          simpa [nickDecisions, answers, call, nickEvents] using tail
      | tilde other =>
          have tail := next _ w (elsewhere (by simp) (by simp))
          simpa [nickDecisions, answers, call, nickEvents] using tail

/-- The detectors with keys decide as the automaton of the key alone does, whatever is called in
between for other keys and whenever the tables are cleaned. -/
theorem flood_per_key (calls : List (Nat × Call)) (ordered : InOrder calls) :
    (∀ nick, Unshared hashText nick calls →
      tildeDecisions nick (answers hashText FloodState.new calls) =
        automaton tildeNickLimits SlidingWindow.empty (tildeTimes nick calls)) ∧
      ∀ bufferId, nickDecisions bufferId (answers hashText FloodState.new calls) =
        bufferAutomaton nickLimits SlidingWindow.empty (nickEvents bufferId calls) := by
  constructor
  · intro nick unshared
    exact tilde_run nick calls unshared ordered (fun made _ => Nat.zero_le made.1) FloodState.new _
      (Tracked.follows_empty _)
  · intro bufferId
    exact nick_run bufferId calls ordered (fun made _ => Nat.zero_le made.1) FloodState.new _
      (Tracked.follows_empty _)

/-- The fingerprints of the nicks of the burst. -/
def burstHash (nick : Str) : UInt64 :=
  if nick = "jim".toList then 0xed52d760fc58e92d else 0xd464f824e5712c51

/-- Five messages of one nick within the window, with others in between. -/
def burst : List (Nat × Call) :=
  [(0, .tilde "jim".toList), (1, .tilde "bob".toList), (2, .tilde "jim".toList),
    (3, .nickChange "net/#c".toList), (4, .tilde "jim".toList), (4, .ctcp),
    (5, .tilde "jim".toList), (6, .tilde "jim".toList), (7, .tilde "jim".toList)]

theorem burst_blocks :
    tildeDecisions "jim".toList (answers burstHash FloodState.new burst) =
      [(0, .allow), (2, .allow), (4, .allow), (5, .allow), (6, .triggered), (7, .blocked)] := by
  have ordered : InOrder burst := by
    unfold InOrder
    decide
  rw [(flood_per_key burst ordered).1 "jim".toList (by unfold Unshared; decide)]
  decide

end Decisions

end Flood

end Repartee.Irc
