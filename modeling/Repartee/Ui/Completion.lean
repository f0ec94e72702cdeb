import Mathlib.Data.List.Sort
import Repartee.Ui.Input

/-!
Tab completion in the input line. The first Tab completes the word in front of the cursor and keeps
the candidates, each further one takes the next of them in turn. The Tab keys keep the rest of the
line if and only if there is nothing behind the cursor to be kept or nothing to complete with.
-/

namespace Repartee.Ui

open Repartee.Text
open Repartee.Lib.Offsets
open Repartee.Irc (Unicode)

/-- What a Tab completes with, as it stands at the time. -/
structure Sources where
  unicode : Unicode
  tagNames : List Str
  subcommandNames : Str → List Str
  nicks : List Str
  lastSpeakers : List Str
  commands : List Str
  settingPaths : List Str
  emotesEnabled : Bool

/-! ### Candidates -/

/-- The order of the code points, which is that of the bytes. -/
def lexLe : Str → Str → Bool
  | [], _ => true
  | _ :: _, [] => false
  | c :: s, d :: t => c.toNat < d.toNat || (c == d && lexLe s t)

def sortByLowercase (unicode : Unicode) (names : List Str) : List Str :=
  names.insertionSort fun a b => lexLe (unicode.toLowercase a) (unicode.toLowercase b) = true

def startsWithLower (unicode : Unicode) (start name : Str) : Bool :=
  (unicode.toLowercase start).isPrefixOf (unicode.toLowercase name)

/-- The text up to the last of a character, and the text behind it. -/
def splitBehindLast (c : Char) (text : Str) : Str × Str :=
  ((text.reverse.dropWhile (· != c)).reverse, (text.reverse.takeWhile (· != c)).reverse)

/-- The word to complete, behind the last space and the last comma in it, and what is before it. -/
def splitCompletionWord (text : Str) : Str × Str :=
  let spaced := splitBehindLast ' ' text
  let listed := splitBehindLast ',' spaced.2
  (spaced.1 ++ listed.1, listed.2)

/-- What is behind a single leading colon, if anything is. -/
def emotePart (word : Str) : Option Str :=
  match stripPrefix [':'] word with
  | some part => if part.isEmpty || part.contains ':' then none else some part
  | none => none

def emoteCompletions (tagNames : List Str) (word : Str) : Option (List Str) :=
  (emotePart word).map fun part =>
    (tagNames.filter fun name => (asciiLower part).isPrefixOf name).map fun name =>
      ':' :: name ++ [':']

/-- Those who spoke last come first, the others follow in alphabetical order. -/
def nickCompletions (src : Sources) (start : Str) : List Str :=
  let recent := src.lastSpeakers.filter (startsWithLower src.unicode start)
  let recentLower := recent.map src.unicode.toLowercase
  let rest := src.nicks.filter fun name =>
    startsWithLower src.unicode start name && !recentLower.contains (src.unicode.toLowercase name)
  recent ++ sortByLowercase src.unicode rest

inductive SubcommandContext where
  | help
  | set
  | subcommand (names : List Str)
  deriving DecidableEq

def detectSubcommandContext (src : Sources) (textBefore : Str) : Option SubcommandContext :=
  let lower := src.unicode.toLowercase (trim textBefore)
  if lower = "/help".toList ∨ lower = "/?".toList then some .help
  else if lower = "/set".toList then some .set
  else match stripPrefix ['/'] lower with
    | some cmd =>
        if cmd.contains ' ' || (src.subcommandNames cmd).isEmpty then none
        else some (.subcommand (src.subcommandNames cmd))
    | none => none

def matching (unicode : Unicode) (start : Str) (names : List Str) : List Str :=
  sortByLowercase unicode (names.filter (startsWithLower unicode start))

def isCommandWord (textBefore word : Str) : Bool := textBefore.isEmpty && word.head? == some '/'

def isEmoteWord (src : Sources) (word : Str) : Bool :=
  src.emotesEnabled && (emotePart word).isSome

def candidates (src : Sources) (textBefore word : Str) : List Str :=
  if isEmoteWord src word then (emoteCompletions src.tagNames word).getD []
  else match detectSubcommandContext src textBefore with
    | some .help => matching src.unicode word src.commands
    | some .set => matching src.unicode word src.settingPaths
    | some (.subcommand names) => matching src.unicode word names
    | none =>
        if isCommandWord textBefore word then
          sortByLowercase src.unicode
            ((src.commands.filter (startsWithLower src.unicode (word.drop 1))).map ('/' :: ·))
        else nickCompletions src word

def suffixFor (isStartOfLine isCommand : Bool) : Str :=
  if isCommand then " ".toList else if isStartOfLine then ": ".toList else " ".toList

/-! ### The key -/

def TabCompletionState.suffix (tab : TabCompletionState) : Str :=
  suffixFor tab.isStartOfLine tab.isCommand

/-- What the first Tab begins, unless there is nothing to complete or nothing to complete with. -/
def beginCompletion (src : Sources) (text : Str) : Option TabCompletionState :=
  let textBefore := (splitCompletionWord text).1
  let word := (splitCompletionWord text).2
  if word.isEmpty || (candidates src textBefore word).isEmpty then none
  else some
    { tabPrefix := word
      candidates := candidates src textBefore word
      index := 0
      textBefore := textBefore
      isStartOfLine := textBefore.isEmpty && !isEmoteWord src word
      isCommand := isCommandWord textBefore word }

def TabCompletionState.line (tab : TabCompletionState) : Str :=
  tab.textBefore ++ tab.candidates.getD tab.index [] ++ tab.suffix

namespace InputState

def showCompletion (s : InputState) (tab : TabCompletionState) : InputState :=
  { s with value := tab.line, cursorPos := utf8Length tab.line, tabState := some tab }

def tabComplete (src : Sources) (s : InputState) : Option InputState :=
  match s.tabState with
  | some tab =>
      if tab.candidates.isEmpty then some s
      else some (s.showCompletion { tab with index := (tab.index + 1) % tab.candidates.length })
  | none => do
      let text ← sliceTo s.value s.cursorPos
      match beginCompletion src text with
      | none => some s
      | some tab => some (s.showCompletion tab)

end InputState

/-- Shift-Tab is not bound to anything in the input line. -/
inductive TabKey where
  | tab (src : Sources)
  | backTab

def pressTab (s : InputState) : TabKey → Option InputState
  | .tab src => s.tabComplete src
  | .backTab => some s

def pressTabs (s : InputState) (keys : List TabKey) : Option InputState := keys.foldlM pressTab s

/-! ### The rest of the line -/

section Word

theorem splitBehindLast_append (c : Char) (text : Str) :
    (splitBehindLast c text).1 ++ (splitBehindLast c text).2 = text := by
  rw [splitBehindLast, ← List.reverse_append, List.takeWhile_append_dropWhile, List.reverse_reverse]

theorem splitBehindLast_free (c : Char) (text : Str) : c ∉ (splitBehindLast c text).2 := by
  intro member
  have kept := List.mem_takeWhile_imp (List.mem_reverse.mp member)
  simp at kept

theorem splitCompletionWord_append (text : Str) :
    (splitCompletionWord text).1 ++ (splitCompletionWord text).2 = text := by
  simp only [splitCompletionWord]
  rw [List.append_assoc, splitBehindLast_append, splitBehindLast_append]

theorem splitCompletionWord_free (text : Str) :
    ' ' ∉ (splitCompletionWord text).2 ∧ ',' ∉ (splitCompletionWord text).2 := by
  constructor
  · intro member
    apply splitBehindLast_free ' ' text
    rw [← splitBehindLast_append ',' (splitBehindLast ' ' text).2]
    exact List.mem_append_right _ member
  · exact splitBehindLast_free ',' _

end Word

section Frames

variable (s : InputState) (before after : Str)

/-- A line with the cursor between two parts of it and no completion under way. -/
def lineAt : InputState :=
  { s with value := before ++ after, cursorPos := utf8Length before, tabState := none }

def tabCount : List TabKey → Nat
  | [] => 0
  | .backTab :: keys => tabCount keys
  | .tab _ :: keys => tabCount keys + 1

/-- The word in front of the cursor is empty, or nothing begins like it. -/
def NothingToComplete (src : Sources) : Prop :=
  (splitCompletionWord before).2 = [] ∨
    candidates src (splitCompletionWord before).1 (splitCompletionWord before).2 = []

/-- The line the keys are to leave: the first Tab that finds candidates puts one of them, and its
suffix, in the place of the word, the Tabs after it take the candidates in turn. -/
def framed : List TabKey → Str
  | [] => before ++ after
  | .backTab :: keys => framed keys
  | .tab src :: keys =>
      match beginCompletion src before with
      | none => framed keys
      | some tab =>
          tab.textBefore ++ tab.candidates.getD (tabCount keys % tab.candidates.length) [] ++
            tab.suffix ++ after

/-- The keys replace the word in front of the cursor and nothing else, and as many further Tabs as
there are candidates lead back to the first. -/
structure FramesRest (keys : List TabKey) : Prop where
  word : ∀ src tab, beginCompletion src before = some tab →
    before = tab.textBefore ++ tab.tabPrefix ∧ tab.tabPrefix ≠ [] ∧
      ' ' ∉ tab.tabPrefix ∧ ',' ∉ tab.tabPrefix
  line : ∃ t, pressTabs (lineAt s before after) keys = some t ∧ t.value = framed before after keys
  cycle : ∀ src tab more, beginCompletion src before = some tab →
    tabCount more = tab.candidates.length →
    (pressTabs (lineAt s before after) (.tab src :: more)).map InputState.value =
      (pressTabs (lineAt s before after) [.tab src]).map InputState.value

variable {s before after} {src : Sources} {tab : TabCompletionState} {keys : List TabKey}

theorem beginCompletion_none : beginCompletion src before = none ↔ NothingToComplete before src := by
  simp only [beginCompletion, NothingToComplete, ite_eq_left_iff, Bool.or_eq_true,
    List.isEmpty_iff, reduceCtorEq, imp_false, not_not]

theorem beginCompletion_some (found : beginCompletion src before = some tab) :
    tab.textBefore = (splitCompletionWord before).1 ∧
      tab.tabPrefix = (splitCompletionWord before).2 ∧ tab.tabPrefix ≠ [] ∧
      tab.candidates ≠ [] ∧ tab.index = 0 := by
  simp only [beginCompletion, Option.ite_none_left_eq_some, Bool.or_eq_true, List.isEmpty_iff,
    not_or, Option.some.injEq] at found
  rcases found with ⟨some_, rfl⟩
  exact ⟨rfl, rfl, some_.1, some_.2, rfl⟩

theorem pressTabs_cons (key : TabKey) :
    pressTabs s (key :: keys) = (pressTab s key).bind fun t => pressTabs t keys := rfl

/-- Once a completion is under way each Tab takes the next candidate. -/
theorem pressTabs_cycling (keys : List TabKey) (active : s.tabState = some tab)
    (some_ : tab.candidates ≠ []) (current : tab.index < tab.candidates.length)
    (shown : s.value = tab.line) :
    ∃ t, pressTabs s keys = some t ∧ t.value = tab.textBefore ++
      tab.candidates.getD ((tab.index + tabCount keys) % tab.candidates.length) [] ++
        tab.suffix := by
  induction keys generalizing s tab with
  | nil =>
      refine ⟨s, rfl, ?_⟩
      rw [shown, tabCount, Nat.add_zero, Nat.mod_eq_of_lt current]
      rfl
  | cons key keys ih =>
      cases key with
      | backTab => exact ih active some_ current shown
      | tab src =>
          have step : s.tabComplete src =
              some (s.showCompletion
                { tab with index := (tab.index + 1) % tab.candidates.length }) := by
            simp [InputState.tabComplete, active, some_]
          have active_ : (s.showCompletion
              { tab with index := (tab.index + 1) % tab.candidates.length }).tabState =
                some { tab with index := (tab.index + 1) % tab.candidates.length } := rfl
          have next := ih active_ some_ (Nat.mod_lt _ (List.length_pos_of_ne_nil some_)) rfl
          rw [pressTabs_cons, pressTab, step, Option.bind_some]
          rcases next with ⟨t, ran, value⟩
          refine ⟨t, ran, ?_⟩
          rw [value, Nat.mod_add_mod, tabCount, Nat.add_assoc, Nat.add_comm 1]
          rfl

theorem tabComplete_fresh (src : Sources) :
    (lineAt s before after).tabComplete src =
      some ((beginCompletion src before).elim (lineAt s before after)
        (lineAt s before after).showCompletion) := by
  have text : sliceTo (before ++ after) (utf8Length before) = some before := sliceTo_append _ _
  simp only [InputState.tabComplete, lineAt, text, Option.bind_eq_bind, Option.bind_some]
  cases beginCompletion src before with
  | none => rfl
  | some tab => rfl

theorem pressTabs_found (s : InputState) (after : Str) (keys : List TabKey)
    (found : beginCompletion src before = some tab) :
    ∃ t, pressTabs (lineAt s before after) (.tab src :: keys) = some t ∧ t.value =
      tab.textBefore ++ tab.candidates.getD (tabCount keys % tab.candidates.length) [] ++
        tab.suffix := by
  have begun := beginCompletion_some found
  have length := List.length_pos_of_ne_nil begun.2.2.2.1
  rw [pressTabs_cons, pressTab, tabComplete_fresh, found, Option.bind_some, Option.elim_some]
  have active : ((lineAt s before after).showCompletion tab).tabState = some tab := rfl
  have current : tab.index < tab.candidates.length := by
    rw [begun.2.2.2.2]
    exact length
  rcases pressTabs_cycling keys active begun.2.2.2.1 current rfl with ⟨t, ran, value⟩
  rw [begun.2.2.2.2, Nat.zero_add] at value
  exact ⟨t, ran, value⟩

theorem pressTabs_idle (s : InputState) (after : Str)
    (idle : ∀ src, TabKey.tab src ∈ keys → NothingToComplete before src) :
    pressTabs (lineAt s before after) keys = some (lineAt s before after) ∧
      framed before after keys = before ++ after := by
  induction keys with
  | nil => exact ⟨rfl, rfl⟩
  | cons key keys ih =>
      have rest := ih fun src member => idle src (List.mem_cons_of_mem _ member)
      cases key with
      | backTab => exact rest
      | tab src =>
          have none_ := beginCompletion_none.mpr (idle src List.mem_cons_self)
          rw [pressTabs_cons, pressTab, tabComplete_fresh, framed, none_]
          exact rest

/-- A Tab that finds candidates leaves the line without what was behind the cursor. -/
theorem pressTabs_busy (s : InputState) (after : Str)
    (busy : ∃ src, TabKey.tab src ∈ keys ∧ ¬ NothingToComplete before src) :
    ∃ t, pressTabs (lineAt s before after) keys = some t ∧
      framed before after keys = t.value ++ after := by
  induction keys with
  | nil =>
      rcases busy with ⟨src, member, _⟩
      cases member
  | cons key keys ih =>
      cases key with
      | backTab =>
          apply ih
          rcases busy with ⟨src, member, finds⟩
          exact ⟨src, (List.mem_cons.mp member).resolve_left (by simp), finds⟩
      | tab src =>
          cases found : beginCompletion src before with
          | some tab =>
              rcases pressTabs_found s after keys found with ⟨t, ran, value⟩
              refine ⟨t, ran, ?_⟩
              rw [framed, found, value]
          | none =>
              rw [pressTabs_cons, pressTab, tabComplete_fresh, framed, found]
              apply ih
              rcases busy with ⟨other, member, finds⟩
              refine ⟨other, (List.mem_cons.mp member).resolve_left ?_, finds⟩
              intro same
              cases same
              exact finds (beginCompletion_none.mp found)

theorem pressTabs_cycle (found : beginCompletion src before = some tab)
    (all_ : tabCount keys = tab.candidates.length) :
    (pressTabs (lineAt s before after) (.tab src :: keys)).map InputState.value =
      (pressTabs (lineAt s before after) [.tab src]).map InputState.value := by
  rcases pressTabs_found s after keys found with ⟨t, ran, value⟩
  rcases pressTabs_found s after [] found with ⟨u, first, begun⟩
  rw [ran, first, Option.map_some, Option.map_some, value, begun, all_, tabCount, Nat.mod_self,
    Nat.zero_mod]

end Frames

/-- Tab and Shift-Tab keep the rest of the line if and only if nothing is behind the cursor or no
Tab finds anything to complete with. -/
theorem tab_frames_iff (s : InputState) (before after : Str) (keys : List TabKey) :
    FramesRest s before after keys ↔
      after = [] ∨ ∀ src, TabKey.tab src ∈ keys → NothingToComplete before src := by
  constructor
  · intro frames
    by_contra neither
    rw [not_or] at neither
    have busy : ∃ src, TabKey.tab src ∈ keys ∧ ¬ NothingToComplete before src := by
      simpa using neither.2
    rcases frames.line with ⟨t, ran, value⟩
    rcases pressTabs_busy s after busy with ⟨u, same, lost⟩
    rw [same] at ran
    cases ran
    rw [lost] at value
    exact neither.1 (List.self_eq_append_right.mp value)
  · intro either
    constructor
    · intro src tab found
      have begun := beginCompletion_some found
      have free := splitCompletionWord_free before
      rw [begun.1, begun.2.1, splitCompletionWord_append]
      exact ⟨rfl, begun.2.1 ▸ begun.2.2.1, free.1, free.2⟩
    · by_cases idle : ∀ src, TabKey.tab src ∈ keys → NothingToComplete before src
      · have still := pressTabs_idle s after idle
        exact ⟨_, still.1, still.2.symm⟩
      · have nothing : after = [] := either.resolve_right idle
        have busy : ∃ src, TabKey.tab src ∈ keys ∧ ¬ NothingToComplete before src := by
          simpa using idle
        rcases pressTabs_busy s after busy with ⟨t, ran, lost⟩
        refine ⟨t, ran, ?_⟩
        rw [lost, nothing, List.append_nil]
    · intro src tab more found all_
      exact pressTabs_cycle found all_

/-- Two names to complete a channel's nicks with. -/
def twoNicks : Sources :=
  ⟨Unicode.ascii, [], fun _ => [], ["bob".toList, "ann".toList], [], [], [], false⟩

/-- The line is "b hello" with the cursor behind the b: Tab leaves "bob: ". -/
theorem tab_drops_the_rest :
    ¬ FramesRest InputState.new "b".toList " hello".toList [.tab twoNicks] := by
  intro frames
  have lost : (pressTabs (lineAt InputState.new "b".toList " hello".toList) [.tab twoNicks]).map
      InputState.value = some "bob: ".toList := by decide +kernel
  rcases frames.line with ⟨t, ran, value⟩
  rw [ran, Option.map_some, value] at lost
  revert lost
  decide +kernel

end Repartee.Ui
