import Repartee.Irc.ChannelModes
import Repartee.Lib.Run

/-!
What the server says about the modes of a channel and its nicks, by the classes it advertises, and
how far the client's record follows it.
-/

namespace Repartee.ChannelModes

open Repartee.Text
open Repartee.Lib
open Repartee.Irc

/-! ### What a line says -/

def Isupport.nickModes (isupport : Isupport) : Str := isupport.prefixMap.map Prod.fst

def Isupport.takesParam (isupport : Isupport) (adding : Bool) (c : Char) : Bool :=
  isupport.nickModes.contains c || isupport.chanmodeTypes.1.contains c ||
    isupport.chanmodeTypes.2.1.contains c || (adding && isupport.chanmodeTypes.2.2.1.contains c)

/-- A mode of nicks or of a list, that is, none of the channel's own. -/
def Isupport.listed (isupport : Isupport) (c : Char) : Bool :=
  isupport.nickModes.contains c || isupport.chanmodeTypes.1.contains c

/-- One change: whether the mode is set, its letter and its parameter. -/
abbrev Change : Type := Bool × Char × Option Str

/-- The changes of a line, each with the parameter that its class takes. -/
def changesOf (isupport : Isupport) : Bool → Str → List Str → List Change
  | _, [], _ => []
  | adding, c :: rest, args =>
      if c = '+' then changesOf isupport true rest args
      else if c = '-' then changesOf isupport false rest args
      else if isupport.takesParam adding c then
        (adding, c, args.head?) :: changesOf isupport adding rest args.tail
      else (adding, c, none) :: changesOf isupport adding rest args

inductive Event where
  | names (nicks : Str)
  | who (nick ident host realname : Str) (away : Bool) (account : Option (Option Str))
  | modeIs (modes : Str) (args : List Str)
  | mode (modes : Str) (args : List Str) (setBy : Str) (now : Int)

variable (P : Platform) (conn : Connection)

def Buffer.exec (buf : Buffer) : Event → Buffer
  | .names nicks => receiveNames P conn buf nicks
  | .who nick ident host realname away account =>
      updateWhoNickEntry P buf nick ident host realname away account
  | .modeIs modes args => receiveChannelModeIs buf modes args
  | .mode modes args setBy now => handleMode P buf modes args setBy now

/-- The letters the library has names for. -/
def namedModes : List (Char × ChannelMode) :=
  [('b', .ban), ('e', .exception), ('l', .limit), ('i', .inviteOnly), ('I', .inviteException),
    ('k', .key), ('m', .moderated), ('r', .registeredOnly), ('R', .reop), ('s', .secret),
    ('t', .protectedTopic), ('n', .noExternalMessages), ('q', .founder), ('a', .admin),
    ('o', .oper), ('h', .halfop), ('v', .voice)]

def ofLetter (c : Char) : ChannelMode :=
  ((namedModes.find? fun p => p.1 = c).map Prod.snd).getD (.unknown c)

def ofChange (change : Change) : Mode :=
  if change.1 then .plus (ofLetter change.2.1) change.2.2 else .minus (ofLetter change.2.1) change.2.2

/-- The library reads the line as the advertised classes say. -/
def Reads (modes : Str) (args : List Str) : Prop :=
  P.channelModes modes args = (changesOf conn.isupport true modes args).map ofChange

/-- A letter's name is one of the table's, or the letter is not in the table. -/
theorem ofLetter_cases (c : Char) :
    (c, ofLetter c) ∈ namedModes ∨ (∀ p ∈ namedModes, p.1 ≠ c) ∧ ofLetter c = .unknown c := by
  cases found : namedModes.find? fun p => p.1 = c with
  | some p =>
      left
      have here := List.mem_of_find?_eq_some found
      have same : p.1 = c := by simpa using List.find?_some found
      have named : ofLetter c = p.2 := by simp [ofLetter, found]
      rw [named, ← same]
      exact here
  | none =>
      right
      constructor
      · simpa using List.find?_eq_none.mp found
      · simp [ofLetter, found]

/-- What holds of the table and of the letters outside it holds of every letter. -/
theorem ofLetter_induction (property : Char → ChannelMode → Prop)
    (named : ∀ p ∈ namedModes, property p.1 p.2)
    (other : ∀ c, (∀ p ∈ namedModes, p.1 ≠ c) → property c (.unknown c)) (c : Char) :
    property c (ofLetter c) := by
  rcases ofLetter_cases c with here | ⟨outside, unknown⟩
  · exact named _ here
  · rw [unknown]
    exact other c outside

theorem channelModeLetter_ofLetter (c : Char) : channelModeLetter (ofLetter c) = c :=
  ofLetter_induction (fun c mode => channelModeLetter mode = c) (by decide) (fun _ _ => rfl) c

/-- The nick modes the client knows. -/
def usualNickModes : Str := "qaohv".toList

/-- A letter outside the table is none of those that are in it. -/
theorem not_mem_of_unnamed (letters : Str) (here : ∀ d ∈ letters, d ∈ namedModes.map Prod.fst)
    (c : Char) (outside : ∀ p ∈ namedModes, p.1 ≠ c) : c ∉ letters := by
  intro member
  rcases List.mem_map.mp (here c member) with ⟨p, named, same⟩
  exact outside p named same

theorem nickModeChar_ofLetter (c : Char) :
    nickModeChar (ofLetter c) = if c ∈ usualNickModes then some c else none := by
  apply ofLetter_induction fun c mode => nickModeChar mode = if c ∈ usualNickModes then some c else none
  · decide
  · intro c outside
    rw [if_neg (not_mem_of_unnamed usualNickModes (by simp [usualNickModes, namedModes]) c outside)]
    rfl

/-- The list modes the client knows. -/
def usualListModes : Str := "beIR".toList

theorem listMode_ofLetter (c : Char) :
    ofLetter c = .ban ∨ isListMode (ofLetter c) = true ↔ c ∈ usualListModes := by
  apply ofLetter_induction fun c mode => mode = .ban ∨ isListMode mode = true ↔ c ∈ usualListModes
  · decide
  · intro c outside
    have unlisted := not_mem_of_unnamed usualListModes (by simp [usualListModes, namedModes]) c outside
    simp [unlisted, isListMode]

/-! ### The modes of the channel -/

/-- The channel's own modes and their parameters. -/
structure OwnModes where
  set : List Char
  param : Char → Option Str

def OwnModes.apply (isupport : Isupport) (own : OwnModes) (change : Change) : OwnModes :=
  if isupport.listed change.2.1 then own
  else if change.1 then
    { set := own.set ++ [change.2.1]
      param := fun c => if c = change.2.1 ∧ change.2.2.isSome then change.2.2 else own.param c }
  else
    { set := own.set.filter fun c => c ≠ change.2.1
      param := fun c => if c = change.2.1 then none else own.param c }

def OwnModes.empty : OwnModes := ⟨[], fun _ => none⟩

/-- A mode reply says all there is; a MODE line what changes. -/
def OwnModes.exec (isupport : Isupport) (own : OwnModes) : Event → OwnModes
  | .modeIs modes args => (changesOf isupport true modes args).foldl (OwnModes.apply isupport) .empty
  | .mode modes args _ _ => (changesOf isupport true modes args).foldl (OwnModes.apply isupport) own
  | .names _ => own
  | .who .. => own

/-- The client has the same modes, with the same parameters. -/
structure Follows (own : OwnModes) (buf : Buffer) : Prop where
  modes : ∀ c, c ∈ buf.modes.getD [] ↔ c ∈ own.set
  params : ∀ c, (buf.modeParams.getD Table.empty).get? [c] = own.param c
  signless : '+' ∉ buf.modes.getD []

/-- Among the channel's own modes only the key and the limit have a parameter; and the modes of
nicks and lists are those the client knows. -/
def UsualChange (isupport : Isupport) (change : Change) : Prop :=
  (isupport.listed change.2.1 = true ↔ change.2.1 ∈ usualNickModes ∨ change.2.1 ∈ usualListModes) ∧
    (isupport.listed change.2.1 = false → change.1 = true → change.2.2 ≠ none →
      change.2.1 = 'k' ∨ change.2.1 = 'l')

instance (isupport : Isupport) (change : Change) : Decidable (UsualChange isupport change) :=
  inferInstanceAs (Decidable ((_ ↔ _ ∨ _) ∧ (_ → _ → _ → _ ∨ _)))

/-- In a reply, that is all letters after a plus, none of nicks or lists, and the parameters belong
to keys and limits. -/
def UsualReply (isupport : Isupport) (modes : Str) : Prop :=
  ∀ c ∈ (stripPrefix "+".toList modes).getD modes, c ≠ '+' ∧ c ≠ '-' ∧ isupport.listed c = false ∧
    (isupport.takesParam true c = true ↔ c = 'k' ∨ c = 'l')

theorem changeBans_modes (buf : Buffer) (adding : Bool) (param : Option Str) (setBy : Str) (now : Int) :
    (changeBans buf adding param setBy now).modes = buf.modes ∧
      (changeBans buf adding param setBy now).modeParams = buf.modeParams := by
  cases param with
  | none => exact ⟨rfl, rfl⟩
  | some mask =>
      cases adding with
      | true => exact ⟨rfl, rfl⟩
      | false =>
          simp only [changeBans, removeListModeEntry, Bool.false_eq_true, if_false]
          cases buf.listModes.get? banKey with
          | none => exact ⟨rfl, rfl⟩
          | some entries => exact ⟨rfl, rfl⟩

/-- A mode of nicks or lists does not touch the channel's own. -/
theorem applyMode_listed (buf : Buffer) (adding : Bool) (c : Char) (param : Option Str) (setBy : Str)
    (now : Int) (listed : c ∈ usualNickModes ∨ c ∈ usualListModes) :
    (applyMode P buf adding (ofLetter c) param setBy now).modes = buf.modes ∧
      (applyMode P buf adding (ofLetter c) param setBy now).modeParams = buf.modeParams := by
  by_cases ofNicks : c ∈ usualNickModes
  · cases param with
    | none => simp [applyMode, nickModeChar_ofLetter, ofNicks]
    | some target =>
        simp only [applyMode, nickModeChar_ofLetter, ofNicks, if_true, Option.map_some]
        by_cases present : (buf.users.get? (P.unicode.toLowercase target)).isSome
        · simp [present]
        · simp [present]
  · have ofLists := (listMode_ofLetter c).mpr (listed.resolve_left ofNicks)
    simp only [applyMode, nickModeChar_ofLetter, ofNicks, if_false]
    by_cases ban : ofLetter c = .ban
    · simp only [ban, if_true]
      exact changeBans_modes buf adding param setBy now
    · simp [ban, ofLists.resolve_left ban]

theorem applyMode_own (buf : Buffer) (adding : Bool) (c : Char) (param : Option Str) (setBy : Str)
    (now : Int) (own : ¬(c ∈ usualNickModes ∨ c ∈ usualListModes)) :
    applyMode P buf adding (ofLetter c) param setBy now = changeModes buf adding c param := by
  have ofNicks : c ∉ usualNickModes := fun here => own (Or.inl here)
  have ofLists := mt (listMode_ofLetter c).mp fun here => own (Or.inr here)
  simp only [not_or, Bool.not_eq_true] at ofLists
  simp [applyMode, nickModeChar_ofLetter, channelModeLetter_ofLetter, ofNicks, ofLists.1, ofLists.2]

/-- Without a plus in front there is none to take off. -/
theorem stripPlus_of_not_mem (s : Str) (signless : '+' ∉ s) : (stripPrefix "+".toList s).getD s = s := by
  cases s with
  | nil => rfl
  | cons c rest =>
      have other : '+' ≠ c := by
        intro same
        exact signless (same ▸ List.mem_cons_self)
      simp [stripPrefix, List.isPrefixOf, other]

theorem changeModes_follows (own : OwnModes) (buf : Buffer) (follows : Follows own buf)
    (isupport : Isupport) (change : Change) (unlisted : isupport.listed change.2.1 = false)
    (letter : change.2.1 ≠ '+')
    (usual : change.1 = true → change.2.2 ≠ none → change.2.1 = 'k' ∨ change.2.1 = 'l') :
    Follows (own.apply isupport change) (changeModes buf change.1 change.2.1 change.2.2) := by
  rcases change with ⟨adding, c, param⟩
  simp only at unlisted letter usual
  cases adding with
  | true =>
      have members (d : Char) :
          d ∈ (if (buf.modes.getD []).contains c then buf.modes.getD [] else buf.modes.getD [] ++ [c]) ↔
            d ∈ own.set ∨ d = c := by
        by_cases known : (buf.modes.getD []).contains c
        · simp only [known, if_true, follows.modes]
          constructor
          · exact Or.inl
          · rintro (here | same)
            · exact here
            · have := (follows.modes c).mp (by simpa using known)
              rwa [same]
        · simp only [known, if_false, Bool.false_eq_true, List.mem_append, follows.modes,
            List.mem_singleton]
      have plain : '+' ∉ (if (buf.modes.getD []).contains c then buf.modes.getD []
          else buf.modes.getD [] ++ [c]) := by
        rw [members '+', ← follows.modes]
        simp [follows.signless, Ne.symm letter]
      constructor
      · intro d
        simp only [changeModes, if_true, Option.map_some, Option.getD_some,
          stripPlus_of_not_mem _ plain, members d]
        simp [OwnModes.apply, unlisted]
      · intro d
        simp only [changeModes, if_true, OwnModes.apply, unlisted, Bool.false_eq_true, if_false]
        cases param with
        | none => simp [follows.params]
        | some value =>
            have ofValue := usual rfl (by simp)
            simp only [ofValue, if_true, Option.getD_some, Map.get?_insert, List.cons.injEq, and_true,
              Option.isSome_some, follows.params]
            simp only [eq_comm]
      · simp only [changeModes, if_true, Option.map_some, Option.getD_some,
          stripPlus_of_not_mem _ plain]
        exact plain
  | false =>
      have members (d : Char) : d ∈ removeChar c (buf.modes.getD []) ↔ d ∈ own.set ∧ d ≠ c := by
        simp [removeChar, follows.modes]
      have plain : '+' ∉ removeChar c (buf.modes.getD []) := by
        rw [members '+', ← follows.modes]
        simp [follows.signless]
      constructor
      · intro d
        simp only [changeModes, if_false, Bool.false_eq_true, Option.map_some, Option.getD_some,
          stripPlus_of_not_mem _ plain, members d]
        simp [OwnModes.apply, unlisted]
      · intro d
        simp only [changeModes, if_false, Bool.false_eq_true, OwnModes.apply, unlisted,
          ← follows.params d]
        cases buf.modeParams with
        | none => simp [Map.get?]
        | some params =>
            simp only [Option.map_some, Option.getD_some, Map.get?_erase, List.cons.injEq, and_true]
            simp only [eq_comm]
      · simp only [changeModes, if_false, Bool.false_eq_true, Option.map_some, Option.getD_some,
          stripPlus_of_not_mem _ plain]
        exact plain

theorem applyChannelMode_ofChange (setBy : Str) (now : Int) (buf : Buffer) (change : Change) :
    applyChannelMode P setBy now buf (ofChange change) =
      applyMode P buf change.1 (ofLetter change.2.1) change.2.2 setBy now := by
  rcases change with ⟨adding, c, param⟩
  cases adding with
  | true => rfl
  | false => rfl

theorem applyChannelMode_follows (own : OwnModes) (buf : Buffer) (follows : Follows own buf)
    (isupport : Isupport) (change : Change) (letter : change.2.1 ≠ '+')
    (usual : UsualChange isupport change) (setBy : Str) (now : Int) :
    Follows (own.apply isupport change) (applyChannelMode P setBy now buf (ofChange change)) := by
  rw [applyChannelMode_ofChange]
  by_cases listed : isupport.listed change.2.1 = true
  · have same := applyMode_listed P buf change.1 change.2.1 change.2.2 setBy now (usual.1.mp listed)
    have still : own.apply isupport change = own := by simp [OwnModes.apply, listed]
    rw [still]
    constructor
    · rw [same.1]
      exact follows.modes
    · rw [same.2]
      exact follows.params
    · rw [same.1]
      exact follows.signless
  · rw [applyMode_own P buf change.1 change.2.1 change.2.2 setBy now (mt usual.1.mpr listed)]
    have unlisted : isupport.listed change.2.1 = false := by simpa using listed
    exact changeModes_follows own buf follows isupport change unlisted letter (usual.2 unlisted)

theorem letter_of_changesOf (isupport : Isupport) (modes : Str) :
    ∀ adding args, ∀ change ∈ changesOf isupport adding modes args, change.2.1 ≠ '+' := by
  induction modes with
  | nil =>
      intro adding args change member
      simp [changesOf] at member
  | cons c rest ih =>
      intro adding args change member
      by_cases plus : c = '+'
      · simp only [changesOf, plus, if_true] at member
        exact ih _ _ change member
      · by_cases minus : c = '-'
        · simp only [changesOf, minus, if_true] at member
          exact ih _ _ change member
        · by_cases takes : isupport.takesParam adding c
          · simp only [changesOf, plus, minus, takes, if_true, if_false, List.mem_cons] at member
            rcases member with same | later
            · rw [same]
              exact plus
            · exact ih _ _ change later
          · simp only [changesOf, plus, minus, takes, if_false, Bool.false_eq_true,
              List.mem_cons] at member
            rcases member with same | later
            · rw [same]
              exact plus
            · exact ih _ _ change later

theorem changes_follow (isupport : Isupport) (setBy : Str) (now : Int) (changes : List Change)
    (letters : ∀ change ∈ changes, change.2.1 ≠ '+')
    (usual : ∀ change ∈ changes, UsualChange isupport change) (own : OwnModes) (buf : Buffer)
    (follows : Follows own buf) :
    Follows (changes.foldl (OwnModes.apply isupport) own)
      ((changes.map ofChange).foldl (applyChannelMode P setBy now) buf) := by
  induction changes generalizing own buf with
  | nil => exact follows
  | cons change rest ih =>
      apply ih (fun later here => letters later (List.mem_cons_of_mem _ here))
        (fun later here => usual later (List.mem_cons_of_mem _ here))
      exact applyChannelMode_follows P own buf follows isupport change
        (letters change List.mem_cons_self) (usual change List.mem_cons_self) setBy now

/-- The two walks over the letters of a reply take the same parameters. -/
theorem replyParams_follow (isupport : Isupport) (letters : Str)
    (usual : ∀ c ∈ letters, c ≠ '+' ∧ c ≠ '-' ∧ isupport.listed c = false ∧
      (isupport.takesParam true c = true ↔ c = 'k' ∨ c = 'l'))
    (args : List Str) (params : Map Str Str) (own : OwnModes)
    (same : ∀ c, params.get? [c] = own.param c) :
    let told := (changesOf isupport true letters args).foldl (OwnModes.apply isupport) own
    told.set = own.set ++ letters ∧ ∀ c, (replyParams letters args params).get? [c] = told.param c := by
  induction letters generalizing args params own with
  | nil => simpa [changesOf, replyParams] using same
  | cons c rest ih =>
      have here := usual c List.mem_cons_self
      have later := ih fun d member => usual d (List.mem_cons_of_mem _ member)
      by_cases valued : c = 'k' ∨ c = 'l'
      · cases args with
        | nil =>
            have told := later [] params (own.apply isupport (true, c, none))
              (by simpa [OwnModes.apply, here.2.2.1] using same)
            simpa [changesOf, replyParams, here.1, here.2.1, here.2.2.2.mpr valued, valued,
              OwnModes.apply, here.2.2.1] using told
        | cons value args =>
            have told := later args (params.insert [c] value) (own.apply isupport (true, c, some value))
              (by
                intro d
                simp only [Map.get?_insert, same, OwnModes.apply, here.2.2.1, Bool.false_eq_true,
                  if_false, if_true, Option.isSome_some, and_true, List.cons.injEq]
                simp only [eq_comm])
            simpa [changesOf, replyParams, here.1, here.2.1, here.2.2.2.mpr valued, valued,
              OwnModes.apply, here.2.2.1] using told
      · have bare : isupport.takesParam true c = false := by
          simpa using mt here.2.2.2.mp valued
        have told := later args params (own.apply isupport (true, c, none))
          (by simpa [OwnModes.apply, here.2.2.1] using same)
        simpa [changesOf, replyParams, here.1, here.2.1, bare, valued, OwnModes.apply,
          here.2.2.1] using told

theorem changesOf_stripPlus (isupport : Isupport) (modes : Str) (args : List Str) :
    changesOf isupport true ((stripPrefix "+".toList modes).getD modes) args =
      changesOf isupport true modes args := by
  cases modes with
  | nil => rfl
  | cons c rest =>
      by_cases plus : c = '+'
      · subst plus
        simp [stripPrefix, List.isPrefixOf, changesOf]
      · simp [stripPrefix, List.isPrefixOf, Ne.symm plus]

theorem get?_unless_empty (params : Map Str Str) (key : Str) :
    ((if params.rows.isEmpty then none else some params).getD Table.empty).get? key =
      params.get? key := by
  by_cases none_ : params.rows.isEmpty = true
  · have rows := List.isEmpty_iff.mp none_
    simp [Map.get?, Table.find?, rows, Table.empty]
  · rw [if_neg none_]
    rfl

/-- After a reply the client has what it says, whatever it had before. -/
theorem receiveChannelModeIs_follows (isupport : Isupport) (modes : Str) (args : List Str)
    (usual : UsualReply isupport modes) (own : OwnModes) (buf : Buffer) :
    Follows (own.exec isupport (.modeIs modes args)) (receiveChannelModeIs buf modes args) := by
  have walk := replyParams_follow isupport _ usual args Table.empty .empty fun c => rfl
  rw [changesOf_stripPlus] at walk
  constructor
  · intro c
    rw [OwnModes.exec, walk.1]
    rfl
  · intro c
    rw [OwnModes.exec, ← walk.2 c]
    exact get?_unless_empty _ [c]
  · intro plus
    exact (usual '+' plus).1 rfl

/-! ### The modes of the nicks -/

/-- The modes each nick holds, by the key of the nick. -/
abbrev Held : Type := Str → Option (List Char)

def Held.change (held : Held) (key : Str) (f : List Char → List Char) : Held := fun other =>
  if other = key then (held other).map f else held other

/-- A name of a NAMES reply says which modes the nick holds. -/
def Held.name (held : Held) (raw : Str) : Held :=
  let entry := parseNamesEntry raw conn.isupport.prefixMap conn.userhostInNames
  fun other => if other = P.unicode.toLowercase entry.nick then some entry.modes else held other

def Held.apply (isupport : Isupport) (held : Held) (change : Change) : Held :=
  match change.2.2 with
  | none => held
  | some target =>
      if isupport.nickModes.contains change.2.1 then
        held.change (P.unicode.toLowercase target) fun modes =>
          if change.1 then modes ++ [change.2.1] else modes.filter fun c => c ≠ change.2.1
      else held

def Held.exec (held : Held) : Event → Held
  | .names nicks => (splitWhitespace nicks).foldl (Held.name P conn) held
  | .mode modes args _ _ =>
      (changesOf conn.isupport true modes args).foldl (Held.apply P conn.isupport) held
  | .modeIs .. => held
  | .who .. => held

/-- The symbols of the modes, in the order the server ranks them. -/
def Isupport.symbols (isupport : Isupport) (modes : List Char) : Str :=
  (isupport.prefixMap.filter fun p => modes.contains p.1).map Prod.snd

/-- The entries are those of the nicks on the channel, each with its modes and their symbols. -/
structure Shows (isupport : Isupport) (held : Held) (buf : Buffer) : Prop where
  present : ∀ key entry, buf.users.get? key = some entry → ∃ modes, held key = some modes ∧
    (∀ c, c ∈ entry.modes ↔ c ∈ modes) ∧ entry.shownPrefix = isupport.symbols modes
  absent : ∀ key, buf.users.get? key = none → held key = none

def usualPrefixes : List (Char × Char) := [('q', '~'), ('a', '&'), ('o', '@'), ('h', '%'), ('v', '+')]

/-- The symbols ahead of the name are in rank order, each once. -/
def Ranked (isupport : Isupport) (raw : Str) : Prop :=
  (leadingSymbols isupport.prefixMap raw).1 =
    isupport.symbols (leadingSymbols isupport.prefixMap raw).2.1

/-- Among these modes the server advertises the usual ones, with the usual symbols and rank. -/
def UsualAmong (isupport : Isupport) (modes : List Char) : Prop :=
  (isupport.prefixMap.filter fun p => modes.contains p.1) =
    usualPrefixes.filter fun p => modes.contains p.1

/-- A change with the name of somebody on the channel is of a mode of nicks only if it is of one of
the usual ones, and leaves that nick with usual modes. -/
def NickChangeAllowed (isupport : Isupport) (held : Held) (change : Change) : Prop :=
  ∀ target modes, change.2.2 = some target → held (P.unicode.toLowercase target) = some modes →
    (change.2.1 ∈ isupport.nickModes ↔ change.2.1 ∈ usualNickModes) ∧
      ∀ after, Held.apply P isupport held change (P.unicode.toLowercase target) = some after →
        change.2.1 ∈ isupport.nickModes → UsualAmong isupport after

instance (isupport : Isupport) (raw : Str) : Decidable (Ranked isupport raw) :=
  inferInstanceAs (Decidable (_ = _))

instance (isupport : Isupport) (modes : List Char) : Decidable (UsualAmong isupport modes) :=
  inferInstanceAs (Decidable (_ = _))

instance (isupport : Isupport) (held : Held) (change : Change) :
    Decidable (NickChangeAllowed P isupport held change) :=
  decidable_of_iff
    (∀ target ∈ change.2.2.toList, ∀ modes ∈ (held (P.unicode.toLowercase target)).toList,
      (change.2.1 ∈ isupport.nickModes ↔ change.2.1 ∈ usualNickModes) ∧
        ∀ after ∈ (Held.apply P isupport held change (P.unicode.toLowercase target)).toList,
          change.2.1 ∈ isupport.nickModes → UsualAmong isupport after)
    (by
      simp only [NickChangeAllowed, Option.mem_toList]
      constructor
      · intro all target modes named holds
        exact all target named modes holds
      · intro all target named modes holds
        exact all target modes named holds)

/-- The channel: the client's record of it, its own modes and those of its nicks. -/
structure Channel where
  buffer : Buffer
  own : OwnModes
  held : Held

def Channel.exec (channel : Channel) (event : Event) : Channel where
  buffer := channel.buffer.exec P conn event
  own := channel.own.exec conn.isupport event
  held := channel.held.exec P conn event

/-- Replies and changes in which nothing but keys and limits has a parameter. -/
def ModesAllowed (_ : Channel) : Event → Prop
  | .modeIs modes _ => UsualReply conn.isupport modes
  | .mode modes args _ _ => Reads P conn modes args ∧
      ∀ change ∈ changesOf conn.isupport true modes args, UsualChange conn.isupport change
  | .names _ => True
  | .who .. => True

/-- Names with their symbols in rank order, and changes that leave usual modes. -/
def PrefixesAllowed (channel : Channel) : Event → Prop
  | .names nicks => ∀ raw ∈ splitWhitespace nicks, Ranked conn.isupport raw
  | .mode modes args _ _ => Reads P conn modes args ∧
      Along (NickChangeAllowed P conn.isupport) (Held.apply P conn.isupport) channel.held
        (changesOf conn.isupport true modes args)
  | .modeIs .. => True
  | .who .. => True

/-! ### The channel's modes over runs -/

theorem receiveNames_modes (nicks : List Str) (buf : Buffer) :
    (nicks.foldl (receiveName P conn) buf).modes = buf.modes ∧
      (nicks.foldl (receiveName P conn) buf).modeParams = buf.modeParams := by
  induction nicks generalizing buf with
  | nil => exact ⟨rfl, rfl⟩
  | cons raw rest ih => exact ih (receiveName P conn buf raw)

theorem follows_of_same {own : OwnModes} {buf after : Buffer} (follows : Follows own buf)
    (modes : after.modes = buf.modes) (params : after.modeParams = buf.modeParams) :
    Follows own after where
  modes := by
    rw [modes]
    exact follows.modes
  params := by
    rw [params]
    exact follows.params
  signless := by
    rw [modes]
    exact follows.signless

def ModesFollowed (channel : Channel) : Prop := Follows channel.own channel.buffer

theorem Channel.exec_follows (channel : Channel) (event : Event) (follows : ModesFollowed channel)
    (allowed : ModesAllowed P conn channel event) : ModesFollowed (channel.exec P conn event) := by
  cases event with
  | names nicks =>
      have same := receiveNames_modes P conn (splitWhitespace nicks) channel.buffer
      exact follows_of_same follows same.1 same.2
  | who nick ident host realname away account => exact follows_of_same follows rfl rfl
  | modeIs modes args => exact receiveChannelModeIs_follows conn.isupport modes args allowed channel.own _
  | mode modes args setBy now =>
      have walk := changes_follow P conn.isupport setBy now _
        (letter_of_changesOf conn.isupport modes true args) allowed.2 _ _ follows
      rwa [← allowed.1] at walk

/-- From any reply to the question for the modes on, whatever was known before: as long as keys and
limits are the only modes of the channel with a parameter, the client has the modes that the server
set, each with the parameter that was given with it. -/
theorem channel_modes_follow_the_server (channel : Channel) (modes : Str) (args : List Str)
    (events : List Event)
    (allowed : Along (ModesAllowed P conn) (Channel.exec P conn) channel (.modeIs modes args :: events)) :
    let after := runFrom (Channel.exec P conn) channel (.modeIs modes args :: events)
    (∀ c, c ∈ after.buffer.modes.getD [] ↔ c ∈ after.own.set) ∧
      ∀ c, (after.buffer.modeParams.getD Table.empty).get? [c] = after.own.param c := by
  have start : ModesFollowed (channel.exec P conn (.modeIs modes args)) :=
    receiveChannelModeIs_follows conn.isupport modes args allowed.1 channel.own _
  have follows : ModesFollowed (runFrom (Channel.exec P conn) _ events) :=
    Along.invariant (Channel.exec_follows P conn) allowed.2 start
  exact ⟨follows.modes, follows.params⟩

/-- The library on a server whose classes it knows. -/
def knownClasses (conn : Connection) : Platform where
  unicode := .ascii
  channelModes := fun modes args => (changesOf conn.isupport true modes args).map ofChange

def freshChannel : Channel := ⟨⟨Table.empty, none, none, Table.empty⟩, .empty, fun _ => none⟩

def usualServer : Connection :=
  ⟨⟨some "(ov)@+".toList, some "beI,k,l,imnst".toList⟩, false, "me".toList, none⟩

/-- A ban, an operator and a new limit after a reply with a key and a limit. -/
theorem channel_modes_follow_the_server_keyed :
    let P := knownClasses usualServer
    let events : List Event :=
      [.mode "+b-l+o".toList ["*!*@x".toList, "bob".toList] "op".toList 0,
        .mode "-k+l".toList ["key".toList, "9".toList] "op".toList 1]
    let reply : Event := .modeIs "+ntkl".toList ["key".toList, "50".toList]
    let after := runFrom (Channel.exec P usualServer) freshChannel (reply :: events)
    Along (ModesAllowed P usualServer) (Channel.exec P usualServer) freshChannel (reply :: events) ∧
      (∀ c, c ∈ after.buffer.modes.getD [] ↔ c ∈ after.own.set) ∧
        ∀ c, (after.buffer.modeParams.getD Table.empty).get? [c] = after.own.param c := by
  intro P events reply after
  have allowed : Along (ModesAllowed P usualServer) (Channel.exec P usualServer) freshChannel
      (reply :: events) := by
    have replied : UsualReply usualServer.isupport "+ntkl".toList := by
      intro c member
      have letters : c ∈ ['n', 't', 'k', 'l'] := member
      simp only [List.mem_cons, List.not_mem_nil, or_false] at letters
      rcases letters with same | same | same | same
      all_goals
        rw [same]
        decide +kernel
    exact ⟨replied, ⟨rfl, by decide⟩, ⟨rfl, by decide⟩, trivial⟩
  exact ⟨allowed, channel_modes_follow_the_server P usualServer freshChannel _ _ events allowed⟩

/-- A flood limit in front of the key: the key is not what was given as the key. -/
def floodServer : Connection :=
  ⟨⟨none, some "b,kf,l,nt".toList⟩, false, "me".toList, none⟩

theorem reply_gives_the_key_another_parameter :
    let reply : Event := .modeIs "+fk".toList ["5:10".toList, "secret".toList]
    let after := Channel.exec (knownClasses floodServer) floodServer freshChannel reply
    (after.buffer.modeParams.getD Table.empty).get? "k".toList = some "5:10".toList ∧
      after.own.param 'k' = some "secret".toList ∧
      (after.buffer.modeParams.getD Table.empty).get? "f".toList = none ∧
      after.own.param 'f' = some "5:10".toList := by
  decide +kernel

/-! ### The nicks' modes over runs -/

theorem modesToPrefix_usual (modes : Str) :
    modesToPrefix modes usualOrder =
      (usualPrefixes.filter fun p => modes.contains p.1).map Prod.snd := by
  have order : usualOrder = usualPrefixes.map Prod.snd := by decide
  rw [modesToPrefix, order, List.filter_map]
  apply congrArg
  apply List.filter_congr
  intro p member
  simp only [usualPrefixes, List.mem_cons, List.not_mem_nil, or_false] at member
  rcases member with same | same | same | same | same
  all_goals
    rw [same]
    rfl

theorem shownPrefix_usual (isupport : Isupport) {modes held : List Char}
    (same : ∀ c, c ∈ modes ↔ c ∈ held) (usual : UsualAmong isupport held) :
    modesToPrefix modes usualOrder = isupport.symbols held := by
  rw [modesToPrefix_usual, Isupport.symbols, usual]
  simp [same]

/-- What happens to one key: the entry is replaced, and so is what the nick is known to hold. -/
theorem Shows.insert {isupport : Isupport} {held : Held} {buf : Buffer} (shows : Shows isupport held buf)
    (key : Str) (entry : NickEntry) (shown : entry.shownPrefix = isupport.symbols entry.modes) :
    Shows isupport (fun other => if other = key then some entry.modes else held other)
      { buf with users := buf.users.insert key entry } := by
  constructor
  · intro other found present
    rw [Map.get?_insert] at present
    by_cases here : other = key
    · simp only [here, if_true, Option.some.injEq] at present
      rw [← present]
      exact ⟨entry.modes, by simp [here], fun c => Iff.rfl, shown⟩
    · simp only [Ne.symm here, if_false] at present
      simpa [here] using shows.present other found present
  · intro other absent
    rw [Map.get?_insert] at absent
    by_cases here : other = key
    · simp [here] at absent
    · simp only [Ne.symm here, if_false] at absent
      simpa [here] using shows.absent other absent

theorem receiveName_shows {held : Held} {buf : Buffer} (shows : Shows conn.isupport held buf)
    (raw : Str) (ranked : Ranked conn.isupport raw) :
    Shows conn.isupport (Held.name P conn held raw) (receiveName P conn buf raw) := by
  let entry := parseNamesEntry raw conn.isupport.prefixMap conn.userhostInNames
  let key := P.unicode.toLowercase entry.nick
  let realname := ((buf.users.get? key).bind NickEntry.realname).or
    (if eqNocase conn.nick entry.nick then conn.ownRealname else none)
  exact shows.insert key { entry with realname := realname } ranked

theorem receiveNames_shows (nicks : List Str) {held : Held} {buf : Buffer}
    (shows : Shows conn.isupport held buf) (ranked : ∀ raw ∈ nicks, Ranked conn.isupport raw) :
    Shows conn.isupport (nicks.foldl (Held.name P conn) held)
      (nicks.foldl (receiveName P conn) buf) := by
  induction nicks generalizing held buf with
  | nil => exact shows
  | cons raw rest ih =>
      apply ih
      · exact receiveName_shows P conn shows raw (ranked raw List.mem_cons_self)
      · intro later member
        exact ranked later (List.mem_cons_of_mem _ member)

/-- A WHO reply leaves every nick its modes and symbols. -/
theorem updateWho_shows {isupport : Isupport} {held : Held} {buf : Buffer}
    (shows : Shows isupport held buf) (nick ident host realname : Str) (away : Bool)
    (account : Option (Option Str)) :
    Shows isupport held (updateWhoNickEntry P buf nick ident host realname away account) := by
  constructor
  · intro key entry present
    simp only [updateWhoNickEntry, Map.get?_adjust] at present
    by_cases here : key = P.unicode.toLowercase nick
    · simp only [here, if_true, Option.map_eq_some_iff] at present
      rcases present with ⟨old, before, same⟩
      rw [← same, here]
      exact shows.present _ old before
    · simp only [here, if_false] at present
      exact shows.present key entry present
  · intro key absent
    simp only [updateWhoNickEntry, Map.get?_adjust] at absent
    by_cases here : key = P.unicode.toLowercase nick
    · simp only [here, if_true, Option.map_eq_none_iff] at absent
      rw [here]
      exact shows.absent _ absent
    · simp only [here, if_false] at absent
      exact shows.absent key absent

theorem Shows.of_users {isupport : Isupport} {held : Held} {buf after : Buffer}
    (shows : Shows isupport held buf) (same : after.users = buf.users) : Shows isupport held after where
  present := by
    rw [same]
    exact shows.present
  absent := by
    rw [same]
    exact shows.absent

theorem changeBans_users (buf : Buffer) (adding : Bool) (param : Option Str) (setBy : Str) (now : Int) :
    (changeBans buf adding param setBy now).users = buf.users := by
  cases param with
  | none => rfl
  | some mask =>
      cases adding with
      | true => rfl
      | false =>
          simp only [changeBans, removeListModeEntry, Bool.false_eq_true, if_false]
          cases buf.listModes.get? banKey with
          | none => rfl
          | some entries => rfl

/-- Only a usual nick mode with the name of a nick there is changes an entry. -/
theorem applyMode_users (buf : Buffer) (adding : Bool) (c : Char) (param : Option Str) (setBy : Str)
    (now : Int) (elsewhere : c ∈ usualNickModes → ∀ target, param = some target →
      buf.users.get? (P.unicode.toLowercase target) = none) :
    (applyMode P buf adding (ofLetter c) param setBy now).users = buf.users := by
  by_cases ofNicks : c ∈ usualNickModes
  · cases param with
    | none => simp [applyMode, nickModeChar_ofLetter, ofNicks]
    | some target =>
        simp [applyMode, nickModeChar_ofLetter, ofNicks, elsewhere ofNicks target rfl]
  · simp only [applyMode, nickModeChar_ofLetter, ofNicks, if_false]
    by_cases ban : ofLetter c = .ban
    · simp only [ban, if_true]
      exact changeBans_users buf adding param setBy now
    · by_cases ofLists : isListMode (ofLetter c) = true
      · simp [ban, ofLists]
      · simp only [ban, ofLists, if_false, Bool.false_eq_true]
        cases adding with
        | true => rfl
        | false => rfl

theorem mem_changeEntry (adding : Bool) (c : Char) (entry : NickEntry) (held : List Char)
    (same : ∀ d, d ∈ entry.modes ↔ d ∈ held) (d : Char) :
    d ∈ (changeEntry adding c entry).modes ↔
      d ∈ if adding then held ++ [c] else held.filter fun d => d ≠ c := by
  cases adding with
  | true =>
      by_cases known : c ∈ entry.modes
      · have also := (same c).mp known
        simp only [changeEntry, known, if_true, List.contains_eq_mem, decide_true, Bool.not_true,
          Bool.and_false, Bool.false_eq_true, if_false, same, List.mem_append, List.mem_singleton]
        constructor
        · exact Or.inl
        · rintro (here | equal)
          · exact here
          · rwa [equal]
      · simp [changeEntry, known, same]
  | false => simp [changeEntry, removeChar, same]

/-- A change of a nick's usual mode leaves the entry with the symbols of the modes then held. -/
theorem changeEntry_shows {isupport : Isupport} {held : Held} {buf : Buffer}
    (shows : Shows isupport held buf) (adding : Bool) (c : Char) (key : Str)
    (usual : ∀ modes, held key = some modes →
      UsualAmong isupport (if adding then modes ++ [c] else modes.filter fun d => d ≠ c)) :
    Shows isupport
      (held.change key fun modes => if adding then modes ++ [c] else modes.filter fun d => d ≠ c)
      { buf with users := buf.users.adjust key (changeEntry adding c) } := by
  constructor
  · intro other entry present
    simp only [Map.get?_adjust] at present
    by_cases here : other = key
    · simp only [here, if_true, Option.map_eq_some_iff] at present
      rcases present with ⟨old, before, changed⟩
      rcases shows.present key old before with ⟨modes, holds, same, _⟩
      have members := mem_changeEntry adding c old modes same
      have symbols := shownPrefix_usual isupport members (usual modes holds)
      rw [← changed]
      exact ⟨_, by simp [Held.change, here, holds], members, symbols⟩
    · simp only [here, if_false] at present
      simpa [Held.change, here] using shows.present other entry present
  · intro other absent
    simp only [Map.get?_adjust] at absent
    by_cases here : other = key
    · simp only [here, if_true, Option.map_eq_none_iff] at absent
      simp [Held.change, here, shows.absent key absent]
    · simp only [here, if_false] at absent
      simpa [Held.change, here] using shows.absent other absent

theorem applyMode_shows {held : Held} {buf : Buffer} (isupport : Isupport)
    (shows : Shows isupport held buf) (change : Change)
    (allowed : NickChangeAllowed P isupport held change) (setBy : Str) (now : Int) :
    Shows isupport (held.apply P isupport change)
      (applyChannelMode P setBy now buf (ofChange change)) := by
  rw [applyChannelMode_ofChange]
  rcases change with ⟨adding, c, param⟩
  cases param with
  | none =>
      apply shows.of_users
      apply applyMode_users
      intro usual target named
      cases named
  | some target =>
      cases there : buf.users.get? (P.unicode.toLowercase target) with
      | none =>
          have unheld := shows.absent _ there
          have still : held.apply P isupport (adding, c, some target) = held := by
            by_cases listed : c ∈ isupport.nickModes
            · funext other
              by_cases here : other = P.unicode.toLowercase target
              · simp [Held.apply, Held.change, listed, here, unheld]
              · simp [Held.apply, Held.change, listed, here]
            · simp [Held.apply, listed]
          rw [still]
          apply shows.of_users
          apply applyMode_users
          intro usual other named
          cases named
          exact there
      | some entry =>
          rcases shows.present _ entry there with ⟨modes, holds, same, _⟩
          have agreed := allowed target modes rfl holds
          by_cases usual : c ∈ usualNickModes
          · have listed := agreed.1.mpr usual
            have applied : held.apply P isupport (adding, c, some target) =
                held.change (P.unicode.toLowercase target) fun modes =>
                  if adding then modes ++ [c] else modes.filter fun d => d ≠ c := by
              simp [Held.apply, listed]
            have changed : applyMode P buf adding (ofLetter c) (some target) setBy now =
                { buf with users :=
                    buf.users.adjust (P.unicode.toLowercase target) (changeEntry adding c) } := by
              simp [applyMode, nickModeChar_ofLetter, usual, there]
            rw [applied, changed]
            apply changeEntry_shows shows
            intro modes' holds'
            apply agreed.2 _ _ listed
            rw [applied]
            simp [Held.change, holds']
          · have still : held.apply P isupport (adding, c, some target) = held := by
              have unlisted := mt agreed.1.mp usual
              simp [Held.apply, unlisted]
            rw [still]
            apply shows.of_users
            apply applyMode_users
            intro here
            exact absurd here usual

theorem changes_show (isupport : Isupport) (setBy : Str) (now : Int) (changes : List Change)
    {held : Held} {buf : Buffer} (shows : Shows isupport held buf)
    (allowed : Along (NickChangeAllowed P isupport) (Held.apply P isupport) held changes) :
    Shows isupport (changes.foldl (Held.apply P isupport) held)
      ((changes.map ofChange).foldl (applyChannelMode P setBy now) buf) := by
  induction changes generalizing held buf with
  | nil => exact shows
  | cons change rest ih =>
      exact ih (applyMode_shows P isupport shows change allowed.1 setBy now) allowed.2

def PrefixesShown (channel : Channel) : Prop := Shows conn.isupport channel.held channel.buffer

theorem Channel.exec_shows (channel : Channel) (event : Event)
    (shows : PrefixesShown conn channel) (allowed : PrefixesAllowed P conn channel event) :
    PrefixesShown conn (channel.exec P conn event) := by
  cases event with
  | names nicks => exact receiveNames_shows P conn (splitWhitespace nicks) shows allowed
  | who nick ident host realname away account =>
      exact updateWho_shows P shows nick ident host realname away account
  | modeIs modes args => exact shows.of_users rfl
  | mode modes args setBy now =>
      have walk := changes_show P conn.isupport setBy now _ shows allowed.2
      rwa [← allowed.1] at walk

/-- In every run from the moment the channel is joined, in which the names come in rank order and no
change leaves a nick with modes that the server ranks or marks in its own way, every nick is shown
with the symbols of the modes it holds, in the server's order. -/
theorem nick_prefixes_follow_the_server (modes : Option Str) (modeParams : Option (Map Str Str))
    (listModes : Map Str (List ListEntry)) (own : OwnModes) (events : List Event)
    (allowed : Along (PrefixesAllowed P conn) (Channel.exec P conn)
      ⟨⟨Table.empty, modes, modeParams, listModes⟩, own, fun _ => none⟩ events) :
    let after := runFrom (Channel.exec P conn)
      ⟨⟨Table.empty, modes, modeParams, listModes⟩, own, fun _ => none⟩ events
    ∀ key entry, after.buffer.users.get? key = some entry →
      ∃ held, after.held key = some held ∧ entry.shownPrefix = conn.isupport.symbols held := by
  intro after key entry present
  have start : PrefixesShown conn
      ⟨⟨Table.empty, modes, modeParams, listModes⟩, own, fun _ => none⟩ := by
    constructor
    · intro key entry present
      cases present
    · intro key absent
      rfl
  have shows : PrefixesShown conn after := Along.invariant (Channel.exec_shows P conn) allowed start
  rcases shows.present key entry present with ⟨held, holds, _, symbols⟩
  exact ⟨held, holds, symbols⟩

/-- An operator with a voice, who loses the first. -/
theorem nick_prefixes_follow_the_server_voiced :
    let P := knownClasses usualServer
    let events : List Event :=
      [.names "@+bob carol".toList, .mode "+v-o".toList ["carol".toList, "bob".toList] "op".toList 0]
    let after := runFrom (Channel.exec P usualServer) freshChannel events
    Along (PrefixesAllowed P usualServer) (Channel.exec P usualServer) freshChannel events ∧
      ∀ key entry, after.buffer.users.get? key = some entry →
        ∃ held, after.held key = some held ∧
          entry.shownPrefix = usualServer.isupport.symbols held := by
  intro P events after
  have allowed : Along (PrefixesAllowed P usualServer) (Channel.exec P usualServer) freshChannel
      events := by
    have ranked : ∀ raw ∈ splitWhitespace "@+bob carol".toList, Ranked usualServer.isupport raw := by
      decide +kernel
    exact ⟨ranked, ⟨rfl, by decide +kernel⟩, trivial⟩
  exact ⟨allowed, nick_prefixes_follow_the_server P usualServer none none Table.empty .empty events
    allowed⟩

/-- A rank of the server's own above the operators. -/
def rankedServer : Connection :=
  ⟨⟨some "(Yqaohv)!~&@%+".toList, some "beI,k,l,imnst".toList⟩, false, "me".toList, none⟩

theorem voice_hides_the_higher_rank :
    let events : List Event :=
      [.names "!bob".toList, .mode "+v".toList ["bob".toList] "op".toList 0]
    let after := runFrom (Channel.exec (knownClasses rankedServer) rankedServer) freshChannel events
    (after.buffer.users.get? "bob".toList).map NickEntry.shownPrefix = some "+".toList ∧
      (after.held "bob".toList).map rankedServer.isupport.symbols = some "!+".toList := by
  decide +kernel

end Repartee.ChannelModes
