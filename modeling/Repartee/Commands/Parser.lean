import Repartee.Config.Env
import Repartee.Irc.Batch

/-!
What the user types, read as a command: the table of commands with their other names, and the split
of a line into a name and its arguments.
-/

namespace Repartee.Commands

open Text Irc

structure ParsedCommand where
  name : Str
  args : List Str
  deriving DecidableEq

/-- The commands with their aliases. -/
def commands : List (String × List String) :=
  [("bind", []), ("account", []), ("auth", []), ("upload", []), ("redact", []), ("monitor", []),
    ("setname", []), ("bouncer", []), ("connect", ["c"]), ("disconnect", []), ("quit", ["exit"]),
    ("detach", ["dt"]), ("server", []), ("wizard", []), ("dcc", []), ("e2e", []), ("join", ["j"]),
    ("part", ["leave"]), ("cycle", ["rejoin"]), ("topic", ["t"]), ("kick", ["k"]), ("invite", []),
    ("mode", []), ("op", []), ("deop", []), ("voice", ["v"]), ("devoice", []), ("ban", ["b"]),
    ("unban", []), ("kb", ["kickban"]), ("except", []), ("unexcept", []), ("invex", []),
    ("uninvex", []), ("reop", []), ("unreop", []), ("names", []), ("msg", ["m"]), ("query", ["q"]),
    ("me", ["action"]), ("notice", []), ("nick", []), ("away", []), ("help", ["?"]),
    ("emote", ["emotes", "emoji"]), ("whois", ["wi"]), ("wii", []), ("version", ["ver"]),
    ("list", []), ("who", []), ("whowas", []), ("info", []), ("admin", []), ("lusers", []),
    ("time", []), ("links", []), ("set", []), ("reload", []), ("spellcheck", ["spell"]),
    ("mentions", []), ("ignore", []), ("flood", ["antiflood"]), ("unignore", []), ("alias", []),
    ("unalias", []), ("autoconnect", []), ("items", []), ("bcert", []), ("bmeta", []),
    ("bsearch", []), ("log", []), ("script", []), ("oper", []), ("kill", []), ("wallops", []),
    ("stats", []), ("bare", []), ("clear", []), ("close", ["wc"]), ("quote", ["raw"]),
    ("preview", []), ("image", ["img"]), ("shell", ["sh"]), ("shrink", []), ("translate", ["tr"])]

/-- The command a name or an alias stands for; a name in the table goes before what comes later. -/
def resolveAlias (name : Str) : Option Str :=
  (commands.find? fun entry =>
    entry.1.toList = name ∨ entry.2.any fun other => other.toList = name).map fun entry =>
      entry.1.toList

/-- The commands whose last argument is the rest of the line. -/
def greedyCommands : List String :=
  ["msg", "query", "notice", "me", "quit", "topic", "disconnect", "set", "alias", "bouncer", "quote",
    "setname", "shell", "sh"]

/-- The greedy commands with one argument. -/
def singleArgument : List String := ["me", "quit", "quote", "setname"]

/-- So many words, and what follows them as it stands. -/
def takeHeads : Nat → Str → List Str
  | 0, tail => if tail.isEmpty then [] else [tail]
  | count + 1, tail =>
      let rest := tail.dropWhile fun c => !isWhitespace c
      if rest.isEmpty then if tail.isEmpty then [] else [tail]
      else (tail.takeWhile fun c => !isWhitespace c) :: takeHeads count (trimStart rest)

def itemsHeads (rest : Str) : Nat :=
  match (splitWhitespace rest).head? with
  | some word => if word = "format".toList then 2 else if word = "separator".toList then 1 else 0
  | none => 0

def nul : Char := Char.ofNat 0

section Parse

variable (unicode : Unicode) (shellWords : Str → Option (List Str))

/-- A number sign is text to the upload command, not the start of a comment. -/
def uploadArgs (rest : Str) : List Str :=
  ((shellWords (rest.map fun c => if c = '#' then nul else c)).map fun words =>
    words.map fun word => word.map fun c => if c = nul then '#' else c).getD []

/-- The arguments of a command, given under its name in the table. -/
def splitArgs (canonical rest : Str) : List Str :=
  if canonical = "bind".toList then [rest]
  else if canonical = "items".toList ∧ 0 < itemsHeads rest then takeHeads (itemsHeads rest) rest
  else if canonical = "upload".toList then uploadArgs shellWords rest
  else if greedyCommands.any fun name => name.toList = canonical then
    if singleArgument.any fun name => name.toList = canonical then [rest]
    else
      match splitOnce ' ' rest with
      | some (first, tail) => [first, tail]
      | none => [rest]
  else splitWhitespace rest

def trimRest (canonical rest : Str) : Str :=
  if canonical = "shell".toList ∨ canonical = "bind".toList then trimStart rest else trim rest

/-- Aliases are split as the command they stand for. -/
def parseCommand : Str → Option ParsedCommand
  | '/' :: trimmed =>
      match splitOnce ' ' trimmed with
      | none => some ⟨unicode.toLowercase trimmed, []⟩
      | some (word, rest) =>
          let command := unicode.toLowercase word
          let canonical := (resolveAlias command).getD command
          some ⟨command, splitArgs shellWords canonical (trimRest canonical rest)⟩
  | _ => none

end Parse

/-- What the string library does to ASCII text. -/
def LowersAscii (unicode : Unicode) : Prop :=
  ∀ s : Str, (∀ c ∈ s, c.toNat < 128) → unicode.toLowercase s = asciiLower s

theorem lowersAscii_ascii : LowersAscii .ascii := fun _ _ => rfl

/-- Every command answers to its name and its aliases, and no two to the same. -/
theorem commands_answer : ∀ entry ∈ commands, resolveAlias entry.1.toList = some entry.1.toList ∧
    ∀ other ∈ entry.2, resolveAlias other.toList = some entry.1.toList := by
  decide +kernel

/-- A name in ASCII, in lower case already and without a space. -/
def plainName (name : Str) : Bool :=
  name.all (fun c => c.toNat < 128 && c != ' ') && asciiLower name == name

theorem names_plain : ∀ entry ∈ commands, ∀ name ∈ entry.1 :: entry.2,
    plainName name.toList = true := by
  decide +kernel

theorem plainName_lower {unicode : Unicode} (lowers : LowersAscii unicode) {name : Str}
    (plain : plainName name = true) : unicode.toLowercase name = name ∧ ' ' ∉ name := by
  unfold plainName at plain
  rw [Bool.and_eq_true, List.all_eq_true, beq_iff_eq] at plain
  constructor
  · rw [lowers name, plain.2]
    intro c member
    have both := plain.1 c member
    simp only [Bool.and_eq_true, decide_eq_true_eq] at both
    exact both.1
  · intro space
    have both := plain.1 ' ' space
    simp at both

section Parsed

variable {unicode : Unicode} {shellWords : Str → Option (List Str)}

theorem parseCommand_plain {line : Str} (plain : ∀ c ∈ line.head?, c ≠ '/') :
    parseCommand unicode shellWords line = none := by
  unfold parseCommand
  split
  · exact absurd rfl (plain '/' rfl)
  · rfl

theorem parseCommand_slash (trimmed : Str) :
    (parseCommand unicode shellWords ('/' :: trimmed)).isSome = true := by
  rw [parseCommand]
  split <;> rfl

theorem parseCommand_named {name : Str} (word : ' ' ∉ name) (rest : Str) :
    parseCommand unicode shellWords ('/' :: (name ++ ' ' :: rest)) =
      some ⟨unicode.toLowercase name,
        splitArgs shellWords ((resolveAlias (unicode.toLowercase name)).getD
            (unicode.toLowercase name))
          (trimRest ((resolveAlias (unicode.toLowercase name)).getD (unicode.toLowercase name))
            rest)⟩ := by
  rw [parseCommand, splitOnce_append ' ' name rest word]

/-- A line is split by the command it runs, whichever of its names was typed. -/
theorem parseCommand_entry (lowers : LowersAscii unicode) {entry : String × List String}
    (listed : entry ∈ commands) {name : String} (named : name ∈ entry.1 :: entry.2) (rest : Str) :
    parseCommand unicode shellWords ('/' :: (name.toList ++ ' ' :: rest)) =
      some ⟨name.toList,
        splitArgs shellWords entry.1.toList (trimRest entry.1.toList rest)⟩ := by
  have typed := plainName_lower lowers (names_plain entry listed name named)
  have answers : resolveAlias name.toList = some entry.1.toList := by
    cases List.mem_cons.mp named with
    | inl same => rw [same]; exact (commands_answer entry listed).1
    | inr other => exact (commands_answer entry listed).2 name other
  rw [parseCommand_named typed.2, typed.1, answers, Option.getD_some]

/-- Greediness is the command's, not the spelling's. -/
theorem aliases_parse_alike (lowers : LowersAscii unicode) {entry : String × List String}
    (listed : entry ∈ commands) {other : String} (named : other ∈ entry.2) (rest : Str) :
    (parseCommand unicode shellWords ('/' :: (other.toList ++ ' ' :: rest))).map
        ParsedCommand.args =
      (parseCommand unicode shellWords ('/' :: (entry.1.toList ++ ' ' :: rest))).map
        ParsedCommand.args := by
  rw [parseCommand_entry lowers listed (List.mem_cons_of_mem _ named),
    parseCommand_entry lowers listed List.mem_cons_self]
  rfl

/-- The arguments of a command that takes a word and the rest of the line. -/
def wordAndRest (rest : Str) : List Str :=
  match splitOnce ' ' rest with
  | some (first, tail) => [first, tail]
  | none => [rest]

theorem splitArgs_msg (rest : Str) :
    splitArgs shellWords "msg".toList rest = wordAndRest rest := by
  have bind : "msg".toList ≠ "bind".toList := by decide
  have items : "msg".toList ≠ "items".toList := by decide
  have upload : "msg".toList ≠ "upload".toList := by decide
  have greedy : (greedyCommands.any fun name => name.toList = "msg".toList) = true := by decide
  have pair : (singleArgument.any fun name => name.toList = "msg".toList) = false := by decide
  unfold splitArgs
  rw [if_neg bind, if_neg fun both => items both.1, if_neg upload, if_pos greedy, pair]
  rfl

theorem splitArgs_me (rest : Str) : splitArgs shellWords "me".toList rest = [rest] := by
  have bind : "me".toList ≠ "bind".toList := by decide
  have items : "me".toList ≠ "items".toList := by decide
  have upload : "me".toList ≠ "upload".toList := by decide
  have greedy : (greedyCommands.any fun name => name.toList = "me".toList) = true := by decide
  have single : (singleArgument.any fun name => name.toList = "me".toList) = true := by decide
  unfold splitArgs
  rw [if_neg bind, if_neg fun both => items both.1, if_neg upload, if_pos greedy, if_pos single]

theorem trimRest_plain {canonical : Str} (shell : canonical ≠ "shell".toList)
    (bind : canonical ≠ "bind".toList) (rest : Str) : trimRest canonical rest = trim rest := by
  rw [trimRest, if_neg fun either => either.elim shell bind]

theorem msg_listed : ("msg", ["m"]) ∈ commands := List.mem_of_getElem? (i := 37) rfl

theorem me_listed : ("me", ["action"]) ∈ commands := List.mem_of_getElem? (i := 39) rfl

theorem parse_msg (lowers : LowersAscii unicode) (rest : Str) :
    parseCommand unicode shellWords ("/msg ".toList ++ rest) =
      some ⟨"msg".toList, wordAndRest (trim rest)⟩ := by
  calc parseCommand unicode shellWords ("/msg ".toList ++ rest)
      = some ⟨"msg".toList, splitArgs shellWords "msg".toList (trimRest "msg".toList rest)⟩ :=
        parseCommand_entry lowers msg_listed List.mem_cons_self rest
    _ = some ⟨"msg".toList, wordAndRest (trim rest)⟩ := by
        rw [splitArgs_msg, trimRest_plain (by decide) (by decide)]

theorem parse_me (lowers : LowersAscii unicode) (rest : Str) :
    parseCommand unicode shellWords ("/me ".toList ++ rest) =
      some ⟨"me".toList, [trim rest]⟩ := by
  calc parseCommand unicode shellWords ("/me ".toList ++ rest)
      = some ⟨"me".toList, splitArgs shellWords "me".toList (trimRest "me".toList rest)⟩ :=
        parseCommand_entry lowers me_listed List.mem_cons_self rest
    _ = some ⟨"me".toList, [trim rest]⟩ := by
        rw [splitArgs_me, trimRest_plain (by decide) (by decide)]

theorem trim_length_le (s : Str) : (trim s).length ≤ s.length := by
  have front := (List.dropWhile_suffix (l := s) isWhitespace).length_le
  have leading := List.rdropWhile_prefix isWhitespace (s.dropWhile isWhitespace)
  have back := leading.length_le
  rw [Config.Env.trim_eq]
  omega

theorem wordAndRest_length {rest argument : Str} (given : argument ∈ wordAndRest rest) :
    argument.length ≤ rest.length := by
  unfold wordAndRest at given
  cases divided : splitOnce ' ' rest with
  | none =>
      rw [divided] at given
      rw [List.mem_singleton.mp given]
  | some parts =>
      rw [divided] at given
      have whole := ((splitOnce_eq_some ' ' rest parts.1 parts.2).mp divided).1
      have total : rest.length = parts.1.length + (parts.2.length + 1) := by
        conv_lhs => rw [whole]
        simp
      rcases List.mem_cons.mp given with first | second
      · rw [first]
        omega
      · rw [List.mem_singleton.mp second]
        omega

/-- What a line says to somebody is shorter than the line, whichever name it was sent under. -/
theorem msg_args_shorter {line : Str} {parsed : ParsedCommand}
    (reads : parseCommand unicode shellWords line = some parsed)
    (canonical : resolveAlias parsed.name = some "msg".toList) {argument : Str}
    (given : argument ∈ parsed.args) : argument.length < line.length := by
  cases line with
  | nil => cases reads
  | cons c trimmed =>
      by_cases slash : c = '/'
      · subst slash
        rw [parseCommand] at reads
        cases divided : splitOnce ' ' trimmed with
        | none =>
            rw [divided] at reads
            rw [← Option.some.inj reads] at given
            exact absurd given (List.not_mem_nil)
        | some parts =>
            rw [divided] at reads
            have read := Option.some.inj reads
            rw [← read] at canonical given
            have named : (resolveAlias (unicode.toLowercase parts.1)).getD
                (unicode.toLowercase parts.1) = "msg".toList := by rw [canonical, Option.getD_some]
            simp only [named, splitArgs_msg,
              trimRest_plain (show "msg".toList ≠ "shell".toList by decide)
                (show "msg".toList ≠ "bind".toList by decide)] at given
            have inside := wordAndRest_length given
            have short := trim_length_le parts.2
            have whole := ((splitOnce_eq_some ' ' trimmed parts.1 parts.2).mp divided).1
            have total := congrArg List.length whole
            simp only [List.length_append, List.length_cons] at total
            rw [List.length_cons]
            omega
      · rw [parseCommand_plain fun d first => by
          rw [Option.mem_some.mp first |>.symm]
          exact slash] at reads
        cases reads

end Parsed

end Repartee.Commands
