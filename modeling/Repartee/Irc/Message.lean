import Repartee.Text

/-!
The parsed messages of the protocol library, as far as the code below looks at them.
-/

namespace Repartee.Irc

/-- A message tag: its key and its value, if it has one. -/
structure Tag where
  key : Str
  value : Option Str
  deriving DecidableEq

inductive Prefix where
  | serverName (name : Str)
  | nickname (nick user host : Str)
  deriving DecidableEq

inductive Command where
  | privmsg (target text : Str)
  | notice (target text : Str)
  | quit (reason : Option Str)
  /-- Reference with its sign, subcommand and parameters. -/
  | batch (reference : Str) (sub : Option Str) (params : Option (List Str))
  | raw (command : Str) (args : List Str)
  /-- A numeric reply. -/
  | response (code : Nat) (args : List Str)
  | error (text : Str)
  deriving DecidableEq

structure Message where
  tags : Option (List Tag)
  source : Option Prefix
  command : Command
  deriving DecidableEq

def Message.ofCommand (command : Command) : Message := ⟨none, none, command⟩

/-- The value of the first tag with the key. -/
def tagValue (key : Str) (tags : Option (List Tag)) : Option Str :=
  tags.bind fun tags => (tags.find? fun tag => tag.key = key).bind Tag.value

def batchKey : Str := "batch".toList
def msgidKey : Str := "msgid".toList
def labelKey : Str := "label".toList
def concatKey : Str := "draft/multiline-concat".toList

def getBatchTag (msg : Message) : Option Str := tagValue batchKey msg.tags

def extractNick : Option Prefix → Option Str
  | some (.nickname nick _ _) => some nick
  | some (.serverName name) => some name
  | none => none

def extractNickUserhost : Option Prefix → Str × Str × Str
  | some (.nickname nick user host) => (nick, user, host)
  | some (.serverName name) => (name, [], [])
  | none => ([], [], [])

end Repartee.Irc
