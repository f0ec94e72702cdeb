import Repartee.Irc.Batch

/-!
The modes of a channel and of those in it: what the server advertises about them, and the three
paths that set them (NAMES, the mode reply and MODE). The library that parses a MODE line is a
parameter.
-/

namespace Repartee.ChannelModes

open Repartee.Text
open Repartee.Lib
open Repartee.Irc

/-- The tokens of the server's announcement that are about modes. -/
structure Isupport where
  prefixToken : Option Str
  chanmodes : Option Str

def defaultPrefixes : List (Char × Char) := [('o', '@'), ('v', '+')]

namespace Isupport

/-- The modes and their symbols in rank order. -/
def prefixMap (isupport : Isupport) : List (Char × Char) :=
  match isupport.prefixToken with
  | none => defaultPrefixes
  | some value =>
      match stripPrefix "(".toList value with
      | none => defaultPrefixes
      | some rest =>
          match splitOnce ')' rest with
          | none => defaultPrefixes
          | some (modes, prefixes) => modes.zip prefixes

/-- At most `n` parts, the last of them with what is left. -/
def splitN (separator : Char) : Nat → Str → List Str
  | 0, _ => []
  | 1, s => [s]
  | n + 1, s =>
      match splitOnce separator s with
      | none => [s]
      | some (part, rest) => part :: splitN separator n rest

/-- The list modes, those with a parameter always, when set only, and never. -/
def chanmodeTypes (isupport : Isupport) : Str × Str × Str × Str :=
  match isupport.chanmodes with
  | none => ([], [], [], [])
  | some value =>
      let parts := splitN ',' 4 value
      (parts.getD 0 [], parts.getD 1 [], parts.getD 2 [], parts.getD 3 [])

end Isupport

structure NickEntry where
  nick : Str
  shownPrefix : Str
  modes : Str
  away : Bool
  account : Option Str
  ident : Option Str
  host : Option Str
  realname : Option Str
  deriving DecidableEq

structure ListEntry where
  mask : Str
  setBy : Str
  setAt : Int
  deriving DecidableEq

structure Buffer where
  users : Map Str NickEntry
  modes : Option Str
  modeParams : Option (Map Str Str)
  listModes : Map Str (List ListEntry)

/-- What of the connection is read. -/
structure Connection where
  isupport : Isupport
  userhostInNames : Bool
  nick : Str
  ownRealname : Option Str

inductive ChannelMode where
  | ban
  | exception
  | limit
  | inviteOnly
  | inviteException
  | key
  | moderated
  | registeredOnly
  | reop
  | secret
  | protectedTopic
  | noExternalMessages
  | founder
  | admin
  | oper
  | halfop
  | voice
  | unknown (c : Char)
  deriving DecidableEq

inductive Mode where
  | plus (mode : ChannelMode) (param : Option Str)
  | minus (mode : ChannelMode) (param : Option Str)
  | noPrefix (mode : ChannelMode)
  deriving DecidableEq

def channelModeLetter : ChannelMode → Char
  | .ban => 'b'
  | .exception => 'e'
  | .limit => 'l'
  | .inviteOnly => 'i'
  | .inviteException => 'I'
  | .key => 'k'
  | .moderated => 'm'
  | .registeredOnly => 'r'
  | .reop => 'R'
  | .secret => 's'
  | .protectedTopic => 't'
  | .noExternalMessages => 'n'
  | .founder => 'q'
  | .admin => 'a'
  | .oper => 'o'
  | .halfop => 'h'
  | .voice => 'v'
  | .unknown c => c

/-- The case mappings of strings and the library's reading of a MODE line. -/
structure Platform where
  unicode : Unicode
  channelModes : Str → List Str → List Mode

variable (P : Platform)

/-- The symbols of the modes in the order of the ranking; the mode of a symbol is the usual one. -/
def modesToPrefix (modes prefixOrder : Str) : Str :=
  prefixOrder.filter fun symbol =>
    modes.contains
      (if symbol = '~' then 'q' else if symbol = '&' then 'a' else if symbol = '@' then 'o'
        else if symbol = '%' then 'h' else if symbol = '+' then 'v' else symbol)

def usualOrder : Str := "~&@%+".toList

def parseUserhost (input : Str) : Str × Option Str × Option Str :=
  match splitOnce '!' input with
  | none => (input, none, none)
  | some (nick, rest) =>
      match splitOnce '@' rest with
      | none => (input, none, none)
      | some (ident, host) => (nick, some ident, some host)

/-- The symbols ahead of a name with the modes they stand for, and the name. -/
def leadingSymbols (prefixMap : List (Char × Char)) : Str → Str × Str × Str
  | [] => ([], [], [])
  | c :: rest =>
      match prefixMap.find? fun p => p.2 = c with
      | some (mode, _) =>
          let later := leadingSymbols prefixMap rest
          (c :: later.1, mode :: later.2.1, later.2.2)
      | none => ([], [], c :: rest)

def parseNamesEntry (raw : Str) (prefixMap : List (Char × Char)) (hasUserhost : Bool) : NickEntry :=
  let (shown, modes, rest) := leadingSymbols prefixMap raw
  let (nick, ident, host) := if hasUserhost then parseUserhost rest else (rest, none, none)
  ⟨nick, shown, modes, false, none, ident, host, none⟩

/-- One name of a NAMES reply: the entry replaces the one there was, but for the realname. -/
def receiveName (conn : Connection) (buf : Buffer) (raw : Str) : Buffer :=
  let entry := parseNamesEntry raw conn.isupport.prefixMap conn.userhostInNames
  let key := P.unicode.toLowercase entry.nick
  let realname := ((buf.users.get? key).bind NickEntry.realname).or
    (if eqNocase conn.nick entry.nick then conn.ownRealname else none)
  { buf with users := buf.users.insert key { entry with realname := realname } }

def receiveNames (conn : Connection) (buf : Buffer) (nicks : Str) : Buffer :=
  (splitWhitespace nicks).foldl (receiveName P conn) buf

/-- A WHO reply refreshes what is known of the user; the modes are not touched. -/
def updateWhoNickEntry (buf : Buffer) (nick ident host realname : Str) (away : Bool)
    (account : Option (Option Str)) : Buffer :=
  { buf with
    users := buf.users.adjust (P.unicode.toLowercase nick) fun entry =>
      { entry with
        ident := some ident
        host := some host
        realname := some realname
        away := away
        account := account.getD entry.account } }

/-- The reply to a question for the modes: the parameters go to the keys and limits in turn. -/
def replyParams : Str → List Str → Map Str Str → Map Str Str
  | [], _, params => params
  | c :: rest, args, params =>
      if c = 'k' ∨ c = 'l' then
        match args with
        | value :: later => replyParams rest later (params.insert [c] value)
        | [] => replyParams rest [] params
      else replyParams rest args params

def receiveChannelModeIs (buf : Buffer) (modes : Str) (args : List Str) : Buffer :=
  let modeStr := (stripPrefix "+".toList modes).getD modes
  let params := replyParams modeStr args Table.empty
  { buf with
    modes := some modeStr
    modeParams := if params.rows.isEmpty then none else some params }

def maxListModeEntries : Nat := 500

def upsertListModeEntry (buf : Buffer) (modeKey mask setBy : Str) (setAt : Int) : Buffer :=
  let entries := (buf.listModes.get? modeKey).getD []
  let updated :=
    if entries.any fun entry => eqNocase entry.mask mask then
      let (front, back) := entries.span fun entry => !eqNocase entry.mask mask
      match back with
      | entry :: rest => front ++ { entry with setBy := setBy, setAt := setAt } :: rest
      | [] => front
    else
      let grown := entries ++ [⟨mask, setBy, setAt⟩]
      grown.drop (grown.length - maxListModeEntries)
  { buf with listModes := buf.listModes.insert modeKey updated }

def removeListModeEntry (buf : Buffer) (modeKey mask : Str) : Buffer :=
  match buf.listModes.get? modeKey with
  | none => buf
  | some entries =>
      let kept := entries.filter fun entry => !eqNocase entry.mask mask
      { buf with
        listModes :=
          if kept.isEmpty then buf.listModes.erase modeKey else buf.listModes.insert modeKey kept }

def banKey : Str := "b".toList

def nickModeChar : ChannelMode → Option Char
  | .founder => some 'q'
  | .admin => some 'a'
  | .oper => some 'o'
  | .halfop => some 'h'
  | .voice => some 'v'
  | _ => none

def removeChar (c : Char) (s : Str) : Str := s.filter fun d => d ≠ c

/-- The entry after a mode of the nick was set or taken. -/
def changeEntry (adding : Bool) (c : Char) (entry : NickEntry) : NickEntry :=
  let modes :=
    if adding && !entry.modes.contains c then entry.modes ++ [c]
    else if !adding then removeChar c entry.modes
    else entry.modes
  { entry with modes := modes, shownPrefix := modesToPrefix modes usualOrder }

/-- The channel's own modes after one was set or taken. -/
def changeModes (buf : Buffer) (adding : Bool) (c : Char) (param : Option Str) : Buffer :=
  let modes := buf.modes.getD []
  let buf :=
    if adding then
      { buf with
        modes := some (if modes.contains c then modes else modes ++ [c])
        modeParams :=
          match if c = 'k' ∨ c = 'l' then param else none with
          | some value => some ((buf.modeParams.getD Table.empty).insert [c] value)
          | none => buf.modeParams }
    else
      { buf with
        modes := some (removeChar c modes)
        modeParams := buf.modeParams.map fun params => params.erase [c] }
  { buf with modes := buf.modes.map fun modes => (stripPrefix "+".toList modes).getD modes }

def changeBans (buf : Buffer) (adding : Bool) (param : Option Str) (setBy : Str) (now : Int) : Buffer :=
  match param with
  | none => buf
  | some mask =>
      if adding then upsertListModeEntry buf banKey mask setBy now
      else removeListModeEntry buf banKey mask

/-- Whether the mode is one of the user lists that are not kept. -/
def isListMode (mode : ChannelMode) : Bool :=
  mode == .exception || mode == .inviteException || mode == .reop

def applyMode (buf : Buffer) (adding : Bool) (mode : ChannelMode) (param : Option Str) (setBy : Str)
    (now : Int) : Buffer :=
  match nickModeChar mode, param.map P.unicode.toLowercase with
  | some c, some key =>
      if (buf.users.get? key).isSome then
        { buf with users := buf.users.adjust key (changeEntry adding c) }
      else buf
  | some _, none => buf
  | none, _ =>
      if mode = .ban then changeBans buf adding param setBy now
      else if isListMode mode then buf
      else changeModes buf adding (channelModeLetter mode) param

def applyChannelMode (setBy : Str) (now : Int) (buf : Buffer) : Mode → Buffer
  | .noPrefix _ => buf
  | .plus mode param => applyMode P buf true mode param setBy now
  | .minus mode param => applyMode P buf false mode param setBy now

/-- A MODE line, as the library reads it. -/
def handleMode (buf : Buffer) (modes : Str) (args : List Str) (setBy : Str) (now : Int) : Buffer :=
  (P.channelModes modes args).foldl (applyChannelMode P setBy now) buf

end Repartee.ChannelModes
