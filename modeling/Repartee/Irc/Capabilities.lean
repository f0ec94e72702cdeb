import Repartee.Irc.Multiline
import Repartee.Irc.SaslMechanisms
import Mathlib.Data.Finset.Basic

/-!
Capabilities: what a server advertises, what is asked of it, and what its answers enable.
-/

namespace Repartee.Irc

open Text Lib

inductive CapSubCommand where
  | ls
  | list
  | req
  | ack
  | nak
  | end_
  | new
  | del
  deriving DecidableEq

/-- Capability names are stored lowercase, in the order they were advertised. -/
structure ServerCaps where
  caps : List (Str × Option Str)
  deriving DecidableEq

namespace ServerCaps

def parseToken (token : Str) : Str × Option Str :=
  match splitOnce '=' token with
  | some (name, value) => (asciiLower name, some value)
  | none => (asciiLower token, none)

def parse (capsStr : Str) : ServerCaps := ⟨(splitWhitespace capsStr).map parseToken⟩

def merge (server : ServerCaps) (capsStr : Str) : ServerCaps :=
  ⟨server.caps ++ (parse capsStr).caps⟩

def has (server : ServerCaps) (cap : Str) : Bool :=
  server.caps.any fun entry => eqNocase entry.1 cap

def value (server : ServerCaps) (cap : Str) : Option Str :=
  (server.caps.find? fun entry => eqNocase entry.1 cap).bind Prod.snd

def negotiate (server : ServerCaps) (desired : List Str) : List Str :=
  (desired.filter server.has).map asciiLower

/-- The mechanisms the server names, if it names any. -/
def saslMechanismsAdvertised (toUppercase : Str → Str) (server : ServerCaps) :
    Option (List Str) :=
  match server.value "sasl".toList with
  | some value => if value = [] then none else some ((value.splitOn ',').map toUppercase)
  | none => none

end ServerCaps

def desiredCaps : List Str :=
  ["multi-prefix", "extended-join", "ircnet.com/extended-join", "server-time", "account-tag",
    "cap-notify", "away-notify", "account-notify", "chghost", "setname", "extended-monitor",
    "draft/extended-monitor", "echo-message", "invite-notify", "batch", "draft/extended-isupport",
    "labeled-response", "userhost-in-names", "no-implicit-names", "draft/no-implicit-names",
    "soju.im/no-implicit-names", "message-tags", "draft/multiline", "draft/chathistory",
    "draft/event-playback", "sasl"].map String.toList

def networksCap : Str := "soju.im/bouncer-networks".toList
def networksNotifyCap : Str := "soju.im/bouncer-networks-notify".toList
def accountRequiredCap : Str := "soju.im/account-required".toList
def webpushCap : Str := "soju.im/webpush".toList
def extendedIsupportCap : Str := "draft/extended-isupport".toList
def saslCap : Str := "sasl".toList

def bouncerNetworkCaps (server : ServerCaps) : List Str :=
  server.negotiate (["draft/read-marker", "soju.im/read", "draft/message-redaction",
    "draft/account-registration", "soju.im/search", "draft/metadata-2"].map String.toList)

/-- The limits of a multiline capability; a size below that of a plain message is none. -/
def parseLimits (capValue : Option Str) : Option MultilineLimits :=
  match capValue with
  | none => none
  | some value =>
      let fields := (value.splitOn ',').filterMap (splitOnce '=')
      let read (name : String) : Option Nat :=
        (fields.filter fun field => field.1 == name.toList).getLast?.bind fun field =>
          (parseU64 field.2).toOption
      match (read "max-bytes").filter (messageMaxBytes ≤ ·) with
      | none => none
      | some maxBytes => some
          { maxBytes := maxBytes
            maxLines := ((read "max-lines").filter (0 < ·)).getD multilineDefaultMaxLines }

/-- The name a token of an answer is about. -/
def tokenName (token : Str) : Str :=
  asciiLower ((token.dropWhile (· = '-')).takeWhile (· ≠ '='))

def updateToken (deleting : Bool) (enabled : Finset Str) (token : Str) : Finset Str :=
  if deleting || token.head? == some '-' then enabled.erase (tokenName token)
  else insert (tokenName token) enabled

def updateRegistrationCaps (enabled : Finset Str) (subcommand : CapSubCommand)
    (third fourth : Option Str) : Finset Str :=
  if subcommand = .ack || subcommand = .del then
    (((fourth.or third).map splitWhitespace).getD []).foldl
      (updateToken (subcommand = .del)) enabled
  else enabled

end Repartee.Irc
