import Repartee.Lib.Table
import Repartee.Text

/-!
The configuration: one record a section, each setting with its own type. The bindings of the
keyboard and what scripts store are not settings.
-/

namespace Repartee.Config

open Text Lib

/-- Entries under names, in no order. -/
abbrev Dictionary (ν : Type) : Type := Finmap fun _ : Str => ν

inductive NickAlignment where
  | left
  | right
  | center
  deriving DecidableEq

inductive StatusbarItem where
  | activeWindows
  | nickInfo
  | channelInfo
  | typing
  | lag
  | time
  deriving DecidableEq

inductive IgnoreLevel where
  | msgs
  | publics
  | notices
  | actions
  | joins
  | parts
  | quits
  | nicks
  | kicks
  | ctcps
  | all
  deriving DecidableEq

inductive RenderMode where
  | graphical
  | text
  | off
  deriving DecidableEq

inductive EmoteLang where
  | en
  | pl
  deriving DecidableEq

structure GeneralConfig where
  nick : Str
  username : Str
  realname : Str
  theme : Str
  timestampFormat : Str
  floodProtection : Bool
  floodExemptions : List Str
  ctcpVersion : Str
  defaultBindIp : Option Str

structure DisplayConfig where
  nickColumnWidth : UInt16
  nickMaxLength : UInt16
  nickAlignment : NickAlignment
  nickTruncation : Bool
  showTimestamps : Bool
  scrollbackLines : UInt64
  backlogLines : UInt64
  nickColors : Bool
  nickColorsInNicklist : Bool
  nickColorSaturation : Float32
  nickColorLightness : Float32
  mentionsBuffer : Bool

structure PanelConfig where
  width : UInt16
  visible : Bool

structure SidepanelConfig where
  left : PanelConfig
  right : PanelConfig

structure StatusbarConfig where
  enabled : Bool
  border : Bool
  items : List StatusbarItem
  separator : Str
  itemFormats : Dictionary Str
  background : Str
  textColor : Str
  accentColor : Str
  mutedColor : Str
  dimColor : Str
  prompt : Str
  promptColor : Str
  inputColor : Str
  cursorColor : Str

structure ImagePreviewConfig where
  enabled : Bool
  inline : Bool
  maxWidth : UInt32
  maxHeight : UInt32
  cacheMaxMb : UInt32
  cacheMaxDays : UInt32
  fetchTimeout : UInt32
  maxFileSize : UInt64
  protocol : Str
  kittyFormat : Str

structure ServerConfig where
  label : Str
  address : Str
  port : UInt16
  tls : Bool
  tlsVerify : Bool := true
  autoconnect : Bool := false
  channels : List Str
  nick : Option Str := none
  username : Option Str := none
  realname : Option Str := none
  password : Option Str := none
  saslUser : Option Str := none
  saslPass : Option Str := none
  bindIp : Option Str := none
  encoding : Option Str := none
  autoReconnect : Option Bool := none
  reconnectDelay : Option UInt64 := none
  reconnectMaxRetries : Option UInt32 := none
  autosendcmd : Option Str := none
  saslMechanism : Option Str := none
  clientCertPath : Option Str := none
  saslKeyPath : Option Str := none
  bouncerNetworkId : Option Str := none
  bouncerControl : Bool := false
  deriving DecidableEq

structure IgnoreEntry where
  mask : Str
  levels : List IgnoreLevel
  channels : Option (List Str)

structure KeyboardConfig where
  keyTimeout : UInt64

structure ScriptsConfig where
  autoload : List Str
  debug : Bool

structure LoggingConfig where
  enabled : Bool
  encrypt : Bool
  retentionDays : UInt32
  eventRetentionHours : UInt32
  excludeTypes : List Str

structure DccConfig where
  timeout : UInt64
  ownIp : Str
  portRange : Str
  autoacceptLowports : Bool
  autochatMasks : List Str
  maxConnections : UInt64

structure SpellcheckConfig where
  enabled : Bool
  computing : Bool
  mode : Str
  languages : List Str
  dictionaryDir : Str

structure ShrinkConfig where
  enabled : Bool
  apiUrl : Str
  apiKey : Str
  outgoingEnabled : Bool
  incomingEnabled : Bool
  minUrlLength : UInt32
  outgoingTimeoutMs : UInt64
  incomingTimeoutMs : UInt64
  cacheMaxEntries : UInt32

structure TranslateBufferConfig where
  incoming : Bool
  outgoing : Bool
  lang : Option Str
  myLang : Option Str

structure TranslateAiProviderConfig where
  only : List Str
  quantizations : List Str
  allowFallbacks : Bool

structure TranslateAiModelConfig where
  name : Str
  baseUrl : Str
  model : Str
  apiKeyEnv : Str
  apiKey : Str
  rpm : UInt32
  tpm : UInt32
  maxRetries : UInt32
  maxOutputTokens : UInt32
  reasoningEffort : Option Str
  provider : Option TranslateAiProviderConfig

structure TranslateAiConfig where
  easy : List Str
  strong : List Str
  terminal : Option (List Str)
  preferredAttemptMs : UInt64
  promptPath : Str
  models : List TranslateAiModelConfig

structure TranslateConfig where
  enabled : Bool
  backend : Str
  myLang : Str
  showOriginalIn : Bool
  showOriginalOut : Bool
  timeoutMs : UInt64
  maxInFlight : UInt32
  maxQueue : UInt32
  ai : TranslateAiConfig
  buffers : Dictionary TranslateBufferConfig

structure E2eConfig where
  enabled : Bool
  defaultMode : Str
  tsToleranceSecs : Int64

structure WebConfig where
  enabled : Bool
  bindAddress : Str
  port : UInt16
  tlsCert : Str
  tlsKey : Str
  timestampFormat : Str
  lineHeight : Float32
  nickColumnWidth : UInt32
  nickMaxLength : UInt32
  theme : Str
  sessionDays : UInt32
  username : Str
  imagePreviews : Bool
  imagePreviewsMaxPerMsg : UInt32
  thumbnailCacheMb : UInt32
  cloudflareTunnelName : Str
  password : Str

structure EmotesConfig where
  enabled : Bool
  render : RenderMode
  lang : EmoteLang
  maxCols : UInt16
  maxRows : UInt16

structure TypingConfig where
  «show» : Bool
  sendChannels : Bool
  sendQueries : Bool

structure AppConfig where
  general : GeneralConfig
  display : DisplayConfig
  sidepanel : SidepanelConfig
  statusbar : StatusbarConfig
  imagePreview : ImagePreviewConfig
  servers : Map Str ServerConfig
  aliases : Dictionary Str
  keyboard : KeyboardConfig
  ignores : List IgnoreEntry
  scripts : ScriptsConfig
  logging : LoggingConfig
  dcc : DccConfig
  spellcheck : SpellcheckConfig
  web : WebConfig
  e2e : E2eConfig
  shrink : ShrinkConfig
  emotes : EmotesConfig
  typing : TypingConfig
  translate : TranslateConfig

end Repartee.Config
