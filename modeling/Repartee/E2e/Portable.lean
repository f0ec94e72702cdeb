import Repartee.E2e.Database

/-!
The portable JSON document of a keyring: how it is written, what an import checks in it, and the
transaction that puts it in the place of what was there.
-/

namespace Repartee.E2e

open Text Lib

def exportVersion : Nat := 1

structure PortableIdentity where
  pubkey : Str
  privkey : Str
  fingerprint : Str
  createdAt : Int
  deriving DecidableEq

structure PortablePeer where
  fingerprint : Str
  pubkey : Str
  lastHandle : Option Str
  lastNick : Option Str
  firstSeen : Int
  lastSeen : Int
  globalStatus : Str
  deriving DecidableEq

structure PortableIncoming where
  handle : Str
  channel : Str
  fingerprint : Str
  sk : Str
  status : Str
  createdAt : Int
  deriving DecidableEq

structure PortableOutgoing where
  channel : Str
  sk : Str
  createdAt : Int
  pendingRotation : Bool
  deriving DecidableEq

structure PortableChannel where
  channel : Str
  enabled : Bool
  mode : Str
  deriving DecidableEq

structure PortableAutotrust where
  scope : Str
  handlePattern : Str
  deriving DecidableEq

structure Portable where
  version : Nat
  exportedAt : Int
  identity : PortableIdentity
  peers : List PortablePeer
  incomingSessions : List PortableIncoming
  outgoingSessions : List PortableOutgoing
  channels : List PortableChannel
  autotrust : List PortableAutotrust
  deriving DecidableEq

structure ExportSummary where
  peers : Nat
  incoming : Nat
  outgoing : Nat
  channels : Nat
  autotrust : Nat
  deriving DecidableEq

structure ImportSummary where
  identity : Bool
  peers : Nat
  incoming : Nat
  outgoing : Nat
  channels : Nat
  autotrust : Nat
  deriving DecidableEq

/-- What serde_json makes of a document and reads from a file, and what the hex crate says of a
text it cannot decode into a slice of a given length. -/
structure Json where
  toVecPretty : Portable → Except Str Bytes
  fromSlice : Bytes → Except Str Portable
  hexSliceError : Nat → Str → Str

section Export

variable (A : Aes256Gcm) (J : Json) (secretKey : Option SecretKey)

def StoredIdentity.toPortable (identity : StoredIdentity) : PortableIdentity :=
  ⟨hexEncode identity.pubkey, hexEncode identity.privkey, hexEncode identity.fingerprint,
    identity.createdAt⟩

def PeerRecord.toPortable (p : PeerRecord) : PortablePeer :=
  ⟨hexEncode p.fingerprint, hexEncode p.pubkey, p.lastHandle, p.lastNick, p.firstSeen, p.lastSeen,
    p.globalStatus.asStr⟩

def IncomingSession.toPortable (s : IncomingSession) : PortableIncoming :=
  ⟨s.handle, s.channel, hexEncode s.fingerprint, hexEncode s.sk, s.status.asStr, s.createdAt⟩

def OutgoingSession.toPortable (o : OutgoingSession) : PortableOutgoing :=
  ⟨o.channel, hexEncode o.sk, o.createdAt, o.pendingRotation⟩

def ChannelConfig.toPortable (c : ChannelConfig) : PortableChannel :=
  ⟨c.channel, c.enabled, c.mode.asStr⟩

def AutotrustRule.toPortable (rule : AutotrustRule) : PortableAutotrust :=
  ⟨rule.scope, rule.handlePattern⟩

def noIdentity : E2eError :=
  .keyring
    "no identity present — nothing to export (run the client once to generate one)".toList

def identityToExport (db : Database) : Except E2eError StoredIdentity :=
  match db.loadIdentity A secretKey with
  | .ok (some row) => .ok row
  | .ok none => .error noIdentity
  | .error e => .error e

def buildPortable (now : Int) (db : Database) : Except E2eError Portable := do
  let identity ← identityToExport A secretKey db
  let peers ← db.listAllPeers
  let incoming ← db.listAllIncomingSessions A secretKey
  let outgoing ← db.listAllOutgoingSessions A secretKey
  let channels ← db.listAllChannelConfigs
  let autotrust ← db.listAutotrust
  return {
    version := exportVersion
    exportedAt := now
    identity := identity.toPortable
    peers := peers.map PeerRecord.toPortable
    incomingSessions := incoming.map IncomingSession.toPortable
    outgoingSessions := outgoing.map OutgoingSession.toPortable
    channels := channels.map ChannelConfig.toPortable
    autotrust := autotrust.map AutotrustRule.toPortable }

/-- What is written, if the file can be, is the text of the document. -/
def exportToPath (writePrivateFile : Bytes → Except E2eError Unit) (now : Int) (db : Database) :
    Except E2eError (ExportSummary × Bytes) := do
  let doc ← buildPortable A secretKey now db
  let json ← (J.toVecPretty doc).mapError fun e => .keyring ("serialize export json: ".toList ++ e)
  writePrivateFile json
  return (⟨doc.peers.length, doc.incomingSessions.length, doc.outgoingSessions.length,
    doc.channels.length, doc.autotrust.length⟩, json)

end Export

structure Validated where
  identity : StoredIdentity
  peers : List PeerRecord
  incoming : List IncomingSession
  outgoing : List OutgoingSession
  channels : List ChannelConfig
  /-- The rules with the time they are recorded at, that of the export. -/
  autotrust : List (AutotrustRule × Int)
  deriving DecidableEq

section Validation

variable (P : Platform) (J : Json)

def parseSecretArray (length : Nat) (field s : Str) : Except E2eError Bytes :=
  let invalid : E2eError := .keyring (field ++ ": invalid ".toList ++ natText length ++
    "-byte hex value (".toList ++ J.hexSliceError length s ++ [')'])
  match hexDecode s with
  | some bytes => if bytes.length = length then .ok bytes else .error invalid
  | none => .error invalid

def parseHexArray (length : Nat) (field s : Str) : Except E2eError Bytes :=
  match hexDecode s with
  | none => .error (.keyring (field ++ ": invalid hex (".toList ++ P.hexError s ++ [')']))
  | some bytes =>
      if bytes.length ≠ length then
        .error (.keyring (field ++ ": expected ".toList ++ natText length ++
          " bytes (hex length ".toList ++ natText (length * 2) ++ "), got ".toList ++
          natText bytes.length))
      else .ok bytes

def parseTrustStatus (field s : Str) : Except E2eError TrustStatus :=
  if s = "pending".toList then .ok .pending
  else if s = "trusted".toList then .ok .trusted
  else if s = "revoked".toList then .ok .revoked
  else .error (.keyring (field ++ ": unknown status '".toList ++ s ++
    "' (expected pending|trusted|revoked)".toList))

def parseChannelMode (field s : Str) : Except E2eError ChannelMode :=
  if s = "auto-accept".toList ∨ s = "auto".toList then .ok .autoAccept
  else if s = "normal".toList then .ok .normal
  else if s = "quiet".toList then .ok .quiet
  else .error (.keyring (field ++ ": unknown mode '".toList ++ s ++
    "' (expected auto-accept|normal|quiet)".toList))

/-- The name an error gives to a field of a row. -/
def rowField (table : Str) (idx : Nat) (field : Str) : Str :=
  table ++ '[' :: natText idx ++ "].".toList ++ field

def PortableIdentity.validate (identity : PortableIdentity) : Except E2eError StoredIdentity := do
  let pubkey ← parseHexArray P 32 "identity.pubkey".toList identity.pubkey
  let privkey ← parseSecretArray J 32 "identity.privkey".toList identity.privkey
  let fingerprint ← parseHexArray P 16 "identity.fingerprint".toList identity.fingerprint
  return ⟨pubkey, privkey, fingerprint, identity.createdAt⟩

def PortablePeer.validate (row : PortablePeer × Nat) : Except E2eError PeerRecord := do
  let (p, idx) := row
  let field := rowField "peers".toList idx
  let fingerprint ← parseHexArray P 16 (field "fingerprint".toList) p.fingerprint
  let pubkey ← parseHexArray P 32 (field "pubkey".toList) p.pubkey
  let globalStatus ← parseTrustStatus (field "globalStatus".toList) p.globalStatus
  return ⟨fingerprint, pubkey, p.lastHandle, p.lastNick, p.firstSeen, p.lastSeen, globalStatus⟩

def PortableIncoming.validate (row : PortableIncoming × Nat) : Except E2eError IncomingSession := do
  let (s, idx) := row
  let field := rowField "incomingSessions".toList idx
  let fingerprint ← parseHexArray P 16 (field "fingerprint".toList) s.fingerprint
  let sk ← parseSecretArray J 32 (field "sk".toList) s.sk
  let status ← parseTrustStatus (field "status".toList) s.status
  return ⟨s.handle, s.channel, fingerprint, sk, status, s.createdAt⟩

def PortableOutgoing.validate (row : PortableOutgoing × Nat) : Except E2eError OutgoingSession := do
  let (o, idx) := row
  let sk ← parseSecretArray J 32 (rowField "outgoingSessions".toList idx "sk".toList) o.sk
  return ⟨o.channel, sk, o.createdAt, o.pendingRotation⟩

def PortableChannel.validate (row : PortableChannel × Nat) : Except E2eError ChannelConfig := do
  let (c, idx) := row
  let mode ← parseChannelMode (rowField "channels".toList idx "mode".toList) c.mode
  return ⟨c.channel, c.enabled, mode⟩

def PortableAutotrust.rule (a : PortableAutotrust) : AutotrustRule := ⟨a.scope, a.handlePattern⟩

def checkThat (c : Bool) (text : Str) : Except E2eError Unit :=
  if c then .ok () else .error (.keyring text)

def checkPeer (row : PeerRecord × Nat) : Except E2eError Unit :=
  checkThat (fingerprint P row.1.pubkey = row.1.fingerprint)
    ("peers[".toList ++ natText row.2 ++ "].fingerprint does not match pubkey".toList)

def validateFields (doc : Portable) : Except E2eError Validated := do
  let identity ← doc.identity.validate P J
  let peers ← doc.peers.zipIdx.mapM (PortablePeer.validate P)
  let incoming ← doc.incomingSessions.zipIdx.mapM (PortableIncoming.validate P J)
  let outgoing ← doc.outgoingSessions.zipIdx.mapM (PortableOutgoing.validate J)
  let channels ← doc.channels.zipIdx.mapM PortableChannel.validate
  return ⟨identity, peers, incoming, outgoing, channels,
    doc.autotrust.map fun a => (a.rule, doc.exportedAt)⟩

def validateKeys (v : Validated) : Except E2eError Unit := do
  checkThat (P.verifyingKey v.identity.privkey = v.identity.pubkey)
    "identity.pubkey does not match identity.privkey".toList
  checkThat (fingerprint P v.identity.pubkey = v.identity.fingerprint)
    "identity.fingerprint does not match identity.pubkey".toList
  v.peers.zipIdx.forM (checkPeer P)

/-- Every field is decoded before the keys are compared, and nothing is written on the way. -/
def validate (doc : Portable) : Except E2eError Validated := do
  checkThat (doc.version = exportVersion) ("unsupported export version: got ".toList ++
    natText doc.version ++ ", expected ".toList ++ natText exportVersion)
  let validated ← validateFields P J doc
  validateKeys P validated
  return validated

end Validation

section Import

variable (P : Platform) (A : Aes256Gcm) (J : Json) (secretKey : Option SecretKey)

def insertIdentity (identity : StoredIdentity) : Sql Unit := do
  let privkey ← encodeSecret P A secretKey identity.privkey
  insertInto Database.identityTable
    ⟨identity.pubkey, privkey, identity.fingerprint, identity.createdAt⟩

def insertPeer (rec : PeerRecord) : Sql Unit :=
  insertInto Database.peersTable ⟨rec.fingerprint, rec.pubkey, rec.lastHandle, rec.lastNick,
    rec.firstSeen, rec.lastSeen, rec.globalStatus.asStr⟩

def insertIncoming (sess : IncomingSession) : Sql Unit := do
  let sk ← encodeSecret P A secretKey sess.sk
  insertInto Database.incomingTable
    ⟨sess.handle, sess.channel, sess.fingerprint, sk, sess.status.asStr, sess.createdAt, none, none⟩

def insertOutgoing (sess : OutgoingSession) : Sql Unit := do
  let sk ← encodeSecret P A secretKey sess.sk
  insertInto Database.outgoingTable
    ⟨sess.channel, sk, sess.createdAt, boolColumn sess.pendingRotation⟩

def insertChannelConfig (cfg : ChannelConfig) : Sql Unit :=
  insertInto Database.channelConfigTable ⟨cfg.channel, boolColumn cfg.enabled, cfg.mode.asStr⟩

def insertAutotrust (rule : AutotrustRule × Int) : Sql Unit :=
  insertInto Database.autotrustTable ⟨rule.1.scope, rule.1.handlePattern, rule.2⟩

def deleteAllForImport : Sql Unit := do
  deleteFrom Database.recipientsTable
  deleteFrom Database.autotrustTable
  deleteFrom Database.channelConfigTable
  deleteFrom Database.outgoingTable
  deleteFrom Database.incomingTable
  deleteFrom Database.peersTable
  deleteFrom Database.dmHandleCacheTable
  deleteFrom Database.identityTable

def insertAllForImport (v : Validated) : Sql Unit := do
  insertIdentity P A secretKey v.identity
  Prog.each insertPeer v.peers
  Prog.each (insertIncoming P A secretKey) v.incoming
  Prog.each (insertOutgoing P A secretKey) v.outgoing
  Prog.each insertChannelConfig v.channels
  Prog.each insertAutotrust v.autotrust

def replaceAllForImport (v : Validated) : Sql Unit := transaction do
  deleteAllForImport
  insertAllForImport P A secretKey v

def parseJson (raw : Bytes) : Except E2eError Portable :=
  (J.fromSlice raw).mapError fun e => .keyring ("parse json: ".toList ++ e)

/-- The file is what opening and reading it gives. With the counts comes the seed of the identity
the manager is to run under. -/
def importWithIdentity (file : Except E2eError Bytes) : Sql (ImportSummary × Bytes) := do
  let raw ← Prog.lift file
  let doc ← Prog.lift (parseJson J raw)
  let validated ← Prog.lift (validate P J doc)
  replaceAllForImport P A secretKey validated
  return (⟨true, validated.peers.length, validated.incoming.length, validated.outgoing.length,
    validated.channels.length, validated.autotrust.length⟩, validated.identity.privkey)

/-- The running client: the seed its manager signs with, over the database. -/
structure Client where
  identity : Bytes
  connection : Connection

/-- The command installs a manager of the imported identity; after an error the old one stays. -/
def e2eImport (file : Except E2eError Bytes) (client : Client) :
    Except E2eError ImportSummary × Client :=
  match importWithIdentity P A J secretKey file client.connection with
  | (.ok (summary, identity), connection) => (.ok summary, ⟨identity, connection⟩)
  | (.error e, connection) => (.error e, { client with connection := connection })

end Import

end Repartee.E2e
