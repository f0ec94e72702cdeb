import Repartee.Lib.Prog
import Repartee.E2e.Keyring

/-!
The keyring as the database stores it: rows of blobs and texts, secrets encrypted at rest, and
the statements that read and write them.
-/

namespace Repartee.E2e

open Text Lib

section Columns

/-- How a table of SQLite rows spells a status and a mode. -/
def TrustStatus.asStr : TrustStatus → Str
  | .pending => "pending".toList
  | .trusted => "trusted".toList
  | .revoked => "revoked".toList

def TrustStatus.parse (s : Str) : TrustStatus :=
  if s = "trusted".toList then .trusted
  else if s = "revoked".toList then .revoked
  else .pending

def ChannelMode.asStr : ChannelMode → Str
  | .autoAccept => "auto-accept".toList
  | .normal => "normal".toList
  | .quiet => "quiet".toList

def ChannelMode.parse (s : Str) : ChannelMode :=
  if s = "auto-accept".toList ∨ s = "auto".toList then .autoAccept
  else if s = "quiet".toList then .quiet
  else .normal

@[simp] theorem TrustStatus.parse_asStr (status : TrustStatus) : parse status.asStr = status := by
  cases status <;> decide

@[simp] theorem ChannelMode.parse_asStr (mode : ChannelMode) : parse mode.asStr = mode := by
  cases mode <;> decide

def boolColumn (flag : Bool) : Int := if flag then 1 else 0

@[simp] theorem boolColumn_ne_zero (flag : Bool) : decide (boolColumn flag ≠ 0) = flag := by
  cases flag <;> rfl

end Columns

structure IdentityRow where
  pubkey : Bytes
  privkey : Bytes
  fingerprint : Bytes
  createdAt : Int
  deriving DecidableEq

/-- The table holds one row at most, the one of id 1. -/
def IdentityRow.id (_ : IdentityRow) : Nat := 1

structure PeerRow where
  fingerprint : Bytes
  pubkey : Bytes
  lastHandle : Option Str
  lastNick : Option Str
  firstSeen : Int
  lastSeen : Int
  globalStatus : Str
  deriving DecidableEq

structure IncomingSessionRow where
  handle : Str
  channel : Str
  fingerprint : Bytes
  sk : Bytes
  status : Str
  createdAt : Int
  prevSk : Option Bytes
  prevCreatedAt : Option Int
  deriving DecidableEq

def IncomingSessionRow.key (row : IncomingSessionRow) : Str × Str := (row.handle, row.channel)

structure OutgoingSessionRow where
  channel : Str
  sk : Bytes
  createdAt : Int
  pendingRotation : Int
  deriving DecidableEq

structure ChannelConfigRow where
  channel : Str
  enabled : Int
  mode : Str
  deriving DecidableEq

structure AutotrustRow where
  scope : Str
  handlePattern : Str
  createdAt : Int
  deriving DecidableEq

def AutotrustRow.key (row : AutotrustRow) : Str × Str := (row.scope, row.handlePattern)

structure Database where
  identity : Table IdentityRow.id
  peers : Table PeerRow.fingerprint
  incoming : Table IncomingSessionRow.key
  outgoing : Table OutgoingSessionRow.channel
  channelConfig : Table ChannelConfigRow.channel
  autotrust : Table AutotrustRow.key
  recipients : Table OutgoingRecipient.key
  dmHandleCache : Table DmHandle.key
  seenRekeys : Table (id : SeenRekey → SeenRekey)

/-- A table of the database, with the columns SQLite names when a row's key is taken. -/
structure Relation {α κ : Type} (key : α → κ) where
  columns : Str
  get : Database → Table key
  set : Table key → Database → Database
  get_set : ∀ table db, get (set table db) = table
  set_get : ∀ db, set (get db) db = db
  set_set : ∀ first second db, set second (set first db) = set second db

namespace Database

def empty : Database :=
  ⟨.empty, .empty, .empty, .empty, .empty, .empty, .empty, .empty, .empty⟩

def identityTable : Relation IdentityRow.id where
  columns := "e2e_identity.id".toList
  get := identity
  set table db := { db with identity := table }
  get_set _ _ := rfl
  set_get _ := rfl
  set_set _ _ _ := rfl

def peersTable : Relation PeerRow.fingerprint where
  columns := "e2e_peers.fingerprint".toList
  get := peers
  set table db := { db with peers := table }
  get_set _ _ := rfl
  set_get _ := rfl
  set_set _ _ _ := rfl

def incomingTable : Relation IncomingSessionRow.key where
  columns := "e2e_incoming_sessions.handle, e2e_incoming_sessions.channel".toList
  get := incoming
  set table db := { db with incoming := table }
  get_set _ _ := rfl
  set_get _ := rfl
  set_set _ _ _ := rfl

def outgoingTable : Relation OutgoingSessionRow.channel where
  columns := "e2e_outgoing_sessions.channel".toList
  get := outgoing
  set table db := { db with outgoing := table }
  get_set _ _ := rfl
  set_get _ := rfl
  set_set _ _ _ := rfl

def channelConfigTable : Relation ChannelConfigRow.channel where
  columns := "e2e_channel_config.channel".toList
  get := channelConfig
  set table db := { db with channelConfig := table }
  get_set _ _ := rfl
  set_get _ := rfl
  set_set _ _ _ := rfl

def autotrustTable : Relation AutotrustRow.key where
  columns := "e2e_autotrust.scope, e2e_autotrust.handle_pattern".toList
  get := autotrust
  set table db := { db with autotrust := table }
  get_set _ _ := rfl
  set_get _ := rfl
  set_set _ _ _ := rfl

def recipientsTable : Relation OutgoingRecipient.key where
  columns := "e2e_outgoing_recipients.channel, e2e_outgoing_recipients.handle".toList
  get := recipients
  set table db := { db with recipients := table }
  get_set _ _ := rfl
  set_get _ := rfl
  set_set _ _ _ := rfl

def dmHandleCacheTable : Relation DmHandle.key where
  columns := "e2e_dm_handle_cache.network, e2e_dm_handle_cache.nick".toList
  get := dmHandleCache
  set table db := { db with dmHandleCache := table }
  get_set _ _ := rfl
  set_get _ := rfl
  set_set _ _ _ := rfl

end Database

section Secrets

/-- The cipher of the secrets at rest. -/
structure Aes256Gcm where
  /-- Key, nonce and plaintext. -/
  encrypt : Bytes → Bytes → Bytes → Except Str Bytes
  /-- Key, nonce and ciphertext. -/
  decrypt : Bytes → Bytes → Bytes → Except Str Bytes

/-- The key of the secrets at rest; a keyring without one stores them as they are. -/
abbrev SecretKey : Type := { key : Bytes // key.length = 32 }

def secretBlobVersion : UInt8 := 1

variable (A : Aes256Gcm)

def encryptBytes (iv plaintext : Bytes) (key : SecretKey) : Except Str Bytes :=
  match A.encrypt key.val iv plaintext with
  | .ok ciphertext => .ok (secretBlobVersion :: (iv ++ ciphertext))
  | .error e => .error ("encryption failed: ".toList ++ e)

def decryptBytes (ciphertext : Bytes) (key : SecretKey) : Except Str Bytes :=
  if ciphertext.length < 13 then .error "ciphertext too short".toList
  else
    let version := ciphertext.headD 0
    if version ≠ secretBlobVersion then
      .error ("unsupported secret blob version ".toList ++ natText version.toNat)
    else
      (A.decrypt key.val ((ciphertext.drop 1).take 12) (ciphertext.drop 13)).mapError
        ("decryption failed: ".toList ++ ·)

/-- A blob of the plain length is taken to be a secret stored before there was a key. -/
def openSecret (secretKey : Option SecretKey) (length : Nat) (bytes : Bytes) :
    Except E2eError Bytes :=
  match secretKey with
  | some key =>
      if bytes.length ≠ length then (decryptBytes A bytes key).mapError .keyring else .ok bytes
  | none => .ok bytes

def decodeSecret (secretKey : Option SecretKey) (length : Nat) (bytes : Bytes) (field : Str) :
    Except E2eError Bytes := do
  let decoded ← openSecret A secretKey length bytes
  if decoded.length ≠ length then
    .error (.keyring (field ++ " has unexpected length ".toList ++ natText decoded.length))
  else .ok decoded

theorem decodeSecret_length (secretKey : Option SecretKey) (length : Nat) (bytes secret : Bytes)
    (name : Str) (decoded : decodeSecret A secretKey length bytes name = .ok secret) :
    secret.length = length := by
  obtain ⟨text, -, checked⟩ := (bind_eq_ok _ _ _).mp decoded
  by_cases same : text.length = length
  · rw [if_neg (not_not.mpr same)] at checked
    cases checked
    exact same
  · rw [if_pos same] at checked
    cases checked

end Secrets

/-- An identity as it is loaded, with its secret decoded. -/
structure StoredIdentity where
  pubkey : Bytes
  privkey : Bytes
  fingerprint : Fingerprint
  createdAt : Int
  deriving DecidableEq

section Reads

variable (A : Aes256Gcm) (secretKey : Option SecretKey)

def IdentityRow.decode (row : IdentityRow) : Except E2eError StoredIdentity :=
  if row.pubkey.length ≠ 32 ∨ row.fingerprint.length ≠ 16 then
    .error (.keyring ("e2e_identity row has unexpected blob lengths (pk=".toList ++
      natText row.pubkey.length ++ ", fp=".toList ++ natText row.fingerprint.length ++ [')']))
  else do
    let privkey ← decodeSecret A secretKey 32 row.privkey "e2e_identity privkey".toList
    return ⟨row.pubkey, privkey, row.fingerprint, row.createdAt⟩

def PeerRow.decode (row : PeerRow) : Except E2eError PeerRecord :=
  if row.fingerprint.length ≠ 16 ∨ row.pubkey.length ≠ 32 then
    .error (.keyring ("e2e_peers row has unexpected blob lengths (fp=".toList ++
      natText row.fingerprint.length ++ ", pk=".toList ++ natText row.pubkey.length ++ [')']))
  else
    .ok ⟨row.fingerprint, row.pubkey, row.lastHandle, row.lastNick, row.firstSeen, row.lastSeen,
      TrustStatus.parse row.globalStatus⟩

def IncomingSessionRow.decode (row : IncomingSessionRow) : Except E2eError IncomingSession :=
  if row.fingerprint.length ≠ 16 then
    .error (.keyring ("e2e_incoming_sessions row has unexpected blob lengths (fp=".toList ++
      natText row.fingerprint.length ++ [')']))
  else do
    let sk ← decodeSecret A secretKey 32 row.sk "e2e_incoming_sessions sk".toList
    return ⟨row.handle, row.channel, row.fingerprint, sk, TrustStatus.parse row.status,
      row.createdAt⟩

def OutgoingSessionRow.decode (row : OutgoingSessionRow) : Except E2eError OutgoingSession := do
  let sk ← decodeSecret A secretKey 32 row.sk "e2e_outgoing_sessions sk".toList
  return ⟨row.channel, sk, row.createdAt, decide (row.pendingRotation ≠ 0)⟩

def ChannelConfigRow.decode (row : ChannelConfigRow) : Except E2eError ChannelConfig :=
  .ok ⟨row.channel, decide (row.enabled ≠ 0), ChannelMode.parse row.mode⟩

def AutotrustRow.decode (row : AutotrustRow) : Except E2eError AutotrustRule :=
  .ok ⟨row.scope, row.handlePattern⟩

namespace Database

variable (db : Database)

def loadIdentity : Except E2eError (Option StoredIdentity) :=
  match db.identity.find? 1 with
  | none => .ok none
  | some row => (row.decode A secretKey).map some

/-- The rows of a table in the order of a query, decoded one by one. -/
def listRows {α β κ : Type} {key : α → κ} (table : Table key) (before : α → α → Bool)
    (decode : α → Except E2eError β) : Except E2eError (List β) :=
  (table.rows.mergeSort before).mapM decode

def listAllPeers : Except E2eError (List PeerRecord) :=
  listRows db.peers (fun a b => decide (a.firstSeen ≤ b.firstSeen)) PeerRow.decode

def listAllIncomingSessions : Except E2eError (List IncomingSession) :=
  listRows db.incoming
    (fun a b => decide (a.channel < b.channel ∨ (a.channel = b.channel ∧ a.handle ≤ b.handle)))
    (IncomingSessionRow.decode A secretKey)

def listAllOutgoingSessions : Except E2eError (List OutgoingSession) :=
  listRows db.outgoing (fun a b => decide (a.channel ≤ b.channel))
    (OutgoingSessionRow.decode A secretKey)

def listAllChannelConfigs : Except E2eError (List ChannelConfig) :=
  listRows db.channelConfig (fun a b => decide (a.channel ≤ b.channel)) ChannelConfigRow.decode

/-- No order is asked for; the rows come as they were inserted. -/
def listAutotrust : Except E2eError (List AutotrustRule) :=
  listRows db.autotrust (fun _ _ => true) AutotrustRow.decode

end Database

end Reads

/-- The database behind its connection: the random bytes drawn so far number the next draw, and
the statements to come may fail. -/
structure Connection where
  db : Database
  draws : Nat
  /-- The errors of the statements to come; past its end none fails. -/
  faults : List (Option Str)

abbrev Sql (α : Type) : Type := Prog Connection E2eError α

section Statements

variable {α κ : Type} {key : α → κ} [DecidableEq κ]

def statement (f : Database → Except Str Database) : Sql Unit := fun c =>
  let c' := { c with faults := c.faults.tail }
  match c.faults with
  | some text :: _ => (.error (.sqlite text), c')
  | _ => match f c.db with
    | .ok db => (.ok (), { c' with db := db })
    | .error text => (.error (.sqlite text), c')

def deleteFrom (table : Relation key) : Sql Unit := statement fun db => .ok (table.set .empty db)

def insertInto (table : Relation key) (row : α) : Sql Unit := statement fun db =>
  match (table.get db).insert? row with
  | some inserted => .ok (table.set inserted db)
  | none => .error ("UNIQUE constraint failed: ".toList ++ table.columns)

/-- Statements between a begin and a commit; where one fails the transaction is dropped, and the
database is as it was before it. -/
def transaction (body : Sql Unit) : Sql Unit := fun c =>
  let attempt := (do statement .ok; body; statement .ok) c
  match attempt.1 with
  | .ok () => attempt
  | .error e => (.error e, { attempt.2 with db := c.db })

variable (P : Platform) (A : Aes256Gcm) (secretKey : Option SecretKey)

def encodeSecret (bytes : Bytes) : Sql Bytes :=
  match secretKey with
  | none => pure bytes
  | some key => do
      let iv ← Prog.update fun c => (P.random c.draws 12, { c with draws := c.draws + 1 })
      Prog.lift ((encryptBytes A iv bytes key).mapError .keyring)

end Statements

end Repartee.E2e
