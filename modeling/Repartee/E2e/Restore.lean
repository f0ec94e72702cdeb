import Repartee.Lib.Decode
import Repartee.Fields
import Repartee.E2e.Portable
import Repartee.E2e.Symbolic

/-!
An import puts the exported keyring in the place of the stored one, or leaves it as it was: what
the statements of the transaction reach, and what the document carries from one to the other.
-/

namespace Repartee.E2e

open Text Lib

/-- What the code relies on in the crates: a draw has the length asked for, a sealed secret opens
under its key, sixteen bytes longer, and JSON is read back as it was written. -/
structure FaithfulStorage (P : Platform) (A : Aes256Gcm) (J : Json) : Prop where
  random : ∀ n length, (P.random n length).length = length
  opens : ∀ key nonce secret : Bytes, key.length = 32 → nonce.length = 12 → secret.length = 32 →
    ∃ ciphertext, A.encrypt key nonce secret = .ok ciphertext ∧
      ciphertext.length = secret.length + 16 ∧ A.decrypt key nonce ciphertext = .ok secret
  reads : ∀ doc json, J.toVecPretty doc = .ok json → J.fromSlice json = .ok doc

/-- No statement to come fails. -/
def Connection.Quiet (c : Connection) : Prop := ∀ fault ∈ c.faults, fault = none

/-- The program ends as stated when it ends well, and it fails only where a statement does or the
data is not clean. -/
def Lands (clean : Prop) (c : Connection) (m : Sql α) (Post : α → Database → Prop) : Prop :=
  Prog.After c m (fun a c' => (c.Quiet → c'.Quiet) ∧ Post a c'.db) fun _ _ => ¬(clean ∧ c.Quiet)

section Rules

variable {α β κ : Type} {clean : Prop} {c : Connection}

theorem Lands.mono {m : Sql α} {Post Post' : α → Database → Prop} (before : Lands clean c m Post)
    (result : ∀ a db, Post a db → Post' a db) : Lands clean c m Post' :=
  Prog.After.mono before (fun a c' stop => ⟨stop.1, result a c'.db stop.2⟩) fun _ _ stop => stop

theorem Lands.bind {m : Sql β} {f : β → Sql α} {Mid : β → Database → Prop}
    {Post : α → Database → Prop} (first : Lands clean c m Mid)
    (rest : ∀ b c', Mid b c'.db → Lands clean c' (f b) Post) : Lands clean c (m >>= f) Post := by
  apply (Prog.after_bind m f).mpr
  apply Prog.After.mono first
  · intro b c' stop
    apply Prog.After.mono (rest b c' stop.2)
    · intro a c'' later
      exact ⟨fun quiet => later.1 (stop.1 quiet), later.2⟩
    · intro e c'' failed both
      exact failed ⟨both.1, stop.1 both.2⟩
  · intro e c' failed
    exact failed

theorem lands_statement (f : Database → Except Str Database) {Post : Unit → Database → Prop}
    (result : ∀ db, f c.db = .ok db → Post () db) (answers : clean → ∃ db, f c.db = .ok db) :
    Lands clean c (statement f) Post := by
  have rest (fault : Option Str) (member : fault ∈ c.faults.tail) : fault ∈ c.faults :=
    List.mem_of_mem_tail member
  unfold Lands Prog.After statement
  split
  · rename_i ran
    dsimp only at ran
    split at ran
    · cases ran
    · split at ran
      · rename_i db stored
        cases ran
        exact ⟨fun quiet fault member => quiet fault (rest fault member), result db stored⟩
      · cases ran
  · rename_i ran
    dsimp only at ran
    split at ran
    · rename_i scheduled
      intro both
      have none := both.2 _ (by rw [scheduled]; exact List.mem_cons_self)
      cases none
    · split at ran
      · cases ran
      · rename_i refused
        intro both
        obtain ⟨db, stored⟩ := answers both.1
        rw [refused] at stored
        cases stored

variable {key : α → κ}

theorem lands_deleteFrom (table : Relation key) :
    Lands clean c (deleteFrom table) fun _ db => db = table.set .empty c.db :=
  lands_statement _ (fun _ stored => (Except.ok.inj stored).symm) fun _ => ⟨_, rfl⟩

variable [DecidableEq κ]

/-- The database with the row added to the table. -/
def Adds (table : Relation key) (row : α) (before after : Database) : Prop :=
  ∃ rows, after = table.set rows before ∧ rows.rows = (table.get before).rows ++ [row]

theorem lands_insertInto (table : Relation key) (row : α)
    (absent : clean → ∀ x ∈ (table.get c.db).rows, key x ≠ key row) :
    Lands clean c (insertInto table row) fun _ db => Adds table row c.db db := by
  apply lands_statement
  · intro db stored
    unfold Table.insert? at stored
    split at stored
    · rename_i rows inserted
      split at inserted
      · cases Option.some.inj inserted
        exact ⟨_, (Except.ok.inj stored).symm, rfl⟩
      · cases inserted
    · cases stored
  · intro holds
    have free : (table.get c.db).insert? row = some ⟨(table.get c.db).rows ++ [row],
        Table.appended_unique _ row (absent holds)⟩ := dif_pos (absent holds)
    rw [free]
    exact ⟨_, rfl⟩

/-- The table holds rows that decode, one by one, to the given data; the rest of the database is
as it was. -/
def Holds (table : Relation key) (decode : α → Except E2eError β) (items : List β)
    (base db : Database) : Prop :=
  ∃ rows, db = table.set rows base ∧
    List.Forall₂ (fun row item => decode row = .ok item) rows.rows items

omit [DecidableEq κ] in
theorem Holds.snoc (table : Relation key) (decode : α → Except E2eError β) (items : List β)
    (item : β) (row : α) (base db db' : Database) (held : Holds table decode items base db)
    (added : Adds table row db db') (decoded : decode row = .ok item) :
    Holds table decode (items ++ [item]) base db' := by
  obtain ⟨rows, rfl, each⟩ := held
  obtain ⟨more, rfl, appended⟩ := added
  rw [table.get_set] at appended
  refine ⟨more, table.set_set _ _ _, ?_⟩
  rw [appended]
  exact List.rel_append each (List.Forall₂.cons decoded List.Forall₂.nil)

omit [DecidableEq κ] in
/-- A loop of inserts fills an empty table with rows that decode to the items. -/
theorem lands_insertEach (table : Relation key) (decode : α → Except E2eError β) (keyOf : β → κ)
    (keeps : ∀ row item, decode row = .ok item → key row = keyOf item) (insert : β → Sql Unit)
    (items : List β)
    (inserts : ∀ item ∈ items, ∀ c' : Connection,
      (clean → ∀ x ∈ (table.get c'.db).rows, key x ≠ keyOf item) →
        Lands clean c' (insert item) fun _ db =>
          ∃ row, decode row = .ok item ∧ Adds table row c'.db db)
    (distinct : clean → (items.map keyOf).Nodup) (fresh : (table.get c.db).rows = []) :
    Lands clean c (Prog.each insert items) fun _ db => Holds table decode items c.db db := by
  have loop (done rest : List β) (base : Database) (c' : Connection) (whole : done ++ rest = items)
      (held : Holds table decode done base c'.db) :
      Lands clean c' (Prog.each insert rest) fun _ db => Holds table decode items base db := by
    induction rest generalizing done c' with
    | nil =>
        rw [List.append_nil] at whole
        subst whole
        exact ⟨fun quiet => quiet, held⟩
    | cons item rest ih =>
        have member : item ∈ items := by simp [← whole]
        have absent : clean → ∀ x ∈ (table.get c'.db).rows, key x ≠ keyOf item := by
          intro holds x inside same
          obtain ⟨rows, stored, each⟩ := held
          rw [stored, table.get_set] at inside
          have names := keys_of_decoded decode key keyOf keeps rows.rows done each
          have apart := distinct holds
          rw [← whole, List.map_append, List.map_cons, names] at apart
          have clash := List.disjoint_of_nodup_append apart (List.mem_map_of_mem inside)
          exact clash (by rw [same]; exact List.mem_cons_self)
        apply (inserts item member c' absent).bind
        intro _ c'' added
        obtain ⟨row, decoded, stored⟩ := added
        exact ih (done ++ [item]) c'' (by simpa using whole)
          (held.snoc table decode done item row base _ _ stored decoded)
  apply loop [] items c.db c rfl
  refine ⟨table.get c.db, (table.set_get c.db).symm, ?_⟩
  rw [fresh]
  exact List.Forall₂.nil

end Rules

section Inserts

variable {P : Platform} {A : Aes256Gcm} {J : Json} {clean : Prop} {c : Connection}
variable (storage : FaithfulStorage P A J) (secretKey : Option SecretKey)

theorem decodeSecret_plain (secretKey : Option SecretKey) (length : Nat) (secret : Bytes)
    (field : Str) (sized : secret.length = length) :
    decodeSecret A secretKey length secret field = .ok secret := by
  have opened : openSecret A secretKey length secret = .ok secret := by
    cases secretKey with
    | none => rfl
    | some key => exact if_neg (not_not.mpr sized)
  rw [decodeSecret, opened]
  exact if_neg (not_not.mpr sized)

include storage

theorem decodeSecret_encryptBytes (key : SecretKey) (iv secret : Bytes) (field : Str)
    (nonce : iv.length = 12) (sized : secret.length = 32) :
    ∃ stored, encryptBytes A iv secret key = .ok stored ∧
      decodeSecret A (some key) 32 stored field = .ok secret := by
  obtain ⟨ciphertext, sealed, longer, opened⟩ := storage.opens key.val iv secret key.property nonce sized
  refine ⟨secretBlobVersion :: (iv ++ ciphertext), by rw [encryptBytes, sealed], ?_⟩
  have blob : (secretBlobVersion :: (iv ++ ciphertext)).length = 61 := by
    rw [List.length_cons, List.length_append, nonce, longer, sized]
  have front : ((secretBlobVersion :: (iv ++ ciphertext)).drop 1).take 12 = iv := by
    rw [List.drop_one, List.tail_cons, ← nonce, List.take_left]
  have back : (secretBlobVersion :: (iv ++ ciphertext)).drop 13 = ciphertext := by
    rw [List.drop_succ_cons, ← nonce, List.drop_left]
  have decrypted : decryptBytes A (secretBlobVersion :: (iv ++ ciphertext)) key = .ok secret := by
    rw [decryptBytes, if_neg (by rw [blob]; omega), if_neg (by simp), front, back, opened]
    rfl
  rw [decodeSecret, openSecret, if_pos (by rw [blob]; omega), decrypted]
  exact if_neg (not_not.mpr sized)

theorem lands_encodeSecret (secret : Bytes) (sized : secret.length = 32) :
    Lands clean c (encodeSecret P A secretKey secret) fun stored db =>
      db = c.db ∧ ∀ field, decodeSecret A secretKey 32 stored field = .ok secret := by
  cases secretKey with
  | none => exact ⟨fun quiet => quiet, rfl, fun field => decodeSecret_plain none 32 secret field sized⟩
  | some key =>
      obtain ⟨stored, encrypted, -⟩ := decodeSecret_encryptBytes storage key (P.random c.draws 12)
        secret [] (storage.random _ _) sized
      have ran : encodeSecret P A (some key) secret c =
          (.ok stored, { c with draws := c.draws + 1 }) := by
        show Prog.lift ((encryptBytes A (P.random c.draws 12) secret key).mapError E2eError.keyring) _ = _
        rw [encrypted]
        rfl
      unfold Lands Prog.After
      rw [ran]
      refine ⟨fun quiet => quiet, rfl, fun field => ?_⟩
      obtain ⟨stored', encrypted', decoded⟩ := decodeSecret_encryptBytes storage key
        (P.random c.draws 12) secret field (storage.random _ _) sized
      rw [encrypted] at encrypted'
      cases encrypted'
      exact decoded

theorem lands_insertIdentity (identity : StoredIdentity) (pubkey : identity.pubkey.length = 32)
    (privkey : identity.privkey.length = 32) (fp : identity.fingerprint.length = 16)
    (fresh : c.db.identity.rows = []) :
    Lands clean c (insertIdentity P A secretKey identity) fun _ db =>
      Holds Database.identityTable (IdentityRow.decode A secretKey) [identity] c.db db := by
  apply (lands_encodeSecret storage secretKey identity.privkey privkey).bind
  intro stored c' opens
  obtain ⟨same, opens⟩ := opens
  let row : IdentityRow := ⟨identity.pubkey, stored, identity.fingerprint, identity.createdAt⟩
  have absent (_ : clean) : ∀ x ∈ (Database.identityTable.get c'.db).rows, x.id ≠ row.id := by
    intro x member
    have nothing : (Database.identityTable.get c'.db).rows = [] := by rw [same]; exact fresh
    rw [nothing] at member
    cases member
  apply (lands_insertInto Database.identityTable row absent).mono
  intro _ db added
  have decoded : row.decode A secretKey = .ok identity := by
    rw [IdentityRow.decode, if_neg (by simp [row, pubkey, fp]), opens]
    rfl
  rw [same] at added
  apply Holds.snoc Database.identityTable (IdentityRow.decode A secretKey) [] identity row c.db c.db db
  · exact ⟨c.db.identity, rfl, by rw [fresh]; exact List.Forall₂.nil⟩
  · exact added
  · exact decoded

theorem lands_insertIncoming (sess : IncomingSession) (fp : sess.fingerprint.length = 16)
    (sk : sess.sk.length = 32)
    (absent : clean → ∀ x ∈ c.db.incoming.rows, x.key ≠ (sess.handle, sess.channel)) :
    Lands clean c (insertIncoming P A secretKey sess) fun _ db => ∃ row,
      IncomingSessionRow.decode A secretKey row = .ok sess ∧
        Adds Database.incomingTable row c.db db := by
  apply (lands_encodeSecret storage secretKey sess.sk sk).bind
  intro stored c' opens
  obtain ⟨same, opens⟩ := opens
  rw [← same] at absent ⊢
  apply (lands_insertInto Database.incomingTable _ absent).mono
  intro _ db added
  refine ⟨_, ?_, added⟩
  rw [IncomingSessionRow.decode, if_neg (not_not.mpr fp), opens, TrustStatus.parse_asStr]
  rfl

theorem lands_insertOutgoing (sess : OutgoingSession) (sk : sess.sk.length = 32)
    (absent : clean → ∀ x ∈ c.db.outgoing.rows, x.channel ≠ sess.channel) :
    Lands clean c (insertOutgoing P A secretKey sess) fun _ db => ∃ row,
      OutgoingSessionRow.decode A secretKey row = .ok sess ∧
        Adds Database.outgoingTable row c.db db := by
  apply (lands_encodeSecret storage secretKey sess.sk sk).bind
  intro stored c' opens
  obtain ⟨same, opens⟩ := opens
  rw [← same] at absent ⊢
  apply (lands_insertInto Database.outgoingTable _ absent).mono
  intro _ db added
  refine ⟨_, ?_, added⟩
  rw [OutgoingSessionRow.decode, opens, boolColumn_ne_zero]
  rfl

omit storage

theorem lands_insertPeer (rec : PeerRecord) (fp : rec.fingerprint.length = 16)
    (pubkey : rec.pubkey.length = 32)
    (absent : clean → ∀ x ∈ c.db.peers.rows, x.fingerprint ≠ rec.fingerprint) :
    Lands clean c (insertPeer rec) fun _ db => ∃ row,
      PeerRow.decode row = .ok rec ∧ Adds Database.peersTable row c.db db := by
  apply (lands_insertInto Database.peersTable _ absent).mono
  intro _ db added
  refine ⟨_, ?_, added⟩
  rw [PeerRow.decode, if_neg (by simp [fp, pubkey]), TrustStatus.parse_asStr]

theorem lands_insertChannelConfig (cfg : ChannelConfig)
    (absent : clean → ∀ x ∈ c.db.channelConfig.rows, x.channel ≠ cfg.channel) :
    Lands clean c (insertChannelConfig cfg) fun _ db => ∃ row,
      ChannelConfigRow.decode row = .ok cfg ∧ Adds Database.channelConfigTable row c.db db := by
  apply (lands_insertInto Database.channelConfigTable _ absent).mono
  intro _ db added
  refine ⟨_, ?_, added⟩
  rw [ChannelConfigRow.decode, boolColumn_ne_zero, ChannelMode.parse_asStr]

/-- A stored rule with its time. -/
def AutotrustRow.withTime (row : AutotrustRow) : Except E2eError (AutotrustRule × Int) :=
  row.decode.map fun rule => (rule, row.createdAt)

theorem lands_insertAutotrust (rule : AutotrustRule × Int)
    (absent : clean → ∀ x ∈ c.db.autotrust.rows, x.key ≠ rule.1.key) :
    Lands clean c (insertAutotrust rule) fun _ db => ∃ row,
      AutotrustRow.withTime row = .ok rule ∧ Adds Database.autotrustTable row c.db db := by
  apply (lands_insertInto Database.autotrustTable _ absent).mono
  intro _ db added
  exact ⟨_, rfl, added⟩

end Inserts

section Transaction

/-- No two rows of the document are to be stored under one key. -/
structure Validated.Distinct (v : Validated) : Prop where
  peers : (v.peers.map PeerRecord.fingerprint).Nodup
  incoming : (v.incoming.map fun s => (s.handle, s.channel)).Nodup
  outgoing : (v.outgoing.map OutgoingSession.channel).Nodup
  channels : (v.channels.map ChannelConfig.channel).Nodup
  autotrust : (v.autotrust.map fun rule => rule.1.key).Nodup

/-- The blobs have the lengths of their types. -/
structure Validated.Sized (v : Validated) : Prop where
  pubkey : v.identity.pubkey.length = 32
  privkey : v.identity.privkey.length = 32
  fingerprint : v.identity.fingerprint.length = 16
  peers : ∀ rec ∈ v.peers, rec.fingerprint.length = 16 ∧ rec.pubkey.length = 32
  incoming : ∀ sess ∈ v.incoming, sess.fingerprint.length = 16 ∧ sess.sk.length = 32
  outgoing : ∀ sess ∈ v.outgoing, sess.sk.length = 32

/-- The database holds the validated data and nothing besides, in the tables an import writes. -/
structure Replaced (A : Aes256Gcm) (secretKey : Option SecretKey) (v : Validated) (db : Database) :
    Prop where
  identity : List.Forall₂ (fun row identity => IdentityRow.decode A secretKey row = .ok identity)
    db.identity.rows [v.identity]
  peers : List.Forall₂ (fun row rec => PeerRow.decode row = .ok rec) db.peers.rows v.peers
  incoming : List.Forall₂ (fun row sess => IncomingSessionRow.decode A secretKey row = .ok sess)
    db.incoming.rows v.incoming
  outgoing : List.Forall₂ (fun row sess => OutgoingSessionRow.decode A secretKey row = .ok sess)
    db.outgoing.rows v.outgoing
  channels : List.Forall₂ (fun row cfg => ChannelConfigRow.decode row = .ok cfg)
    db.channelConfig.rows v.channels
  autotrust : List.Forall₂ (fun row rule => AutotrustRow.withTime row = .ok rule)
    db.autotrust.rows v.autotrust
  recipients : db.recipients.rows = []
  dmHandleCache : db.dmHandleCache.rows = []

/-- What a row is stored under is kept by decoding it. -/
theorem PeerRow.decode_key (row : PeerRow) (rec : PeerRecord) (decoded : row.decode = .ok rec) :
    row.fingerprint = rec.fingerprint := by
  unfold PeerRow.decode at decoded
  split at decoded
  · cases decoded
  · cases decoded
    rfl

theorem IncomingSessionRow.decode_key (A : Aes256Gcm) (secretKey : Option SecretKey)
    (row : IncomingSessionRow) (sess : IncomingSession)
    (decoded : row.decode A secretKey = .ok sess) : row.key = (sess.handle, sess.channel) := by
  unfold IncomingSessionRow.decode at decoded
  split at decoded
  · cases decoded
  · obtain ⟨sk, -, same⟩ := (bind_eq_ok _ _ _).mp decoded
    cases same
    rfl

theorem OutgoingSessionRow.decode_key (A : Aes256Gcm) (secretKey : Option SecretKey)
    (row : OutgoingSessionRow) (sess : OutgoingSession)
    (decoded : row.decode A secretKey = .ok sess) : row.channel = sess.channel := by
  obtain ⟨sk, -, same⟩ := (bind_eq_ok _ _ _).mp decoded
  cases same
  rfl

theorem ChannelConfigRow.decode_key (row : ChannelConfigRow) (cfg : ChannelConfig)
    (decoded : row.decode = .ok cfg) : row.channel = cfg.channel := by
  cases decoded
  rfl

theorem AutotrustRow.withTime_key (row : AutotrustRow) (rule : AutotrustRule × Int)
    (decoded : row.withTime = .ok rule) : row.key = rule.1.key := by
  cases decoded
  rfl

variable {P : Platform} {A : Aes256Gcm} {J : Json}
variable (storage : FaithfulStorage P A J) (secretKey : Option SecretKey) (v : Validated)

/-- What the import leaves when everything it writes has been deleted. -/
def Database.Wiped (db : Database) : Prop :=
  db = { Database.empty with seenRekeys := db.seenRekeys }

theorem lands_deleteAllForImport {clean : Prop} (c : Connection) :
    Lands clean c deleteAllForImport fun _ db => db.Wiped := by
  unfold deleteAllForImport
  apply (lands_deleteFrom _).bind
  intro _ c1 recipients
  apply (lands_deleteFrom _).bind
  intro _ c2 autotrust
  apply (lands_deleteFrom _).bind
  intro _ c3 channels
  apply (lands_deleteFrom _).bind
  intro _ c4 outgoing
  apply (lands_deleteFrom _).bind
  intro _ c5 incoming
  apply (lands_deleteFrom _).bind
  intro _ c6 peers
  apply (lands_deleteFrom _).bind
  intro _ c7 dmHandles
  apply (lands_deleteFrom _).mono
  intro _ db identity
  rw [identity, dmHandles, peers, incoming, outgoing, channels, autotrust, recipients]
  rfl

include storage in
theorem lands_insertAllForImport (sized : v.Sized) (c : Connection) (wiped : c.db.Wiped) :
    Lands v.Distinct c (insertAllForImport P A secretKey v) fun _ db =>
      Replaced A secretKey v db := by
  unfold insertAllForImport
  apply (lands_insertIdentity storage secretKey v.identity sized.pubkey sized.privkey
    sized.fingerprint (by rw [wiped]; rfl)).bind
  intro _ c1 identity
  obtain ⟨_, at1, identity⟩ := identity
  apply (lands_insertEach Database.peersTable PeerRow.decode PeerRecord.fingerprint
    PeerRow.decode_key insertPeer v.peers
    (fun rec member c' absent => lands_insertPeer rec (sized.peers rec member).1
      (sized.peers rec member).2 absent)
    (fun distinct => distinct.peers) (by rw [at1, wiped]; rfl)).bind
  intro _ c2 peers
  obtain ⟨_, at2, peers⟩ := peers
  apply (lands_insertEach Database.incomingTable (IncomingSessionRow.decode A secretKey)
    (fun s => (s.handle, s.channel)) (IncomingSessionRow.decode_key A secretKey)
    (insertIncoming P A secretKey) v.incoming
    (fun sess member c' absent => lands_insertIncoming storage secretKey sess
      (sized.incoming sess member).1 (sized.incoming sess member).2 absent)
    (fun distinct => distinct.incoming) (by rw [at2, at1, wiped]; rfl)).bind
  intro _ c3 incoming
  obtain ⟨_, at3, incoming⟩ := incoming
  apply (lands_insertEach Database.outgoingTable (OutgoingSessionRow.decode A secretKey)
    OutgoingSession.channel (OutgoingSessionRow.decode_key A secretKey)
    (insertOutgoing P A secretKey) v.outgoing
    (fun sess member c' absent => lands_insertOutgoing storage secretKey sess
      (sized.outgoing sess member) absent)
    (fun distinct => distinct.outgoing) (by rw [at3, at2, at1, wiped]; rfl)).bind
  intro _ c4 outgoing
  obtain ⟨_, at4, outgoing⟩ := outgoing
  apply (lands_insertEach Database.channelConfigTable ChannelConfigRow.decode ChannelConfig.channel
    ChannelConfigRow.decode_key insertChannelConfig v.channels
    (fun cfg _ c' absent => lands_insertChannelConfig cfg absent)
    (fun distinct => distinct.channels) (by rw [at4, at3, at2, at1, wiped]; rfl)).bind
  intro _ c5 channels
  obtain ⟨_, at5, channels⟩ := channels
  apply (lands_insertEach Database.autotrustTable AutotrustRow.withTime (fun rule => rule.1.key)
    AutotrustRow.withTime_key insertAutotrust v.autotrust
    (fun rule _ c' absent => lands_insertAutotrust rule absent)
    (fun distinct => distinct.autotrust) (by rw [at5, at4, at3, at2, at1, wiped]; rfl)).mono
  intro _ db autotrust
  obtain ⟨_, rfl, autotrust⟩ := autotrust
  rw [at5, at4, at3, at2, at1, wiped]
  exact ⟨identity, peers, incoming, outgoing, channels, autotrust, rfl, rfl⟩

/-- A transaction that fails leaves the database as it was. -/
theorem transaction_error (body : Sql Unit) (c c' : Connection) (e : E2eError)
    (failed : transaction body c = (.error e, c')) : c'.db = c.db := by
  unfold transaction at failed
  dsimp only at failed
  split at failed
  · rename_i ended
    rw [failed] at ended
    cases ended
  · cases failed
    rfl

theorem lands_transaction {clean : Prop} {c : Connection} {body : Sql Unit}
    {Post : Database → Prop} (ran : ∀ c' : Connection, c'.db = c.db →
      Lands clean c' body fun _ db => Post db) :
    Lands clean c (transaction body) fun _ db => Post db := by
  have commits (c' : Connection) :
      Lands clean c' (statement .ok) fun _ db => db = c'.db :=
    lands_statement _ (fun _ same => (Except.ok.inj same).symm) fun _ => ⟨_, rfl⟩
  have attempt : Lands clean c (do statement .ok; body; statement .ok) fun _ db => Post db := by
    apply (commits c).bind
    intro _ c1 begun
    apply (ran c1 begun).bind
    intro _ c2 held
    apply (commits c2).mono
    intro _ db same
    rw [same]
    exact held
  unfold Lands Prog.After at attempt ⊢
  unfold transaction
  dsimp only
  generalize (do statement .ok; body; statement .ok : Sql Unit) c = outcome at attempt ⊢
  obtain ⟨result, c'⟩ := outcome
  cases result with
  | ok a => exact attempt
  | error e => exact attempt

include storage in
theorem lands_replaceAllForImport (sized : v.Sized) (c : Connection) :
    Lands v.Distinct c (replaceAllForImport P A secretKey v) fun _ db =>
      Replaced A secretKey v db := by
  apply lands_transaction
  intro c1 _
  apply (lands_deleteAllForImport c1).bind
  intro _ c2 wiped
  exact lands_insertAllForImport storage secretKey v sized c2 wiped

end Transaction

section Document

/-- The database lists the data: what an export writes down. -/
structure Lists (A : Aes256Gcm) (secretKey : Option SecretKey) (db : Database) (v : Validated) :
    Prop where
  identity : db.loadIdentity A secretKey = .ok (some v.identity)
  peers : db.listAllPeers = .ok v.peers
  incoming : db.listAllIncomingSessions A secretKey = .ok v.incoming
  outgoing : db.listAllOutgoingSessions A secretKey = .ok v.outgoing
  channels : db.listAllChannelConfigs = .ok v.channels
  autotrust : db.listAutotrust = .ok (v.autotrust.map Prod.fst)

def Validated.toPortable (v : Validated) (now : Int) : Portable where
  version := exportVersion
  exportedAt := now
  identity := v.identity.toPortable
  peers := v.peers.map PeerRecord.toPortable
  incomingSessions := v.incoming.map IncomingSession.toPortable
  outgoingSessions := v.outgoing.map OutgoingSession.toPortable
  channels := v.channels.map ChannelConfig.toPortable
  autotrust := (v.autotrust.map Prod.fst).map AutotrustRule.toPortable

/-- The keys are what an import checks them to be. -/
structure Validated.Consistent (P : Platform) (v : Validated) : Prop where
  pubkey : P.verifyingKey v.identity.privkey = v.identity.pubkey
  fingerprint : E2e.fingerprint P v.identity.pubkey = v.identity.fingerprint
  peers : ∀ rec ∈ v.peers, E2e.fingerprint P rec.pubkey = rec.fingerprint

variable {P : Platform} {A : Aes256Gcm} {J : Json} {secretKey : Option SecretKey}

theorem buildPortable_eq_ok (now : Int) (db : Database) (doc : Portable)
    (built : buildPortable A secretKey now db = .ok doc) :
    ∃ v, Lists A secretKey db v ∧ doc = v.toPortable now ∧ ∀ rule ∈ v.autotrust, rule.2 = now := by
  obtain ⟨identity, loaded, built⟩ := (bind_eq_ok _ _ _).mp built
  obtain ⟨peers, atPeers, built⟩ := (bind_eq_ok _ _ _).mp built
  obtain ⟨incoming, atIncoming, built⟩ := (bind_eq_ok _ _ _).mp built
  obtain ⟨outgoing, atOutgoing, built⟩ := (bind_eq_ok _ _ _).mp built
  obtain ⟨channels, atChannels, built⟩ := (bind_eq_ok _ _ _).mp built
  obtain ⟨autotrust, atAutotrust, built⟩ := (bind_eq_ok _ _ _).mp built
  have rules : (autotrust.map fun rule => (rule, now)).map Prod.fst = autotrust := by
    rw [List.map_map]
    exact List.map_id autotrust
  refine ⟨⟨identity, peers, incoming, outgoing, channels, autotrust.map fun rule => (rule, now)⟩,
    ⟨?_, atPeers, atIncoming, atOutgoing, atChannels, by rw [rules]; exact atAutotrust⟩, ?_, ?_⟩
  · unfold identityToExport at loaded
    split at loaded
    · rename_i row found
      cases loaded
      exact found
    · cases loaded
    · cases loaded
  · rw [Validated.toPortable, rules]
    exact (Except.ok.inj built).symm
  · intro rule member
    obtain ⟨_, -, rfl⟩ := List.mem_map.mp member
    rfl

section Fields

variable (field : Str) (length : Nat) (bytes : Bytes)

theorem parseHexArray_hexEncode (sized : bytes.length = length) :
    parseHexArray P length field (hexEncode bytes) = .ok bytes := by
  rw [parseHexArray, hexDecode_hexEncode]
  exact if_neg (not_not.mpr sized)

theorem parseSecretArray_hexEncode (sized : bytes.length = length) :
    parseSecretArray J length field (hexEncode bytes) = .ok bytes := by
  rw [parseSecretArray, hexDecode_hexEncode]
  exact if_pos sized

theorem parseTrustStatus_asStr (status : TrustStatus) :
    parseTrustStatus field status.asStr = .ok status := by
  cases status <;> rfl

theorem parseChannelMode_asStr (mode : ChannelMode) :
    parseChannelMode field mode.asStr = .ok mode := by
  cases mode <;> rfl

end Fields

theorem validate_identity (identity : StoredIdentity) (pubkey : identity.pubkey.length = 32)
    (privkey : identity.privkey.length = 32) (fp : identity.fingerprint.length = 16) :
    identity.toPortable.validate P J = .ok identity := by
  rw [PortableIdentity.validate, StoredIdentity.toPortable, parseHexArray_hexEncode _ _ _ pubkey,
    parseSecretArray_hexEncode _ _ _ privkey, parseHexArray_hexEncode _ _ _ fp]
  rfl

theorem validate_peer (rec : PeerRecord) (idx : Nat) (fp : rec.fingerprint.length = 16)
    (pubkey : rec.pubkey.length = 32) :
    PortablePeer.validate P (rec.toPortable, idx) = .ok rec := by
  simp only [PortablePeer.validate, PeerRecord.toPortable]
  rw [parseHexArray_hexEncode _ _ _ fp, parseHexArray_hexEncode _ _ _ pubkey,
    parseTrustStatus_asStr]
  rfl

theorem validate_incoming (sess : IncomingSession) (idx : Nat) (fp : sess.fingerprint.length = 16)
    (sk : sess.sk.length = 32) :
    PortableIncoming.validate P J (sess.toPortable, idx) = .ok sess := by
  simp only [PortableIncoming.validate, IncomingSession.toPortable]
  rw [parseHexArray_hexEncode _ _ _ fp, parseSecretArray_hexEncode _ _ _ sk, parseTrustStatus_asStr]
  rfl

theorem validate_outgoing (sess : OutgoingSession) (idx : Nat) (sk : sess.sk.length = 32) :
    PortableOutgoing.validate J (sess.toPortable, idx) = .ok sess := by
  simp only [PortableOutgoing.validate, OutgoingSession.toPortable]
  rw [parseSecretArray_hexEncode _ _ _ sk]
  rfl

theorem validate_channel (cfg : ChannelConfig) (idx : Nat) :
    PortableChannel.validate (cfg.toPortable, idx) = .ok cfg := by
  simp only [PortableChannel.validate, ChannelConfig.toPortable]
  rw [parseChannelMode_asStr]
  rfl

theorem checkThat_eq_ok (c : Bool) (text : Str) (u : Unit) :
    checkThat c text = .ok u ↔ c = true := by
  cases c <;> simp [checkThat]

theorem validateFields_toPortable (v : Validated) (now : Int) (sized : v.Sized)
    (stamped : ∀ rule ∈ v.autotrust, rule.2 = now) :
    validateFields P J (v.toPortable now) = .ok v := by
  have identity : (v.toPortable now).identity.validate P J = .ok v.identity :=
    validate_identity v.identity sized.pubkey sized.privkey sized.fingerprint
  have peers : (v.toPortable now).peers.zipIdx.mapM (PortablePeer.validate P) = .ok v.peers :=
    mapM_zipIdx_map _ _ v.peers 0 fun rec member idx =>
      validate_peer rec idx (sized.peers rec member).1 (sized.peers rec member).2
  have incoming : (v.toPortable now).incomingSessions.zipIdx.mapM (PortableIncoming.validate P J) =
      .ok v.incoming :=
    mapM_zipIdx_map _ _ v.incoming 0 fun sess member idx =>
      validate_incoming sess idx (sized.incoming sess member).1 (sized.incoming sess member).2
  have outgoing : (v.toPortable now).outgoingSessions.zipIdx.mapM (PortableOutgoing.validate J) =
      .ok v.outgoing :=
    mapM_zipIdx_map _ _ v.outgoing 0 fun sess member idx =>
      validate_outgoing sess idx (sized.outgoing sess member)
  have channels : (v.toPortable now).channels.zipIdx.mapM PortableChannel.validate =
      .ok v.channels :=
    mapM_zipIdx_map _ _ v.channels 0 fun cfg _ idx => validate_channel cfg idx
  have autotrust : (v.toPortable now).autotrust.map (fun a => (a.rule, (v.toPortable now).exportedAt))
      = v.autotrust := by
    rw [Validated.toPortable, List.map_map, List.map_map]
    have same : ∀ rule ∈ v.autotrust, (rule.1, now) = id rule := fun rule member =>
      Prod.ext rfl (stamped rule member).symm
    exact (List.map_congr_left same).trans (List.map_id _)
  rw [validateFields, identity, peers, incoming, outgoing, channels, autotrust]
  rfl

theorem validateKeys_eq_ok (v : Validated) : validateKeys P v = .ok () ↔ v.Consistent P := by
  simp only [validateKeys, bind_eq_ok, checkThat_eq_ok, forM_eq_ok, checkPeer, decide_eq_true_eq]
  constructor
  · intro checked
    obtain ⟨_, pubkey, _, fp, each⟩ := checked
    refine ⟨pubkey, fp, fun rec member => ?_⟩
    obtain ⟨idx, found⟩ := List.mem_iff_getElem?.mp member
    exact each (rec, idx) (List.mk_mem_zipIdx_iff_getElem?.mpr found)
  · intro consistent
    exact ⟨(), consistent.pubkey, (), consistent.fingerprint, fun row member =>
      consistent.peers row.1 (List.fst_mem_of_mem_zipIdx member)⟩

/-- The document of sized data is validated to that data, and exactly when its keys are
consistent. -/
theorem validate_toPortable (v v' : Validated) (now : Int) (sized : v.Sized)
    (stamped : ∀ rule ∈ v.autotrust, rule.2 = now) :
    validate P J (v.toPortable now) = .ok v' ↔ v.Consistent P ∧ v' = v := by
  have version : checkThat (decide ((v.toPortable now).version = exportVersion))
      ("unsupported export version: got ".toList ++ natText (v.toPortable now).version ++
        ", expected ".toList ++ natText exportVersion) = .ok () := rfl
  have checked : validate P J (v.toPortable now) = (validateKeys P v >>= fun _ => .ok v) := by
    rw [validate, version, validateFields_toPortable v now sized stamped]
    rfl
  rw [checked, bind_eq_ok, ← validateKeys_eq_ok]
  constructor
  · intro ran
    obtain ⟨_, passed, same⟩ := ran
    exact ⟨passed, (Except.ok.inj same).symm⟩
  · intro passed
    exact ⟨(), passed.1, by rw [passed.2]⟩

end Document

section RoundTrip

variable {P : Platform} {A : Aes256Gcm} {J : Json} {secretKey : Option SecretKey}

theorem IdentityRow.decode_sized (row : IdentityRow) (identity : StoredIdentity)
    (decoded : row.decode A secretKey = .ok identity) :
    identity.pubkey.length = 32 ∧ identity.privkey.length = 32 ∧
      identity.fingerprint.length = 16 := by
  unfold IdentityRow.decode at decoded
  split at decoded
  · cases decoded
  · rename_i lengths
    obtain ⟨privkey, opened, same⟩ := (bind_eq_ok _ _ _).mp decoded
    cases same
    simp only [ne_eq, not_or, not_not] at lengths
    exact ⟨lengths.1, decodeSecret_length _ _ _ _ _ _ opened, lengths.2⟩

theorem PeerRow.decode_sized (row : PeerRow) (rec : PeerRecord) (decoded : row.decode = .ok rec) :
    rec.fingerprint.length = 16 ∧ rec.pubkey.length = 32 := by
  unfold PeerRow.decode at decoded
  split at decoded
  · cases decoded
  · rename_i lengths
    cases decoded
    simpa only [ne_eq, not_or, not_not] using lengths

theorem IncomingSessionRow.decode_sized (row : IncomingSessionRow) (sess : IncomingSession)
    (decoded : row.decode A secretKey = .ok sess) :
    sess.fingerprint.length = 16 ∧ sess.sk.length = 32 := by
  unfold IncomingSessionRow.decode at decoded
  split at decoded
  · cases decoded
  · rename_i length
    obtain ⟨sk, opened, same⟩ := (bind_eq_ok _ _ _).mp decoded
    cases same
    exact ⟨not_not.mp length, decodeSecret_length _ _ _ _ _ _ opened⟩

theorem OutgoingSessionRow.decode_sized (row : OutgoingSessionRow) (sess : OutgoingSession)
    (decoded : row.decode A secretKey = .ok sess) : sess.sk.length = 32 := by
  obtain ⟨sk, opened, same⟩ := (bind_eq_ok _ _ _).mp decoded
  cases same
  exact decodeSecret_length _ _ _ _ _ _ opened

/-- A listing stands beside the rows of the table, in the order of the query. -/
theorem listRows_eq_ok {α β κ : Type} {key : α → κ} (table : Table key) (before : α → α → Bool)
    (decode : α → Except E2eError β) (items : List β) :
    Database.listRows table before decode = .ok items ↔
      List.Forall₂ (fun row item => decode row = .ok item) (table.rows.mergeSort before) items :=
  mapM_eq_ok _ _ _

theorem listed_of_row {α β κ : Type} {key : α → κ} (table : Table key) (before : α → α → Bool)
    (decode : α → Except E2eError β) (items : List β)
    (listed : Database.listRows table before decode = .ok items) :
    ∀ item ∈ items, ∃ row ∈ table, decode row = .ok item := by
  intro item member
  obtain ⟨row, sorted, decoded⟩ :=
    exists_of_forall₂ _ _ items ((listRows_eq_ok _ _ _ _).mp listed) item member
  exact ⟨row, (List.mergeSort_perm _ _).mem_iff.mp sorted, decoded⟩

/-- The rows of a table are listed under different keys. -/
theorem listed_distinct {α β κ : Type} {key : α → κ} (table : Table key) (before : α → α → Bool)
    (decode : α → Except E2eError β) (keyOf : β → κ) (items : List β)
    (keeps : ∀ row item, decode row = .ok item → key row = keyOf item)
    (listed : Database.listRows table before decode = .ok items) : (items.map keyOf).Nodup := by
  rw [keys_of_decoded decode key keyOf keeps _ items ((listRows_eq_ok _ _ _ _).mp listed)]
  exact ((List.mergeSort_perm _ _).map key).nodup_iff.mpr table.unique

theorem relisted {α β κ : Type} {key : α → κ} (table : Table key) (before : α → α → Bool)
    (decode : α → Except E2eError β) (items : List β)
    (held : List.Forall₂ (fun row item => decode row = .ok item) table.rows items) :
    ∃ listed, Database.listRows table before decode = .ok listed ∧ listed.Perm items :=
  mapM_perm decode table.rows _ items (List.mergeSort_perm _ _) held

variable {db : Database} {v : Validated}

theorem Lists.sized (lists : Lists A secretKey db v) : v.Sized := by
  have identity : v.identity.pubkey.length = 32 ∧ v.identity.privkey.length = 32 ∧
      v.identity.fingerprint.length = 16 := by
    have loaded := lists.identity
    unfold Database.loadIdentity at loaded
    split at loaded
    · cases loaded
    · rename_i row _
      cases decoded : row.decode A secretKey with
      | error e =>
          rw [decoded] at loaded
          cases loaded
      | ok identity =>
          rw [decoded] at loaded
          cases loaded
          exact row.decode_sized _ decoded
  constructor
  · exact identity.1
  · exact identity.2.1
  · exact identity.2.2
  · intro rec member
    obtain ⟨row, -, decoded⟩ := listed_of_row _ _ _ _ lists.peers rec member
    exact row.decode_sized rec decoded
  · intro sess member
    obtain ⟨row, -, decoded⟩ := listed_of_row _ _ _ _ lists.incoming sess member
    exact row.decode_sized sess decoded
  · intro sess member
    obtain ⟨row, -, decoded⟩ := listed_of_row _ _ _ _ lists.outgoing sess member
    exact row.decode_sized sess decoded

theorem AutotrustRow.decode_key (row : AutotrustRow) (rule : AutotrustRule)
    (decoded : row.decode = .ok rule) : row.key = rule.key := by
  cases decoded
  rfl

theorem Lists.distinct (lists : Lists A secretKey db v) : v.Distinct where
  peers := listed_distinct _ _ _ _ _ PeerRow.decode_key lists.peers
  incoming := listed_distinct _ _ _ _ _ (IncomingSessionRow.decode_key A secretKey) lists.incoming
  outgoing := listed_distinct _ _ _ _ _ (OutgoingSessionRow.decode_key A secretKey) lists.outgoing
  channels := listed_distinct _ _ _ _ _ ChannelConfigRow.decode_key lists.channels
  autotrust := by
    have rules := listed_distinct _ _ _ _ _ AutotrustRow.decode_key lists.autotrust
    rwa [List.map_map] at rules

/-- Two listings of the same rows, each in its own order. -/
def SameRows {β : Type} (first second : Except E2eError (List β)) : Prop :=
  ∃ rows rows', first = .ok rows ∧ second = .ok rows' ∧ rows'.Perm rows

/-- The second database lists exactly what the first lists, each read under its own key. -/
structure SameData (A : Aes256Gcm) (secretKey secretKey' : Option SecretKey) (db db' : Database) :
    Prop where
  identity : db'.loadIdentity A secretKey' = db.loadIdentity A secretKey
  peers : SameRows db.listAllPeers db'.listAllPeers
  incoming : SameRows (db.listAllIncomingSessions A secretKey)
    (db'.listAllIncomingSessions A secretKey')
  outgoing : SameRows (db.listAllOutgoingSessions A secretKey)
    (db'.listAllOutgoingSessions A secretKey')
  channels : SameRows db.listAllChannelConfigs db'.listAllChannelConfigs
  autotrust : SameRows db.listAutotrust db'.listAutotrust

theorem sameRows_relisted {α β κ : Type} {key : α → κ} (table : Table key)
    (before : α → α → Bool) (decode : α → Except E2eError β) (items : List β)
    (first : Except E2eError (List β)) (lists : first = .ok items)
    (held : List.Forall₂ (fun row item => decode row = .ok item) table.rows items) :
    SameRows first (Database.listRows table before decode) := by
  obtain ⟨listed, read, perm⟩ := relisted table before decode items held
  exact ⟨items, listed, lists, read, perm⟩

/-- What replaced the stored keyring lists what the exported one listed. -/
theorem Replaced.sameData {secretKey' : Option SecretKey} {db' : Database}
    (replaced : Replaced A secretKey' v db') (lists : Lists A secretKey db v) :
    SameData A secretKey secretKey' db db' where
  identity := by
    obtain ⟨row, rest, decoded, last, rows⟩ := List.forall₂_cons_right_iff.mp replaced.identity
    rw [List.forall₂_nil_right_iff] at last
    subst last
    have found : db'.identity.find? 1 = some row := by
      unfold Table.find?
      rw [rows]
      rfl
    rw [lists.identity, Database.loadIdentity, found]
    show (row.decode A secretKey').map some = _
    rw [decoded]
    rfl
  peers := sameRows_relisted _ _ _ _ _ lists.peers replaced.peers
  incoming := sameRows_relisted _ _ _ _ _ lists.incoming replaced.incoming
  outgoing := sameRows_relisted _ _ _ _ _ lists.outgoing replaced.outgoing
  channels := sameRows_relisted _ _ _ _ _ lists.channels replaced.channels
  autotrust := by
    apply sameRows_relisted _ _ _ _ _ lists.autotrust
    apply List.forall₂_map_right_iff.mpr
    apply replaced.autotrust.imp
    intro row rule timed
    cases timed
    rfl

/-- The exported keys are what an import checks them to be. -/
def Database.Consistent (P : Platform) (A : Aes256Gcm) (secretKey : Option SecretKey)
    (db : Database) : Prop :=
  (∀ identity, db.loadIdentity A secretKey = .ok (some identity) →
    P.verifyingKey identity.privkey = identity.pubkey ∧
      fingerprint P identity.pubkey = identity.fingerprint) ∧
  ∀ peers, db.listAllPeers = .ok peers → ∀ rec ∈ peers, fingerprint P rec.pubkey = rec.fingerprint

theorem Lists.consistent_iff (lists : Lists A secretKey db v) :
    db.Consistent P A secretKey ↔ v.Consistent P := by
  constructor
  · intro consistent
    have keys := consistent.1 v.identity lists.identity
    exact ⟨keys.1, keys.2, consistent.2 v.peers lists.peers⟩
  · intro consistent
    constructor
    · intro identity loaded
      rw [lists.identity] at loaded
      cases loaded
      exact ⟨consistent.pubkey, consistent.fingerprint⟩
    · intro peers listed
      rw [lists.peers] at listed
      cases listed
      exact consistent.peers

theorem exportToPath_eq_ok (writePrivateFile : Bytes → Except E2eError Unit) (now : Int)
    (summary : ExportSummary) (document : Bytes)
    (exported : exportToPath A J secretKey writePrivateFile now db = .ok (summary, document)) :
    ∃ v, Lists A secretKey db v ∧ (∀ rule ∈ v.autotrust, rule.2 = now) ∧
      J.toVecPretty (v.toPortable now) = .ok document := by
  obtain ⟨doc, built, exported⟩ := (bind_eq_ok _ _ _).mp exported
  obtain ⟨json, rendered, exported⟩ := (bind_eq_ok _ _ _).mp exported
  obtain ⟨_, -, same⟩ := (bind_eq_ok _ _ _).mp exported
  cases same
  obtain ⟨v, lists, rfl, stamped⟩ := buildPortable_eq_ok now db doc built
  exact ⟨v, lists, stamped, (mapError_eq_ok _ _ _).mp rendered⟩

/-- An import that stops with an error has left the database as it was. -/
theorem importWithIdentity_error (file : Except E2eError Bytes) (c c' : Connection) (e : E2eError)
    (failed : importWithIdentity P A J secretKey file c = (.error e, c')) : c'.db = c.db := by
  have run : Prog.After c (importWithIdentity P A J secretKey file) (fun _ _ => True)
      fun _ c' => c'.db = c.db := by
    unfold importWithIdentity
    simp only [Prog.after_bind, Prog.after_lift, Prog.after_pure]
    refine ⟨fun raw _ => ⟨fun doc _ => ⟨fun v _ => ?_, fun _ _ => trivial⟩, fun _ _ => trivial⟩,
      fun _ _ => trivial⟩
    unfold Prog.After replaceAllForImport
    split
    · trivial
    · rename_i e' c'' ran
      exact transaction_error _ c c'' e' ran
  unfold Prog.After at run
  rwa [failed] at run

/-- An import of a document that is validated ends with its data stored. -/
theorem lands_importWithIdentity (storage : FaithfulStorage P A J) (document : Bytes)
    (doc : Portable) (sized : v.Sized) (parsed : J.fromSlice document = .ok doc)
    (validated : validate P J doc = .ok v) (c : Connection) :
    Lands v.Distinct c (importWithIdentity P A J secretKey (.ok document)) fun result db =>
      Replaced A secretKey v db ∧ result.2 = v.identity.privkey := by
  have read : parseJson J document = .ok doc := by rw [parseJson, parsed]; rfl
  unfold importWithIdentity
  show Lands v.Distinct c (Prog.lift (parseJson J document) >>= _) _
  rw [read]
  show Lands v.Distinct c (Prog.lift (validate P J doc) >>= _) _
  rw [validated]
  apply (lands_replaceAllForImport storage secretKey v sized c).bind
  intro _ c' replaced
  exact ⟨fun quiet => quiet, replaced, rfl⟩

/-- An import of a document that is not validated is refused. -/
theorem importWithIdentity_refused (document : Bytes) (doc : Portable) (e : E2eError)
    (parsed : J.fromSlice document = .ok doc) (refused : validate P J doc = .error e)
    (c : Connection) : importWithIdentity P A J secretKey (.ok document) c = (.error e, c) := by
  have read : parseJson J document = .ok doc := by rw [parseJson, parsed]; rfl
  unfold importWithIdentity
  show (Prog.lift (parseJson J document) >>= _ : Sql _) c = _
  rw [read]
  show (Prog.lift (validate P J doc) >>= _ : Sql _) c = _
  rw [refused]
  rfl

/-- For every keyring that exports: where its keys are consistent an import of the document goes
through unless a statement fails, and where they are not it is refused; an import that goes
through leaves exactly the exported data, and the client running under the exported identity. And
whatever the file holds and whichever statement fails, an import that ends in an error has changed
neither the stored keyring nor the identity the client runs under. -/
theorem import_restores_export_or_changes_nothing (storage : FaithfulStorage P A J) :
    (∀ (sourceKey targetKey : Option SecretKey) (source : Database)
      (writePrivateFile : Bytes → Except E2eError Unit) (now : Int) (summary : ExportSummary)
      (document : Bytes) (client : Client),
      exportToPath A J sourceKey writePrivateFile now source = .ok (summary, document) →
        let outcome := e2eImport P A J targetKey (.ok document) client
        (source.Consistent P A sourceKey → client.connection.Quiet →
          ∃ counts, outcome.1 = .ok counts) ∧
        (¬source.Consistent P A sourceKey → ∃ e, outcome.1 = .error e) ∧
        ∀ counts, outcome.1 = .ok counts →
          SameData A sourceKey targetKey source outcome.2.connection.db ∧
          ∃ identity, source.loadIdentity A sourceKey = .ok (some identity) ∧
            outcome.2.identity = identity.privkey) ∧
    ∀ (targetKey : Option SecretKey) (file : Except E2eError Bytes) (client : Client) (e : E2eError),
      let outcome := e2eImport P A J targetKey file client
      outcome.1 = .error e →
        outcome.2.identity = client.identity ∧ outcome.2.connection.db = client.connection.db := by
  constructor
  · intro sourceKey targetKey source writePrivateFile now summary document client exported
    obtain ⟨v, lists, stamped, rendered⟩ := exportToPath_eq_ok _ now summary document exported
    have parsed := storage.reads _ _ rendered
    have checked (v' : Validated) :
        validate P J (v.toPortable now) = .ok v' ↔ v.Consistent P ∧ v' = v :=
      validate_toPortable v v' now lists.sized stamped
    rw [lists.consistent_iff]
    by_cases consistent : v.Consistent P
    · have lands : Lands v.Distinct client.connection
          (importWithIdentity P A J targetKey (.ok document)) fun result db =>
            Replaced A targetKey v db ∧ result.2 = v.identity.privkey :=
        lands_importWithIdentity storage document _ lists.sized parsed
          ((checked v).mpr ⟨consistent, rfl⟩) client.connection
      unfold Lands Prog.After at lands
      rcases ran : importWithIdentity P A J targetKey (.ok document) client.connection with ⟨r, c'⟩
      rw [ran] at lands
      cases r with
      | ok result =>
          have installed : e2eImport P A J targetKey (.ok document) client =
              (.ok result.1, ⟨result.2, c'⟩) := by rw [e2eImport, ran]
          rw [installed]
          refine ⟨fun _ _ => ⟨_, rfl⟩, fun inconsistent => absurd consistent inconsistent, ?_⟩
          intro counts _
          exact ⟨lands.2.1.sameData lists, v.identity, lists.identity, lands.2.2⟩
      | error e =>
          have kept : e2eImport P A J targetKey (.ok document) client =
              (.error e, { client with connection := c' }) := by rw [e2eImport, ran]
          rw [kept]
          refine ⟨fun _ quiet => absurd ⟨lists.distinct, quiet⟩ lands,
            fun inconsistent => absurd consistent inconsistent, ?_⟩
          intro counts succeeded
          cases succeeded
    · have refused : ∃ e, validate P J (v.toPortable now) = .error e := by
        cases outcome : validate P J (v.toPortable now) with
        | error e => exact ⟨e, rfl⟩
        | ok v' => exact absurd ((checked v').mp outcome).1 consistent
      obtain ⟨e, refused⟩ := refused
      have kept : e2eImport P A J targetKey (.ok document) client = (.error e, client) := by
        rw [e2eImport, importWithIdentity_refused document _ e parsed refused]
      rw [kept]
      refine ⟨fun isConsistent => absurd isConsistent consistent, fun _ => ⟨e, rfl⟩, ?_⟩
      intro counts succeeded
      cases succeeded
  · intro targetKey file client e
    dsimp only
    intro failed
    rcases ran : importWithIdentity P A J targetKey file client.connection with ⟨r, c'⟩
    cases r with
    | ok result =>
        rw [e2eImport, ran] at failed
        cases failed
    | error e' =>
        rw [e2eImport, ran]
        exact ⟨rfl, importWithIdentity_error file client.connection c' e' ran⟩

end RoundTrip

section Samples

/-- A cipher that hides nothing, of the lengths of the real one. -/
def Aes256Gcm.plain : Aes256Gcm where
  encrypt _ _ text := .ok (text ++ List.replicate 16 0)
  decrypt _ _ ciphertext := .ok (ciphertext.take (ciphertext.length - 16))

/-- JSON at one document and its text. -/
def Json.only (doc : Portable) (text : Bytes) : Json where
  toVecPretty doc' := if doc' = doc then .ok text else .error []
  fromSlice text' := if text' = text then .ok doc else .error []
  hexSliceError _ s := s

theorem plain_faithful (doc : Portable) (text : Bytes) :
    FaithfulStorage Platform.symbolic Aes256Gcm.plain (Json.only doc text) where
  random n length := by simp [Platform.symbolic]
  opens key nonce secret _ _ _ := by
    refine ⟨secret ++ List.replicate 16 0, rfl, by simp, ?_⟩
    simp [Aes256Gcm.plain]
  reads doc' json rendered := by
    simp only [Json.only] at rendered ⊢
    split at rendered
    · rename_i same
      cases rendered
      rw [if_pos rfl, same]
    · cases rendered

theorem only_reads (doc : Portable) (text : Bytes) :
    (Json.only doc text).fromSlice text = .ok doc := if_pos rfl

theorem only_exports (A : Aes256Gcm) (doc : Portable) (text : Bytes) (now : Int) (db : Database)
    (built : buildPortable A none now db = .ok doc) :
    exportToPath A (.only doc text) none (fun _ => .ok ()) now db =
      .ok (⟨doc.peers.length, doc.incomingSessions.length, doc.outgoingSessions.length,
        doc.channels.length, doc.autotrust.length⟩, text) := by
  have rendered : (Json.only doc text).toVecPretty doc = .ok text := if_pos rfl
  rw [exportToPath, built]
  show (((Json.only doc text).toVecPretty doc).mapError _ >>= _) = _
  rw [rendered]
  rfl

def sampleIdentity : StoredIdentity := ⟨List.replicate 32 7, List.replicate 32 7, List.replicate 16 7, 5⟩

def sampleDatabase (peers : Table PeerRow.fingerprint) : Database :=
  { Database.empty with
    identity := Table.empty.replace
      ⟨sampleIdentity.pubkey, sampleIdentity.privkey, sampleIdentity.fingerprint, 5⟩
    peers := peers
    channelConfig := Table.empty.replace ⟨"#room".toList, 1, "quiet".toList⟩ }

def sampleText (peers : String) : Bytes :=
  let hex (bytes : Bytes) : String := String.ofList (hexEncode bytes)
  utf8 ("\x7b\n  \"version\": 1,\n  \"exportedAt\": 9,\n  \"identity\": \x7b\n" ++
    "    \"pubkey\": \"" ++ hex sampleIdentity.pubkey ++ "\",\n" ++
    "    \"privkey\": \"" ++ hex sampleIdentity.privkey ++ "\",\n" ++
    "    \"fingerprint\": \"" ++ hex sampleIdentity.fingerprint ++ "\",\n" ++
    "    \"createdAt\": 5\n  \x7d,\n  \"peers\": " ++ peers ++ ",\n" ++
    "  \"incomingSessions\": [],\n  \"outgoingSessions\": [],\n" ++
    "  \"channels\": [\n    \x7b\n      \"channel\": \"#room\",\n" ++
    "      \"enabled\": true,\n      \"mode\": \"quiet\"\n    \x7d\n  ],\n" ++
    "  \"autotrust\": []\n\x7d").toList

def sampleDocument (peers : List PortablePeer) : Portable where
  version := 1
  exportedAt := 9
  identity := sampleIdentity.toPortable
  peers := peers
  incomingSessions := []
  outgoingSessions := []
  channels := [⟨"#room".toList, true, "quiet".toList⟩]
  autotrust := []

def emptyClient : Client := ⟨[], ⟨.empty, 0, []⟩⟩

theorem import_restores_export_or_changes_nothing_sample :
    let outcome := e2eImport .symbolic .plain (.only (sampleDocument []) (sampleText "[]")) none
      (.ok (sampleText "[]")) emptyClient
    (∃ counts, outcome.1 = .ok counts) ∧
      SameData .plain none none (sampleDatabase .empty) outcome.2.connection.db := by
  have exported : exportToPath .plain (.only (sampleDocument []) (sampleText "[]")) none
      (fun _ => .ok ()) 9 (sampleDatabase .empty) = .ok (⟨0, 0, 0, 1, 0⟩, sampleText "[]") :=
    only_exports .plain (sampleDocument []) _ 9 (sampleDatabase .empty) (by decide +kernel)
  have restores := (import_restores_export_or_changes_nothing
    (plain_faithful (sampleDocument []) (sampleText "[]"))).1 none none (sampleDatabase .empty)
      (fun _ => .ok ()) 9 _ _ emptyClient exported
  have consistent : (sampleDatabase .empty).Consistent .symbolic .plain none := by
    constructor
    · intro identity loaded
      have stored : (sampleDatabase .empty).loadIdentity .plain none = .ok (some sampleIdentity) := by
        decide +kernel
      rw [stored] at loaded
      cases loaded
      decide +kernel
    · intro peers listed rec member
      have none : (sampleDatabase .empty).listAllPeers = .ok [] := by decide +kernel
      rw [none] at listed
      cases listed
      cases member
  obtain ⟨counts, succeeded⟩ := restores.1 consistent fun fault member => absurd member List.not_mem_nil
  exact ⟨⟨counts, succeeded⟩, (restores.2.2 counts succeeded).1⟩

/-- A peer row whose fingerprint is not that of its key. -/
def strayPeer : PeerRow := ⟨List.replicate 16 1, List.replicate 32 2, none, none, 3, 4, "pending".toList⟩

def strayText : Bytes :=
  sampleText ("[\n    \x7b\n      \"fingerprint\": \"" ++ String.ofList (hexEncode strayPeer.fingerprint) ++
    "\",\n      \"pubkey\": \"" ++ String.ofList (hexEncode strayPeer.pubkey) ++
    "\",\n      \"lastHandle\": null,\n      \"lastNick\": null,\n      \"firstSeen\": 3,\n" ++
    "      \"lastSeen\": 4,\n      \"globalStatus\": \"pending\"\n    \x7d\n  ]")

def strayDocument : Portable :=
  sampleDocument [⟨hexEncode strayPeer.fingerprint, hexEncode strayPeer.pubkey, none, none, 3, 4,
    "pending".toList⟩]

/-- The keyring exports, and the import of its document is refused. -/
theorem stray_peer_is_not_imported :
    exportToPath .plain (.only strayDocument strayText) none (fun _ => .ok ()) 9
        (sampleDatabase (Table.empty.replace strayPeer)) = .ok (⟨1, 0, 0, 1, 0⟩, strayText) ∧
      (e2eImport .symbolic .plain (.only strayDocument strayText) none (.ok strayText)
        emptyClient).1 = .error (.keyring "peers[0].fingerprint does not match pubkey".toList) := by
  constructor
  · exact only_exports .plain strayDocument strayText 9 (sampleDatabase (Table.empty.replace strayPeer))
      (by decide +kernel)
  · have refused : validate .symbolic (.only strayDocument strayText) strayDocument =
        .error (.keyring "peers[0].fingerprint does not match pubkey".toList) := by
      decide +kernel
    rw [e2eImport, importWithIdentity_refused strayText strayDocument _ (only_reads _ _) refused]

end Samples

end Repartee.E2e
