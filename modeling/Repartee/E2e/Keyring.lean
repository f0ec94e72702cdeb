import Repartee.Lib.Table
import Repartee.E2e.Context
import Repartee.E2e.Platform

/-!
The keyring: its tables and the reads and writes on them. Every method is one function here, and
whoever calls it decides whether the database answers.
-/

namespace Repartee.E2e

open Text Lib

inductive TrustStatus where
  | pending
  | trusted
  | revoked
  deriving DecidableEq

inductive ChannelMode where
  | autoAccept
  | normal
  | quiet
  deriving DecidableEq

structure PeerRecord where
  fingerprint : Fingerprint
  pubkey : Bytes
  lastHandle : Option Str
  lastNick : Option Str
  firstSeen : Int
  lastSeen : Int
  globalStatus : TrustStatus
  deriving DecidableEq

structure IncomingSession where
  handle : Str
  channel : Str
  fingerprint : Fingerprint
  sk : SessionKey
  status : TrustStatus
  createdAt : Int
  deriving DecidableEq

/-- A stored session with the key its last install superseded and the time of that install. -/
structure IncomingRow where
  session : IncomingSession
  prev : Option (SessionKey × Int)
  deriving DecidableEq

def IncomingRow.key (row : IncomingRow) : Str × Str := (row.session.handle, row.session.channel)

structure OutgoingSession where
  channel : Str
  sk : SessionKey
  createdAt : Int
  pendingRotation : Bool
  deriving DecidableEq

structure ChannelConfig where
  channel : Str
  enabled : Bool
  mode : ChannelMode
  deriving DecidableEq

structure AutotrustRule where
  scope : Str
  handlePattern : Str
  deriving DecidableEq

def AutotrustRule.key (rule : AutotrustRule) : Str × Str := (rule.scope, rule.handlePattern)

structure OutgoingRecipient where
  channel : Str
  handle : Str
  fingerprint : Fingerprint
  firstSentAt : Int
  deriving DecidableEq

def OutgoingRecipient.key (r : OutgoingRecipient) : Str × Str := (r.channel, r.handle)

structure DmHandle where
  network : Str
  nick : Str
  handle : Str
  deriving DecidableEq

/-- The nick column collates NOCASE, so two spellings of a nick are one key. -/
def DmHandle.key (row : DmHandle) : Str × Str := (row.network, asciiLower row.nick)

structure SeenRekey where
  fingerprint : Fingerprint
  channel : Str
  nonce : Bytes
  deriving DecidableEq

/-- A stored peer keeps its key and its first sighting. -/
def PeerRecord.refresh (rec old : PeerRecord) : PeerRecord :=
  { old with
    lastHandle := rec.lastHandle
    lastNick := rec.lastNick
    lastSeen := rec.lastSeen
    globalStatus := rec.globalStatus }

def PeerRecord.detachFrom (handle : Str) (keep : Fingerprint) (rec : PeerRecord) : PeerRecord :=
  if rec.lastHandle = some handle ∧ rec.fingerprint ≠ keep then { rec with lastHandle := none }
  else rec

theorem PeerRecord.detachFrom_fingerprint (handle : Str) (keep : Fingerprint) (rec : PeerRecord) :
    (detachFrom handle keep rec).fingerprint = rec.fingerprint := by
  unfold detachFrom
  split <;> rfl

/-- The flag is written to the context's row and to its unscoped one. -/
def OutgoingSession.flag (flag : Bool) (channel : Str) (row : OutgoingSession) : OutgoingSession :=
  if row.channel = channel ∨ row.channel = wireContext channel then
    { row with pendingRotation := flag }
  else row

theorem OutgoingSession.flag_channel (flag : Bool) (channel : Str) (row : OutgoingSession) :
    (OutgoingSession.flag flag channel row).channel = row.channel := by
  unfold OutgoingSession.flag
  split <;> rfl

theorem OutgoingSession.flag_sk (flag : Bool) (channel : Str) (row : OutgoingSession) :
    (OutgoingSession.flag flag channel row).sk = row.sk := by
  unfold OutgoingSession.flag
  split <;> rfl

/-- Whether a row is the peer's for the context or for the context's wire form. -/
def IncomingRow.matches (handle channel : Str) (row : IncomingRow) : Bool :=
  row.session.handle = handle &&
    (row.session.channel = channel || row.session.channel = wireContext channel)

def IncomingRow.setStatus (handle channel : Str) (status : TrustStatus) (row : IncomingRow) :
    IncomingRow :=
  if IncomingRow.matches handle channel row then
    { row with session := { row.session with status := status } }
  else row

theorem IncomingRow.setStatus_key (handle channel : Str) (status : TrustStatus)
    (row : IncomingRow) : (IncomingRow.setStatus handle channel status row).key = row.key := by
  unfold IncomingRow.setStatus
  split <;> rfl

def OutgoingRecipient.matches (channel handle : Str) (r : OutgoingRecipient) : Bool :=
  r.handle = handle && (r.channel = channel || r.channel = wireContext channel)

structure Keyring where
  peers : Table PeerRecord.fingerprint
  outgoing : Table OutgoingSession.channel
  incoming : Table IncomingRow.key
  seenRekeys : Table (id : SeenRekey → SeenRekey)
  channelConfig : Table ChannelConfig.channel
  autotrust : Table AutotrustRule.key
  recipients : Table OutgoingRecipient.key
  dmHandleCache : Table DmHandle.key
  configuredNetworks : Table (id : Str → Str)

namespace Keyring

def empty : Keyring :=
  ⟨.empty, .empty, .empty, .empty, .empty, .empty, .empty, .empty, .empty⟩

variable (kr : Keyring)

section Networks

def setConfiguredNetworks (labels : List Str) : Keyring :=
  { kr with configuredNetworks := labels.foldl Table.insertOrIgnore .empty }

def isConfigured (network : Str) : Bool := kr.configuredNetworks.rows.contains network

def legacyAdoptionAllowed : Bool := kr.configuredNetworks.rows.length ≤ 1

/-- The unscoped row a scoped miss may consult: none once several networks are configured. -/
def legacyFallback (channel : Str) : Option Str :=
  match legacyWireFallback channel with
  | some wire => if kr.legacyAdoptionAllowed then some wire else none
  | none => none

theorem legacyFallback_eq (channel wire : Str) (fallback : kr.legacyFallback channel = some wire) :
    wire = wireContext channel := by
  unfold legacyFallback legacyWireFallback at fallback
  split at fallback
  · rename_i candidate found
    split at found
    · cases found
    · simp only [Option.ite_none_right_eq_some, Option.some.injEq] at found fallback
      exact fallback.2.symm.trans found.2.symm
  · cases fallback

end Networks

section Peers

def upsertPeer (rec : PeerRecord) : Keyring :=
  { kr with peers := kr.peers.insertOrMerge rec (PeerRecord.refresh rec) fun _ => rfl }

theorem mem_upsertPeer (rec p : PeerRecord) :
    p ∈ (kr.upsertPeer rec).peers ↔ (p ∈ kr.peers ∧ p.fingerprint ≠ rec.fingerprint) ∨
      (∃ old ∈ kr.peers, old.fingerprint = rec.fingerprint ∧ p = PeerRecord.refresh rec old) ∨
        (p = rec ∧ ∀ old ∈ kr.peers, old.fingerprint ≠ rec.fingerprint) :=
  Table.mem_insertOrMerge kr.peers rec p (PeerRecord.refresh rec) fun _ => rfl

def getPeerByFingerprint (fp : Fingerprint) : Option PeerRecord := kr.peers.find? fp

/-- The most recently seen of the rows. -/
def latestSeen : List PeerRecord → Option PeerRecord
  | [] => none
  | rec :: rest => match latestSeen rest with
      | none => some rec
      | some best => if best.lastSeen ≤ rec.lastSeen then some rec else some best

def getPeerByHandle (handle : Str) : Option PeerRecord :=
  latestSeen (kr.peers.rows.filter fun rec => rec.lastHandle = some handle)

def detachOtherPeersFromHandle (handle : Str) (keep : Fingerprint) : Keyring :=
  { kr with
    peers := kr.peers.modify (PeerRecord.detachFrom handle keep)
      (PeerRecord.detachFrom_fingerprint handle keep) }

theorem mem_detachOtherPeersFromHandle (handle : Str) (keep : Fingerprint) (p : PeerRecord) :
    p ∈ (kr.detachOtherPeersFromHandle handle keep).peers ↔
      ∃ old ∈ kr.peers, PeerRecord.detachFrom handle keep old = p :=
  Table.mem_modify _ _ _ (PeerRecord.detachFrom_fingerprint handle keep)

def deletePeerByFingerprint (fp : Fingerprint) : Keyring := { kr with peers := kr.peers.erase fp }

end Peers

section Outgoing

def setOutgoingSession (channel : Str) (sk : SessionKey) (createdAt : Int) : Keyring :=
  { kr with outgoing := kr.outgoing.replace ⟨channel, sk, createdAt, false⟩ }

def getOutgoingSessionExact (channel : Str) : Option OutgoingSession := kr.outgoing.find? channel

def getOutgoingSession (channel : Str) : Option OutgoingSession :=
  match kr.getOutgoingSessionExact channel with
  | some sess => some sess
  | none => (kr.legacyFallback channel).bind kr.getOutgoingSessionExact

def setPendingRotation (flag : Bool) (channel : Str) : Keyring :=
  { kr with
    outgoing := kr.outgoing.modify (OutgoingSession.flag flag channel)
      (OutgoingSession.flag_channel flag channel) }

theorem mem_setPendingRotation (flag : Bool) (channel : Str) (row : OutgoingSession) :
    row ∈ (kr.setPendingRotation flag channel).outgoing ↔
      ∃ old ∈ kr.outgoing, OutgoingSession.flag flag channel old = row :=
  Table.mem_modify _ _ _ (OutgoingSession.flag_channel flag channel)

def markOutgoingPendingRotation (channel : Str) : Keyring := kr.setPendingRotation true channel

def clearOutgoingPendingRotation (channel : Str) : Keyring := kr.setPendingRotation false channel

end Outgoing

section Incoming

def setIncomingSession (s : IncomingSession) : Keyring :=
  { kr with incoming := kr.incoming.replace ⟨s, none⟩ }

def getIncomingRow (handle channel : Str) : Option IncomingRow := kr.incoming.find? (handle, channel)

def getIncomingSessionExact (handle channel : Str) : Option IncomingSession :=
  (kr.getIncomingRow handle channel).map IncomingRow.session

def getIncomingSession (handle channel : Str) : Option IncomingSession :=
  match kr.getIncomingSessionExact handle channel with
  | some sess => some sess
  | none => (kr.legacyFallback channel).bind (kr.getIncomingSessionExact handle)

/-- The row an install continues: the context's own, or the unscoped one it would read. -/
def continuedRow (handle channel : Str) : Option IncomingRow :=
  match kr.getIncomingRow handle channel with
  | some row => some row
  | none => (kr.legacyFallback channel).bind (kr.getIncomingRow handle)

/-- The key an install retains for the grace window: a trusted one, not the placeholder, that
the new key replaces. -/
def supersededKey (existing : Option IncomingRow) (sk : SessionKey) (now : Int) :
    Option (SessionKey × Int) :=
  match existing with
  | none => none
  | some row =>
      if row.session.status ≠ .trusted then none
      else if row.session.sk = sk ∨ row.session.sk = zeroKey then none
      else some (row.session.sk, now)

def installIncomingSessionStrict (now : Int) (s : IncomingSession) : Except E2eError Keyring :=
  let existing := kr.continuedRow s.handle s.channel
  let installed : Keyring :=
    { kr with incoming := kr.incoming.replace ⟨s, supersededKey existing s.sk now⟩ }
  match existing with
  | none => .ok installed
  | some row =>
      if row.session.fingerprint ≠ s.fingerprint then
        .error (.handleMismatch ("fp=".toList ++ hexEncode row.session.fingerprint)
          ("fp=".toList ++ hexEncode s.fingerprint))
      else .ok installed

theorem supersededKey_eq_some (existing : Option IncomingRow) (sk : SessionKey) (now : Int)
    (prev : SessionKey × Int) (retained : supersededKey existing sk now = some prev) :
    ∃ row, existing = some row ∧ row.session.status = .trusted ∧ row.session.sk ≠ sk ∧
      row.session.sk ≠ zeroKey ∧ prev = (row.session.sk, now) := by
  unfold supersededKey at retained
  split at retained
  · cases retained
  · rename_i row
    split at retained
    · cases retained
    · rename_i trusted
      split at retained
      · cases retained
      · rename_i replaced
        simp only [not_or] at replaced
        exact ⟨row, rfl, not_not.mp trusted, replaced.1, replaced.2, (Option.some.inj retained).symm⟩

/-- An install goes through when the row it continues is of the same identity. -/
theorem installIncomingSessionStrict_eq_ok (now : Int) (s : IncomingSession) (installed : Keyring)
    (strict : kr.installIncomingSessionStrict now s = .ok installed) :
    installed =
        { kr with
          incoming := kr.incoming.replace
            ⟨s, supersededKey (kr.continuedRow s.handle s.channel) s.sk now⟩ } ∧
      ∀ row, kr.continuedRow s.handle s.channel = some row →
        row.session.fingerprint = s.fingerprint := by
  unfold installIncomingSessionStrict at strict
  simp only at strict
  split at strict
  · rename_i missing
    refine ⟨(Except.ok.inj strict).symm, fun row present => ?_⟩
    rw [missing] at present
    cases present
  · rename_i row present
    split at strict
    · cases strict
    · rename_i same
      refine ⟨(Except.ok.inj strict).symm, fun other found => ?_⟩
      rw [present] at found
      cases found
      exact not_not.mp same

theorem getIncomingRow_matches (handle context channel : Str) (row : IncomingRow)
    (found : kr.getIncomingRow handle context = some row)
    (filed : context = channel ∨ context = wireContext channel) :
    row ∈ kr.incoming ∧ IncomingRow.matches handle channel row = true := by
  obtain ⟨member, keyed⟩ := (Table.find?_eq_some _ _ _).mp found
  simp only [IncomingRow.key, Prod.mk.injEq] at keyed
  obtain ⟨rfl, rfl⟩ := keyed
  exact ⟨member, by simpa [IncomingRow.matches] using filed⟩

theorem continuedRow_matches (handle channel : Str) (row : IncomingRow)
    (found : kr.continuedRow handle channel = some row) :
    row ∈ kr.incoming ∧ IncomingRow.matches handle channel row = true := by
  unfold continuedRow at found
  split at found
  · rename_i here
    cases found
    exact kr.getIncomingRow_matches handle channel channel row here (Or.inl rfl)
  · obtain ⟨wire, fallback, here⟩ := Option.bind_eq_some_iff.mp found
    exact kr.getIncomingRow_matches handle wire channel row here
      (Or.inr (kr.legacyFallback_eq _ _ fallback))

theorem getIncomingSession_eq (handle channel : Str) :
    kr.getIncomingSession handle channel =
      (kr.continuedRow handle channel).map IncomingRow.session := by
  unfold getIncomingSession continuedRow getIncomingSessionExact
  cases kr.getIncomingRow handle channel with
  | some row => rfl
  | none => cases kr.legacyFallback channel <;> rfl

theorem getIncomingSession_eq_some (handle channel : Str) (s : IncomingSession)
    (found : kr.getIncomingSession handle channel = some s) :
    ∃ row ∈ kr.incoming, row.session = s ∧ IncomingRow.matches handle channel row = true := by
  rw [getIncomingSession_eq] at found
  obtain ⟨row, here, rfl⟩ := Option.map_eq_some_iff.mp found
  obtain ⟨member, filed⟩ := kr.continuedRow_matches handle channel row here
  exact ⟨row, member, rfl, filed⟩

def getIncomingPrevKeyExact (handle channel : Str) : Option (SessionKey × Int) :=
  (kr.getIncomingRow handle channel).bind IncomingRow.prev

def getIncomingPrevKey (handle channel : Str) : Option (SessionKey × Int) :=
  match kr.getIncomingPrevKeyExact handle channel with
  | some prev => some prev
  | none => (kr.legacyFallback channel).bind (kr.getIncomingPrevKeyExact handle)

theorem getIncomingPrevKey_eq_some (handle channel : Str) (prev : SessionKey × Int)
    (found : kr.getIncomingPrevKey handle channel = some prev) :
    ∃ row ∈ kr.incoming, row.prev = some prev ∧ IncomingRow.matches handle channel row = true := by
  unfold getIncomingPrevKey getIncomingPrevKeyExact at found
  split at found
  · rename_i here
    cases found
    obtain ⟨row, stored, held⟩ := Option.bind_eq_some_iff.mp here
    obtain ⟨member, filed⟩ := kr.getIncomingRow_matches handle channel channel row stored (Or.inl rfl)
    exact ⟨row, member, held, filed⟩
  · obtain ⟨wire, fallback, here⟩ := Option.bind_eq_some_iff.mp found
    obtain ⟨row, stored, held⟩ := Option.bind_eq_some_iff.mp here
    obtain ⟨member, filed⟩ := kr.getIncomingRow_matches handle wire channel row stored
      (Or.inr (kr.legacyFallback_eq _ _ fallback))
    exact ⟨row, member, held, filed⟩

/-- Whether the nonce was new, and the keyring that now holds it. -/
def recordRekeyNonce (fp : Fingerprint) (channel : Str) (nonce : Bytes) : Bool × Keyring :=
  let row : SeenRekey := ⟨fp, channel, nonce⟩
  (!kr.seenRekeys.rows.contains row, { kr with seenRekeys := kr.seenRekeys.insertOrIgnore row })

def updateIncomingStatus (handle channel : Str) (status : TrustStatus) : Keyring :=
  { kr with
    incoming := kr.incoming.modify (IncomingRow.setStatus handle channel status)
      (IncomingRow.setStatus_key handle channel status) }

theorem mem_updateIncomingStatus (handle channel : Str) (status : TrustStatus) (row : IncomingRow) :
    row ∈ (kr.updateIncomingStatus handle channel status).incoming ↔
      ∃ old ∈ kr.incoming, IncomingRow.setStatus handle channel status old = row :=
  Table.mem_modify _ _ _ (IncomingRow.setStatus_key handle channel status)

def deleteIncomingSession (handle channel : Str) : Keyring :=
  { kr with incoming := kr.incoming.delete (IncomingRow.matches handle channel) }

def deleteIncomingSessionsForHandle (handle : Str) : Nat × Keyring :=
  (kr.incoming.rows.countP fun row => row.session.handle = handle,
    { kr with incoming := kr.incoming.delete fun row => row.session.handle = handle })

def listTrustedPeersForChannelExact (channel : Str) : List IncomingSession :=
  (kr.incoming.rows.filter fun row =>
    row.session.channel = channel && row.session.status = .trusted).map IncomingRow.session

def listTrustedPeersForChannel (channel : Str) : List IncomingSession :=
  let peers := kr.listTrustedPeersForChannelExact channel
  match kr.legacyFallback channel with
  | none => peers
  | some wire => peers ++ (kr.listTrustedPeersForChannelExact wire).filter fun sess =>
      !peers.any fun p => p.handle = sess.handle

end Incoming

section Config

def setChannelConfig (cfg : ChannelConfig) : Keyring :=
  { kr with channelConfig := kr.channelConfig.replace cfg }

def getChannelConfigExact (channel : Str) : Option ChannelConfig := kr.channelConfig.find? channel

/-- A stored context is the wire context under some network's label. -/
def scopedOver (wire channel : Str) : Bool :=
  match splitOnce contextNetSeparator channel with
  | some (_, rest) => rest = wire
  | none => false

def uniqueScopedConfigSibling (wire : Str) : Option Str :=
  match kr.channelConfig.rows.filter fun cfg => scopedOver wire cfg.channel with
  | [only] => some only.channel
  | _ => none

def contextNetwork (context : Str) : Str :=
  match splitOnce contextNetSeparator context with
  | some (net, _) => net
  | none => []

/-- The heal after a label change: the one scoped row of the wire context, when the network it
is filed under is no longer configured. -/
def renamedLabelHeal (wire : Str) : Option ChannelConfig :=
  match kr.uniqueScopedConfigSibling wire with
  | none => none
  | some healed =>
      if kr.configuredNetworks.rows ≠ [] ∧ kr.isConfigured (contextNetwork healed) = false ∧
          isBouncerScope (contextNetwork healed) = false
      then kr.getChannelConfigExact healed else none

def getChannelConfig (channel : Str) : Option ChannelConfig :=
  match kr.getChannelConfigExact channel with
  | some cfg => some cfg
  | none => match legacyWireFallback channel with
      | none => none
      | some wire =>
          match if kr.legacyAdoptionAllowed then kr.getChannelConfigExact wire else none with
          | some cfg => some cfg
          | none => kr.renamedLabelHeal wire

def canonicalChannelContext (context : Str) : Option Str :=
  match kr.channelConfig.find? context with
  | some cfg => some cfg.channel
  | none => (kr.channelConfig.rows.find? fun cfg => eqNocase cfg.channel context).map
      ChannelConfig.channel

def hasEnabledPreviousContext (wire : Str) : Bool :=
  kr.channelConfig.rows.any fun cfg =>
    cfg.enabled && match splitOnce contextNetSeparator cfg.channel with
      | some (network, rest) =>
          eqNocase rest wire && (!isBouncerScope network || !kr.isConfigured network)
      | none => false

end Config

section Autotrust

/-- Strips the trailing stars of a pattern whose input is used up. -/
def onlyStars (pattern : Str) : Bool := pattern.all (· = '*')

/-- One pass of the matcher over the rest of the pattern and of the input; the last star keeps
the pattern after it and the input it was met at. -/
def globLoop : Str → Str → Option (Str × Str) → Bool
  | pattern, [], _ => onlyStars pattern
  | p :: pattern, c :: input, star =>
      if p = '?' ∨ p = c then globLoop pattern input star
      else if p = '*' then globLoop pattern (c :: input) (some (pattern, c :: input))
      else match star with
        | some (after, _ :: retry) => globLoop after retry (some (after, retry))
        | _ => false
  | [], _ :: _, some (after, _ :: retry) => globLoop after retry (some (after, retry))
  | [], _ :: _, _ => false
termination_by pattern input star =>
  (match star with
    | none => input.length + 1
    | some (_, held) => max held.length input.length, input.length + pattern.length)
decreasing_by
  all_goals simp only [Prod.lex_def, List.length_cons]
  all_goals first
    | omega
    | (rcases star with _ | ⟨after, held⟩ <;> simp only <;> omega)

def globMatchesCi (lower : Char → List Char) (pattern input : Str) : Bool :=
  globLoop (pattern.flatMap lower) (input.flatMap lower) none

def globalScope : Str := "global".toList

def autotrustMatches (lower : Char → List Char) (handle channel : Str) : Bool :=
  let legacyScope := (kr.legacyFallback channel).getD channel
  kr.autotrust.rows.any fun rule =>
    (rule.scope = globalScope || rule.scope = channel || rule.scope = legacyScope) &&
      globMatchesCi lower rule.handlePattern handle

def addAutotrust (scope handlePattern : Str) : Keyring :=
  { kr with autotrust := kr.autotrust.insertOrIgnore ⟨scope, handlePattern⟩ }

def removeAutotrust (pattern : Str) : Keyring :=
  { kr with autotrust := kr.autotrust.delete fun rule => rule.handlePattern = pattern }

end Autotrust

section Recipients

def recordOutgoingRecipient (channel handle : Str) (fp : Fingerprint) (firstSentAt : Int) :
    Keyring :=
  { kr with
    recipients := kr.recipients.insertOrMerge ⟨channel, handle, fp, firstSentAt⟩
      (fun old => { old with fingerprint := fp }) fun _ => rfl }

theorem mem_recordOutgoingRecipient (channel handle : Str) (fp : Fingerprint) (firstSentAt : Int)
    (r : OutgoingRecipient) :
    r ∈ (kr.recordOutgoingRecipient channel handle fp firstSentAt).recipients ↔
      (r ∈ kr.recipients ∧ r.key ≠ (channel, handle)) ∨
        (∃ old ∈ kr.recipients, old.key = (channel, handle) ∧ r = { old with fingerprint := fp }) ∨
          (r = ⟨channel, handle, fp, firstSentAt⟩ ∧
            ∀ old ∈ kr.recipients, old.key ≠ (channel, handle)) :=
  Table.mem_insertOrMerge kr.recipients ⟨channel, handle, fp, firstSentAt⟩ r
    (fun old => { old with fingerprint := fp }) fun _ => rfl

def removeOutgoingRecipient (channel handle : Str) : Keyring :=
  { kr with recipients := kr.recipients.delete (OutgoingRecipient.matches channel handle) }

def deleteOutgoingRecipientsForHandle (handle : Str) : Nat × Keyring :=
  (kr.recipients.rows.countP fun r => r.handle = handle,
    { kr with recipients := kr.recipients.delete fun r => r.handle = handle })

def listOutgoingRecipientsExact (channel : Str) : List (Str × Fingerprint) :=
  ((kr.recipients.rows.filter fun r => r.channel = channel).insertionSort fun a b =>
    a.firstSentAt ≤ b.firstSentAt).map fun r => (r.handle, r.fingerprint)

def listOutgoingRecipients (channel : Str) : List (Str × Fingerprint) :=
  let recipients := kr.listOutgoingRecipientsExact channel
  match kr.legacyFallback channel with
  | none => recipients
  | some wire => recipients ++ (kr.listOutgoingRecipientsExact wire).filter fun r =>
      !recipients.any fun known => known.1 = r.1

end Recipients

section DmHandles

def cachedDmHandle (nick network : Str) : Option Str :=
  (kr.dmHandleCache.find? (network, asciiLower nick)).map DmHandle.handle

def legacyHandleForNick (nick : Str) : Option Str :=
  (latestSeen (kr.peers.rows.filter fun rec => (match rec.lastNick with
    | some stored => eqNocase stored nick
    | none => false) && rec.lastHandle.isSome)).bind PeerRecord.lastHandle

def lastHandleForNick (nick network : Str) : Option Str :=
  let cached := kr.cachedDmHandle nick network
  if cached.isSome ∨ isBouncerScope network = true then cached else kr.legacyHandleForNick nick

def previousHandlesForNick (nick : Str) : List Str :=
  (kr.dmHandleCache.rows.filter fun row => eqNocase row.nick nick &&
    (!isBouncerScope row.network || !kr.isConfigured row.network)).map DmHandle.handle

def cacheDmHandle (network nick handle : Str) : Keyring :=
  { kr with
    dmHandleCache := kr.dmHandleCache.insertOrMerge ⟨network, nick, handle⟩
      (fun old => { old with handle := handle }) fun _ => rfl }

end DmHandles

section Adoption

/-- The unscoped channel and handle contexts any context-keyed table holds. -/
def legacyContextValues : List Str :=
  let contexts := kr.channelConfig.rows.map ChannelConfig.channel ++
    kr.outgoing.rows.map OutgoingSession.channel ++
    kr.incoming.rows.map (fun row => row.session.channel) ++
    kr.recipients.rows.map OutgoingRecipient.channel ++
    (kr.autotrust.rows.map AutotrustRule.scope).filter (· ≠ globalScope)
  (contexts.filter fun ctx => !ctx.contains contextNetSeparator &&
    (['@'].isPrefixOf ctx || isChannelTarget ctx)).dedup

def attributeLegacyContext (wire : Str) : Option Str :=
  match stripPrefix ['@'] wire with
  | none => none
  | some handle =>
      match ((kr.dmHandleCache.rows.filter fun row => row.handle = handle).map
          DmHandle.network).dedup with
      | [only] => if kr.isConfigured only then some only else none
      | _ => none

/-- Renames every row filed under the unscoped context; where a scoped row is in the way, the
unscoped one is dropped. -/
def migrateLegacyContext (wire network : Str) : Keyring :=
  let target := scopedContext network wire
  { kr with
    channelConfig := (kr.channelConfig.renameOrIgnore (fun r => r.channel = wire)
      (fun r => { r with channel := target }) fun a b inA inB _ => by
        simp only [decide_eq_true_eq] at inA inB
        rw [inA, inB]).delete fun r => r.channel = wire
    outgoing := (kr.outgoing.renameOrIgnore (fun r => r.channel = wire)
      (fun r => { r with channel := target }) fun a b inA inB _ => by
        simp only [decide_eq_true_eq] at inA inB
        rw [inA, inB]).delete fun r => r.channel = wire
    incoming := (kr.incoming.renameOrIgnore (fun r => r.session.channel = wire)
      (fun r => { r with session := { r.session with channel := target } })
      fun a b inA inB same => by
        simp only [decide_eq_true_eq, IncomingRow.key, Prod.mk.injEq] at inA inB same ⊢
        exact ⟨same.1, inA.trans inB.symm⟩).delete fun r => r.session.channel = wire
    recipients := (kr.recipients.renameOrIgnore (fun r => r.channel = wire)
      (fun r => { r with channel := target }) fun a b inA inB same => by
        simp only [decide_eq_true_eq, OutgoingRecipient.key, Prod.mk.injEq] at inA inB same ⊢
        exact ⟨inA.trans inB.symm, same.2⟩).delete fun r => r.channel = wire
    autotrust := (kr.autotrust.renameOrIgnore (fun r => r.scope = wire)
      (fun r => { r with scope := target }) fun a b inA inB same => by
        simp only [decide_eq_true_eq, AutotrustRule.key, Prod.mk.injEq] at inA inB same ⊢
        exact ⟨inA.trans inB.symm, same.2⟩).delete fun r => r.scope = wire }

/-- One context of the migration: it moves to its owner, or is reported as unattributed. -/
def adoptContext (configured : List Str) (done : List Str × Keyring) (wire : Str) :
    List Str × Keyring :=
  let owner := match configured with
    | [only] => some only
    | _ => done.2.attributeLegacyContext wire
  match owner with
  | some network =>
      if isBouncerScope network then (done.1 ++ [wire], done.2)
      else (done.1, done.2.migrateLegacyContext wire network)
  | none => (done.1 ++ [wire], done.2)

def adoptLegacyContexts : List Str × Keyring :=
  if kr.configuredNetworks.rows = [] then ([], kr)
  else kr.legacyContextValues.foldl (adoptContext kr.configuredNetworks.rows) ([], kr)

end Adoption

end Keyring

end Repartee.E2e
