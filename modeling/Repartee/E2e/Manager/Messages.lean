import Repartee.E2e.Manager.Outgoing

/-!
Building and handling KEYREQ, KEYRSP and REKEY, and decrypting a chunk.
-/

namespace Repartee.E2e

open Text Lib

variable (P : Platform)

def pruneExpiredPending : Action Unit :=
  Prog.change fun w => { w with manager := { w.manager with
    pending := w.manager.pending.retain fun _ ph =>
      w.env.now - ph.createdAt ≤ pendingKeyreqTtlSecs
    pendingInbound := w.manager.pendingInbound.retain fun _ p =>
      w.env.now - p.createdAt ≤ pendingInboundTtlSecs } }

section Keyreq

def buildKeyreqForPeer (channel : Str) (peerHandle : Option Str) : Action KeyReq := do
  pruneExpiredPending
  let nonce ← draw P 16
  let ephSecret ← draw P 32
  let pubkey ← identityPub P
  let seed ← Prog.read fun w => w.manager.identity
  let wireChannel := wireContext channel
  let ephPub := P.xPublic ephSecret
  let sig := P.signBytes seed (signedKeyreqPayload wireChannel pubkey ephPub nonce)
  let now ← nowUnix
  onManager fun m => { m with
    pending := m.pending.insert (channel, nonce) ⟨channel, peerHandle, ephSecret, now⟩ }
  let req : KeyReq := ⟨wireChannel, pubkey, ephPub, nonce, sig⟩
  recordSigned (.req req)
  return req

def buildKeyreq (channel : Str) : Action KeyReq := buildKeyreqForPeer P channel none

def takePendingOutboundKeyreqs : Action (List PendingOutboundKeyReq) :=
  Prog.update fun w => (w.manager.pendingOutboundKeyreqs,
    { w with manager := { w.manager with pendingOutboundKeyreqs := [] } })

def takePendingAcceptRequests : Action (List PendingAcceptRequest) :=
  Prog.update fun w => (w.manager.pendingAcceptRequests,
    { w with manager := { w.manager with pendingAcceptRequests := [] } })

end Keyreq

section Responder

/-- The mode of the channel for this sender, or nothing when encryption is off there. -/
def effectiveChannelMode (senderHandle channel : Str) : Action (Option ChannelMode) := do
  match ← query (·.getChannelConfig channel) with
  | none => return none
  | some cfg =>
      if cfg.enabled = false then return none
      else
        let trusted ← query fun kr => kr.autotrustMatches P.charLowercase senderHandle channel
        if trusted then return some .autoAccept else return some cfg.mode

/-- The standing of a peer that a handshake finds: kept when known, unverified when new. -/
def knownStatus (change : TrustChange) (fp : Fingerprint) : Action TrustStatus :=
  match change with
  | .known => do
      let peer ← query (·.getPeerByFingerprint fp)
      return (peer.map PeerRecord.globalStatus).getD .pending
  | _ => pure .pending

def tofuUpsertOnKeyreq (senderHandle : Str) (senderNick : Option Str) (req : KeyReq)
    (fp : Fingerprint) : Action Unit := do
  let now ← nowUnix
  let change ← classifyPeerChange fp senderHandle
  if change.accepted then
    let globalStatus ← knownStatus change fp
    execute (·.upsertPeer ⟨fp, req.pubkey, some senderHandle, senderNick, now, now, globalStatus⟩)
  else
    recordTrustChange ⟨senderHandle, req.channel, change, change.offeredKey req.pubkey⟩
    Prog.fail (handleMismatchFor change senderHandle)

/-- A strict install; the keyring keeps its rows when the fingerprints differ. -/
def installIncomingSessionStrict (s : IncomingSession) : Action Unit :=
  transact fun env kr => (kr.installIncomingSessionStrict env.now s).map fun kr => ((), kr)

/-- The request waits for the user; its session row is a placeholder until then. A failed
install is only warned about. -/
def cachePendingInboundNormalMode (senderHandle : Str) (senderNick : Option Str) (req : KeyReq)
    (fp : Fingerprint) : Action Unit := do
  let now ← nowUnix
  let _ ← Prog.attempt (installIncomingSessionStrict
    ⟨senderHandle, req.channel, fp, zeroKey, .pending, now⟩)
  pruneExpiredPending
  onManager fun m => { m with
    pendingInbound := m.pendingInbound.insert (senderHandle, req.channel) ⟨req, now⟩ }
  onManager fun m => { m with
    pendingAcceptRequests :=
      m.pendingAcceptRequests ++ [⟨senderNick, senderHandle, req.channel⟩] }

def trustedIncoming (handle channel : Str) : Action Bool :=
  query fun kr => (kr.getIncomingSession handle channel).any fun s => s.status = .trusted

/-- Wraps our key for the sender of a request and signs the response. -/
def wrapForRequest (req : KeyReq) (ourSk : SessionKey) : Action KeyRsp := do
  let ourEphSecret ← draw P 32
  let wireChannel := wireContext req.channel
  let info := wrapInfo wireChannel
  let wrapKey := deriveWrapKey P ourEphSecret req.ephX25519 info
  let (wrapNonce, wrapCt) ← aeadSeal P wrapKey info ourSk
  let ourPubkey ← identityPub P
  let rspNonce ← draw P 16
  let seed ← Prog.read fun w => w.manager.identity
  let ourEphPub := P.xPublic ourEphSecret
  let sig := P.signBytes seed
    (signedKeyrspPayload wireChannel ourPubkey ourEphPub wrapNonce wrapCt rspNonce)
  let rsp : KeyRsp := ⟨wireChannel, ourPubkey, ourEphPub, wrapNonce, wrapCt, rspNonce, sig⟩
  recordSigned (.rsp rsp)
  return rsp

/-- After a response we ask for the other direction, unless it is a direct message, is
established already, or the peer was asked too recently. -/
def queueReciprocal (senderHandle channel : Str) : Action Unit := do
  let alreadyIncoming ← trustedIncoming senderHandle channel
  let allowOut ← allowOutgoing senderHandle
  let isDm := ['@'].isPrefixOf (wireContext channel)
  Prog.onlyIf (!isDm && !alreadyIncoming && allowOut) do
    let reciprocal ← buildKeyreqForPeer P channel (some senderHandle)
    onManager fun m => { m with
      pendingOutboundKeyreqs := m.pendingOutboundKeyreqs ++ [⟨senderHandle, channel, reciprocal⟩] }

/-- The answer to a request the policy lets through: our key, the recipient row, the response
and the reciprocal request. -/
def serveRequest (senderHandle : Str) (req : KeyReq) : Action KeyRsp := do
  let ourSk ← getOrGenerateOutgoingKey P req.channel
  let now ← nowUnix
  execute (·.recordOutgoingRecipient req.channel senderHandle (fingerprint P req.pubkey) now)
  let rsp ← wrapForRequest P req ourSk
  queueReciprocal P senderHandle req.channel
  return rsp

def handleKeyreqWithNick (senderHandle : Str) (senderNick : Option Str) (req : KeyReq) :
    Action (Option KeyRsp) := do
  let allowed ← allowIncoming senderHandle
  Prog.ensure allowed (.rateLimit senderHandle)
  Prog.lift (verify P req.pubkey
    (signedKeyreqPayload (wireContext req.channel) req.pubkey req.ephX25519 req.nonce) req.sig)
  match ← effectiveChannelMode P senderHandle req.channel with
  | none => return none
  | some effectiveMode =>
      let fp := fingerprint P req.pubkey
      tofuUpsertOnKeyreq senderHandle senderNick req fp
      let alreadyTrusted ← trustedIncoming senderHandle req.channel
      if effectiveMode = .autoAccept ∨ alreadyTrusted = true then
        let rsp ← serveRequest P senderHandle req
        return some rsp
      else if effectiveMode = .normal then
        cachePendingInboundNormalMode senderHandle senderNick req fp
        return none
      else return none

def handleKeyreq (senderHandle : Str) (req : KeyReq) : Action (Option KeyRsp) :=
  handleKeyreqWithNick P senderHandle none req

def buildKeyrspForAcceptedRequest (senderHandle : Str) (req : KeyReq) : Action KeyRsp := do
  let fp := fingerprint P req.pubkey
  let now ← nowUnix
  let existingPeer ← query (·.getPeerByFingerprint fp)
  execute (·.upsertPeer
    { fingerprint := fp
      pubkey := req.pubkey
      lastHandle := some senderHandle
      lastNick := existingPeer.bind PeerRecord.lastNick
      firstSeen := (existingPeer.map PeerRecord.firstSeen).getD now
      lastSeen := now
      globalStatus := .trusted })
  serveRequest P senderHandle req

def acceptPendingInbound (senderHandle channel : Str) : Action (Option KeyRsp) := do
  pruneExpiredPending
  let cached ← Prog.update fun w => (w.manager.pendingInbound.get? (senderHandle, channel),
    { w with manager := { w.manager with
      pendingInbound := w.manager.pendingInbound.erase (senderHandle, channel) } })
  match cached with
  | none => return none
  | some entry =>
      let rsp ← buildKeyrspForAcceptedRequest P senderHandle entry.req
      return some rsp

end Responder

section Initiator

/-- The key a pending secret unwraps from a response, if it does. -/
def unwrapKeyrsp (rsp : KeyRsp) (ephSecret : Bytes) : Option SessionKey :=
  let info := wrapInfo (wireContext rsp.channel)
  let wrapKey := deriveWrapKey P ephSecret rsp.ephemeralPub info
  match decrypt P wrapKey rsp.wrapNonce info rsp.wrapCt with
  | .ok sk => if sk.length = keyLen then some sk else none
  | .error _ => none

def matchPending (rsp : KeyRsp) (pending : List ((Str × Bytes) × PendingHandshake)) :
    Option (SessionKey × (Str × Bytes)) :=
  pending.findSome? fun entry =>
    if entry.1.1 = rsp.channel then
      (unwrapKeyrsp P rsp entry.2.ephX25519Secret).map fun sk => (sk, entry.1)
    else none

def consumeMatchingPendingForKeyrsp (rsp : KeyRsp) : Action SessionKey := do
  pruneExpiredPending
  let pending ← Prog.read fun w => w.manager.pending.rows
  Prog.ensure (pending.any fun entry => entry.1.1 = rsp.channel)
    (.handshake "no pending handshake for channel".toList)
  match matchPending P rsp pending with
  | none =>
      Prog.fail (.crypto "KEYRSP did not match any pending handshake for channel".toList)
  | some (sk, matchedKey) =>
      onManager fun m => { m with pending := m.pending.erase matchedKey }
      return sk

def tofuUpsertOnKeyrsp (senderHandle : Str) (rsp : KeyRsp) (fp : Fingerprint) (now : Int) :
    Action Unit := do
  let change ← classifyPeerChange fp senderHandle
  if change.accepted then
    execute (·.upsertPeer ⟨fp, rsp.pubkey, some senderHandle, none, now, now, .trusted⟩)
  else
    recordTrustChange ⟨senderHandle, rsp.channel, change, change.offeredKey rsp.pubkey⟩
    Prog.fail (handleMismatchFor change senderHandle)

def E2eError.isHandleMismatch : E2eError → Bool
  | .handleMismatch _ _ => true
  | _ => false

/-- The install of a response; a mismatch with the stored row becomes a warning. -/
def installFromKeyrsp (senderHandle : Str) (rsp : KeyRsp) (sess : IncomingSession) :
    Action Unit := do
  match ← Prog.attempt (installIncomingSessionStrict sess) with
  | .ok () => return ()
  | .error e =>
      if e.isHandleMismatch then
        let existing ← query (·.getIncomingSession senderHandle rsp.channel)
        let existingFp := (existing.map IncomingSession.fingerprint).getD (List.replicate 16 0)
        recordTrustChange ⟨senderHandle, rsp.channel,
          .fingerprintChanged senderHandle existingFp sess.fingerprint, some rsp.pubkey⟩
        Prog.fail e
      else Prog.fail e

def handleKeyrsp (senderHandle : Str) (rsp : KeyRsp) : Action Unit := do
  Prog.lift (verify P rsp.pubkey (signedKeyrspPayload (wireContext rsp.channel) rsp.pubkey
    rsp.ephemeralPub rsp.wrapNonce rsp.wrapCt rsp.nonce) rsp.sig)
  let sk ← consumeMatchingPendingForKeyrsp P rsp
  let fp := fingerprint P rsp.pubkey
  let now ← nowUnix
  tofuUpsertOnKeyrsp senderHandle rsp fp now
  installFromKeyrsp senderHandle rsp ⟨senderHandle, rsp.channel, fp, sk, .trusted, now⟩

/-- The key a REKEY unwraps to under our long-term identity. -/
def unwrapRekey (identity : Bytes) (rekey : KeyRekey) : Except E2eError SessionKey :=
  let info := rekeyInfo (wireContext rekey.channel)
  let wrapKey := deriveWrapKey P (P.toScalar identity) rekey.ephPub info
  match decrypt P wrapKey rekey.wrapNonce info rekey.wrapCt with
  | .error e => .error e
  | .ok sk =>
      if sk.length = keyLen then .ok sk
      else .error (.crypto ("rekey sk has unexpected length ".toList ++ natText sk.length))

/-- A REKEY goes on only when its sender is exactly the peer we know. -/
def requireKnownSender (senderHandle : Str) (rekey : KeyRekey) (change : TrustChange) :
    Action Unit :=
  match change with
  | .new => Prog.fail (.handshake "REKEY from unknown peer; ignoring".toList)
  | .known => pure ()
  | change => do
      recordTrustChange ⟨senderHandle, rekey.channel, change, change.offeredKey rekey.pubkey⟩
      Prog.fail (handleMismatchFor change senderHandle)

def handleRekey (senderHandle : Str) (rekey : KeyRekey) : Action Unit := do
  Prog.lift (verify P rekey.pubkey (signedKeyrekeyPayload (wireContext rekey.channel) rekey.pubkey
    rekey.ephPub rekey.wrapNonce rekey.wrapCt rekey.nonce) rekey.sig)
  let newFp := fingerprint P rekey.pubkey
  let change ← classifyPeerChange newFp senderHandle
  requireKnownSender senderHandle rekey change
  let first ← executeGet (·.recordRekeyNonce newFp rekey.channel rekey.nonce)
  Prog.ensure first
    (.handshake "REKEY replay detected (nonce already consumed); ignoring".toList)
  let identity ← Prog.read fun w => w.manager.identity
  let newSk ← Prog.lift (unwrapRekey P identity rekey)
  let now ← nowUnix
  installIncomingSessionStrict ⟨senderHandle, rekey.channel, newFp, newSk, .trusted, now⟩

end Initiator

section Decrypt

inductive DecryptOutcome where
  | plaintext (text : Str)
  | missingKey (handle channel : Str)
  | rejected (reason : Str)
  deriving DecidableEq

def utf8OrReject (pt : Bytes) : DecryptOutcome :=
  match fromUtf8 pt with
  | some text => .plaintext text
  | none => .rejected ("utf8: ".toList ++ P.utf8Error pt)

def TrustStatus.debug : TrustStatus → Str
  | .pending => "Pending".toList
  | .trusted => "Trusted".toList
  | .revoked => "Revoked".toList

/-- The chunk under the session's key, or inside the grace window under the one it replaced. -/
def decryptUnder (senderHandle channel : Str) (wire : WireChunk) (sess : IncomingSession)
    (now : Int) : Action DecryptOutcome :=
  let aad := buildAad (wireContext channel) wire.msgid wire.ts wire.part wire.total
  match decrypt P sess.sk wire.nonce aad wire.ciphertext with
  | .ok pt => pure (utf8OrReject P pt)
  | .error e => do
      let rejected := DecryptOutcome.rejected ("aead failed: ".toList ++ match e with
        | .crypto text => "crypto error: ".toList ++ text
        | _ => [])
      match ← query (·.getIncomingPrevKey senderHandle channel) with
      | none => return rejected
      | some (prevSk, replacedAt) =>
          if now - replacedAt ≤ rekeyPrevKeyGraceSecs then
            match decrypt P prevSk wire.nonce aad wire.ciphertext with
            | .ok pt => return utf8OrReject P pt
            | .error _ => return rejected
          else return rejected

/-- The distance of two times in signed 64-bit integers, as a build without overflow checks leaves
it when a difference or an absolute value does not fit. -/
def timestampSkew (now ts : Int) : Int :=
  wrapI64 (wrapI64 (now - ts)).natAbs

def decryptIncoming (senderHandle channel wireLine : Str) : Action DecryptOutcome := do
  match ← Prog.lift (WireChunk.parse P wireLine) with
  | none => return .plaintext wireLine
  | some wire =>
      let now ← nowUnix
      let tolerance ← Prog.read fun w => w.manager.tsToleranceSecs
      let skew := timestampSkew now wire.ts
      if tolerance < skew then
        return .rejected ("ts outside tolerance window (".toList ++ intText skew ++
          "s skew)".toList)
      else match ← query (·.getIncomingSession senderHandle channel) with
        | none => return .missingKey senderHandle channel
        | some sess =>
            if sess.status ≠ .trusted then
              return .rejected ("peer not trusted (status=".toList ++
                sess.status.debug ++ ")".toList)
            else decryptUnder P senderHandle channel wire sess now

end Decrypt

end Repartee.E2e
