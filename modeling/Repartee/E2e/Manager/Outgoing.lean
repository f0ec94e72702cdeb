import Repartee.E2e.Manager.Trust

/-!
The outgoing key of a context, its rotation and distribution, and the encryption of a message.
-/

namespace Repartee.E2e

open Text Lib

variable (P : Platform)

def wrapInfo (channel : Str) : Bytes := utf8 ("RPE2E01-WRAP:".toList ++ channel)

def rekeyInfo (channel : Str) : Bytes := utf8 ("RPE2E01-REKEY:".toList ++ channel)

section Rotation

def buildRekeyForPeer (channel : Str) (peer : PeerRecord) (newSk : SessionKey) :
    Action KeyRekey := do
  let ephSk ← draw P 32
  let peerX25519Pub ← Prog.lift (ed25519PubToX25519 P peer.pubkey)
  let wireChannel := wireContext channel
  let info := rekeyInfo wireChannel
  let wrapKey := deriveWrapKey P ephSk peerX25519Pub info
  let (wrapNonce, wrapCt) ← aeadSeal P wrapKey info newSk
  let nonce ← draw P 16
  let pubkey ← identityPub P
  let seed ← Prog.read fun w => w.manager.identity
  let ephPub := P.xPublic ephSk
  let sig := P.signBytes seed
    (signedKeyrekeyPayload wireChannel pubkey ephPub wrapNonce wrapCt nonce)
  let rekey : KeyRekey := ⟨wireChannel, pubkey, ephPub, wrapNonce, wrapCt, nonce, sig⟩
  recordSigned (.rekey rekey)
  return rekey

def queueRekey (channel handle : Str) (rekey : KeyRekey) : Action Unit := do
  let entry : PendingRekeySend := ⟨handle, ctcpFrame (encodeKeyrekey P rekey)⟩
  onManager fun m => { m with pendingRekeySends := m.pendingRekeySends ++ [entry] }
  onLedger fun l => { l with queued := l.queued ++ [(channel, entry)] }

/-- Queues the new key for one recipient. A recipient without a peer row, or whose message
cannot be built, is skipped with a warning. -/
def distributeTo (channel : Str) (fresh : SessionKey) (recipient : Str × Fingerprint) :
    Action Unit := do
  match ← query (·.getPeerByFingerprint recipient.2) with
  | none => return ()
  | some peer => match ← Prog.attempt (buildRekeyForPeer P channel peer fresh) with
      | .ok rekey => queueRekey P channel recipient.1 rekey
      | .error _ => return ()

def distribute (channel : Str) (fresh : SessionKey) : Action Unit := do
  let recipients ← query (·.listOutgoingRecipients channel)
  Prog.each (distributeTo P channel fresh) recipients

/-- Draws and stores a key; when it replaces one flagged for rotation it is distributed. -/
def generateOutgoingKey (channel : Str) : Action SessionKey := do
  let again ← query (·.getOutgoingSession channel)
  let fresh ← draw P keyLen
  onLedger fun l => { l with generated := l.generated ++ [(channel, fresh)] }
  let now ← nowUnix
  execute (·.setOutgoingSession channel fresh now)
  Prog.onlyIf (again.any OutgoingSession.pendingRotation) (distribute P channel fresh)
  return fresh

def getOrGenerateOutgoingKey (channel : Str) : Action SessionKey := do
  match ← query (·.getOutgoingSession channel) with
  | some sess => if sess.pendingRotation then generateOutgoingKey P channel else return sess.sk
  | none => generateOutgoingKey P channel

def takePendingRekeySends : Action (List PendingRekeySend) :=
  Prog.update fun w =>
    (w.manager.pendingRekeySends, { w with manager := { w.manager with pendingRekeySends := [] } })

end Rotation

section Encrypt

def encryptChunk (sk : SessionKey) (channel : Str) (msgid : Bytes) (ts : Int) (total : Nat)
    (part : Nat) (plain : Str) : Action Str := do
  let aad := buildAad (wireContext channel) msgid ts part total
  let (nonce, ct) ← aeadSeal P sk aad (utf8 plain)
  Prog.lift (WireChunk.encode P ⟨msgid, ts, part, total, nonce, ct⟩)

def encryptOutgoing (channel plaintext : Str) : Action (List Str) := do
  let sk ← getOrGenerateOutgoingKey P channel
  let chunks ← Prog.lift (splitPlaintext plaintext)
  Prog.ensure (decide (chunks.length ≤ 255)) (.chunkLimit 255)
  Prog.ensure (decide (chunks.length ≠ 0)) (.wire "chunker produced zero chunks".toList)
  let msgid ← draw P 8
  let ts ← nowUnix
  Prog.collect (fun (part, plain) => encryptChunk P sk channel msgid ts chunks.length part plain)
    ((List.range' 1 chunks.length).zip chunks)

def actionPrefix : Str := ctcpDelimiter :: "ACTION ".toList
def actionFraming : Nat := actionPrefix.length + 1

def encryptOutgoingCtcp (channel frame : Str) : Action (List Str) :=
  if utf8Length frame ≤ maxPlaintextPerChunk then encryptOutgoing P channel frame
  else match (stripPrefix actionPrefix frame).bind (stripSuffix [ctcpDelimiter]) with
    | none =>
        Prog.fail (.wire "CTCP frame exceeds one encrypted chunk and cannot be split".toList)
    | some body => do
        let pieces ← Prog.lift (splitPlaintextBudget body (maxPlaintextPerChunk - actionFraming))
        let lines ← Prog.collect (fun piece =>
          encryptOutgoing P channel (actionPrefix ++ piece ++ [ctcpDelimiter])) pieces
        return lines.flatten

end Encrypt

end Repartee.E2e
