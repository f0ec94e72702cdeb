import Repartee.Fields
import Repartee.E2e.Symbolic
import Repartee.E2e.Writes.Ops

/-!
An encrypted message arrives: its lines are numbered, each opens alone to a piece of the text, and
the pieces spell the text.
-/

namespace Repartee.E2e

open Text Lib

/-- What is sealed opens, what is encoded decodes, and draws have the length asked for. -/
structure Platform.Faithful (P : Platform) : Prop where
  opens : ∀ {key nonce aad text ct : Bytes}, P.aeadEncrypt key nonce aad text = .ok ct →
    P.aeadDecrypt key nonce aad ct = .ok text
  base64 : ∀ bytes, P.base64Decode (P.base64 bytes) = .ok bytes
  base64_plain : ∀ bytes, ∀ c ∈ P.base64 bytes, isWhitespace c = false ∧ c ≠ ':'
  random : ∀ n length, (P.random n length).length = length

/-- What is encoded decodes, and holds neither white space nor the mark between two texts. -/
structure Platform.Transcribes (P : Platform) : Prop where
  decodes : ∀ bytes, P.base64Decode (P.base64 bytes) = .ok bytes
  plain : ∀ bytes, ∀ c ∈ P.base64 bytes, isWhitespace c = false ∧ c ≠ ':'

variable {P : Platform}

theorem Platform.Faithful.transcribes (faithful : P.Faithful) : P.Transcribes :=
  ⟨faithful.base64, faithful.base64_plain⟩

section Line

theorem natText_splitOnce (n : Nat) (rest : Str) :
    splitOnce '/' (natText n ++ '/' :: rest) = some (natText n, rest) := by
  apply splitOnce_append
  intro slash
  exact absurd rfl (digit_ne '/' '/' (natText_digits n '/' slash) (by decide))

/-- The fields of a chunk are read back. -/
theorem parseFields_encoded (codes : P.Transcribes) (chunk : WireChunk)
    (msgid : chunk.msgid.length = 8) (nonce : chunk.nonce.length = 24) (ts : FitsI64 chunk.ts)
    (total : ¬(chunk.total = 0 ∨ maxChunks < chunk.total))
    (part : ¬(chunk.part = 0 ∨ chunk.total < chunk.part)) :
    WireChunk.parseFields P (hexEncode chunk.msgid) (intText chunk.ts)
      (natText chunk.part ++ '/' :: natText chunk.total)
      (P.base64 chunk.nonce ++ ':' :: P.base64 chunk.ciphertext) = .ok chunk := by
  have few : chunk.total ≤ 16 := by
    have most : maxChunks = 16 := rfl
    omega
  have id : decodeMsgid P (hexEncode chunk.msgid) = .ok chunk.msgid := by
    rw [decodeMsgid, if_neg (by rw [utf8Length_hexEncode, msgid]; simp), hexDecode_hexEncode]
  have numbers : splitField '/' "part/total missing slash".toList
      (natText chunk.part ++ '/' :: natText chunk.total) =
        .ok (natText chunk.part, natText chunk.total) := by
    rw [splitField, natText_splitOnce]
  have body : splitField ':' "missing nonce:ct separator".toList
      (P.base64 chunk.nonce ++ ':' :: P.base64 chunk.ciphertext) =
        .ok (P.base64 chunk.nonce, P.base64 chunk.ciphertext) := by
    have clean : ':' ∉ P.base64 chunk.nonce := fun member =>
      (codes.plain chunk.nonce ':' member).2 rfl
    rw [splitField, splitOnce_append _ _ _ clean]
  have opened (bytes : Bytes) : decodeBase64 P (P.base64 bytes) = .ok bytes := by
    rw [decodeBase64, codes.decodes]
    rfl
  have sized : decodeChunkNonce P (P.base64 chunk.nonce) = .ok chunk.nonce := by
    simp [decodeChunkNonce, opened, nonce, bind, Except.bind]
  have range : ¬(chunk.total = 0 ∨ maxChunks < chunk.total ∨ chunk.part = 0 ∨
      chunk.total < chunk.part) := by omega
  simp only [WireChunk.parseFields, id, parseI64_intText _ ts, numbers, body, opened, sized,
    parseU8_natText _ (show chunk.part ≤ 255 by omega),
    parseU8_natText _ (show chunk.total ≤ 255 by omega), Except.mapError, bind, Except.bind,
    if_neg range, pure, Except.pure]

/-- A line carries the chunk it was made from. -/
theorem parse_encode (codes : P.Transcribes) (chunk : WireChunk) (line : Str)
    (msgid : chunk.msgid.length = 8) (nonce : chunk.nonce.length = 24) (ts : FitsI64 chunk.ts)
    (encoded : chunk.encode P = .ok line) : WireChunk.parse P line = .ok (some chunk) := by
  unfold WireChunk.encode at encoded
  split at encoded
  · cases encoded
  · rename_i total
    split at encoded
    · cases encoded
    · rename_i part
      let words : List Str := [hexEncode chunk.msgid, intText chunk.ts,
        natText chunk.part ++ '/' :: natText chunk.total,
        P.base64 chunk.nonce ++ ':' :: P.base64 chunk.ciphertext]
      have spelled : line = wirePrefix ++ words.flatMap fun word => ' ' :: word := by
        simpa [words] using (Except.ok.inj encoded).symm
      have plain : ∀ word ∈ words, word ≠ [] ∧ ∀ c ∈ word, isWhitespace c = false := by
        intro word member
        simp only [words, List.mem_cons, List.not_mem_nil, or_false] at member
        rcases member with rfl | rfl | rfl | rfl
        · refine ⟨?_, hexEncode_plain _⟩
          intro none
          have size := utf8Length_hexEncode chunk.msgid
          rw [none, msgid] at size
          cases size
        · exact ⟨intText_ne_nil _, intText_plain _⟩
        · refine ⟨by simp, ?_⟩
          intro c member
          simp only [List.mem_append, List.mem_cons] at member
          rcases member with first | rfl | second
          · exact natText_plain _ c first
          · decide
          · exact natText_plain _ c second
        · refine ⟨by simp, ?_⟩
          intro c member
          simp only [List.mem_append, List.mem_cons] at member
          rcases member with first | rfl | second
          · exact (codes.plain _ c first).1
          · decide
          · exact (codes.plain _ c second).1
      rw [spelled, WireChunk.parse, stripPrefix_append]
      simp only [splitWhitespace_words words plain]
      simp only [words, parseFields_encoded codes chunk msgid nonce ts total part, Except.map]

end Line

section Receiving

/-- A client that takes messages under the key: it holds a trusted session with it, its clock is
within the tolerance of the time stamp, and its next keyring call answers. -/
structure Listens (r : World) (handle context : Str) (sk : SessionKey) (ts : Int) : Prop where
  session : ∃ sess, r.manager.keyring.getIncomingSession handle context = some sess ∧
    sess.sk = sk ∧ sess.status = .trusted
  clock : timestampSkew r.env.now ts ≤ r.manager.tsToleranceSecs
  answers : ∀ text rest, r.env.faults ≠ some text :: rest

theorem query_answers (r : World) {α : Type} (f : Keyring → α)
    (answers : ∀ text rest, r.env.faults ≠ some text :: rest) :
    query f r = (.ok (f r.manager.keyring), r.tick) := by
  unfold query transact
  cases faults : r.env.faults with
  | nil => rfl
  | cons fault rest =>
      cases fault with
      | none => rfl
      | some text => exact absurd faults (answers text rest)

/-- A line is one chunk of a message: it has its number, its text fits a chunk, and every client
that takes messages under the key and the wire context reads the text from it. -/
structure Arrives (P : Platform) (sk : SessionKey) (wire : Str) (ts : Int) (part total : Nat)
    (text line : Str) : Prop where
  fits : utf8Length text ≤ maxPlaintextPerChunk
  numbered : ∃ chunk, WireChunk.parse P line = .ok (some chunk) ∧ chunk.part = part ∧
    chunk.total = total ∧ chunk.ts = ts
  opens : ∀ r handle context, wireContext context = wire → Listens r handle context sk ts →
    (decryptIncoming P handle context line r).1 = .ok (.plaintext text)

/-- A sealed and encoded chunk arrives. -/
theorem arrives_encoded (faithful : P.Faithful) (sk : SessionKey) (channel text line : Str)
    (chunk : WireChunk) (msgid : chunk.msgid.length = 8) (nonce : chunk.nonce.length = 24)
    (ts : FitsI64 chunk.ts) (fits : utf8Length text ≤ maxPlaintextPerChunk)
    (encoded : chunk.encode P = .ok line)
    (sealed : P.aeadEncrypt sk chunk.nonce
      (buildAad (wireContext channel) chunk.msgid chunk.ts chunk.part chunk.total) (utf8 text) =
        .ok chunk.ciphertext) :
    Arrives P sk (wireContext channel) chunk.ts chunk.part chunk.total text line where
  fits := fits
  numbered := ⟨chunk, parse_encode faithful.transcribes chunk line msgid nonce ts encoded, rfl, rfl,
    rfl⟩
  opens := by
    intro r handle context same listens
    have parsed := parse_encode faithful.transcribes chunk line msgid nonce ts encoded
    obtain ⟨sess, found, rfl, trusted⟩ := listens.session
    have opened := faithful.opens sealed
    have read : decrypt P sess.sk chunk.nonce
        (buildAad (wireContext context) chunk.msgid chunk.ts chunk.part chunk.total)
        chunk.ciphertext = .ok (utf8 text) := by
      rw [decrypt, same, opened]
      rfl
    have current : ¬r.manager.tsToleranceSecs < timestampSkew r.env.now chunk.ts :=
      not_lt.mpr listens.clock
    have run : Prog.After r (decryptIncoming P handle context line)
        (fun outcome _ => outcome = .plaintext text) fun _ _ => False := by
      unfold decryptIncoming
      rw [parsed]
      apply (Prog.after_bind _ _).mpr
      refine (Prog.after_lift _).mpr ⟨?_, fun e none => by cases none⟩
      intro wire same
      cases same
      apply (Prog.after_bind _ _).mpr
      apply (Prog.after_read _).mpr
      apply (Prog.after_bind _ _).mpr
      apply (Prog.after_read _).mpr
      refine (Prog.after_ite _ _ _).mpr ⟨fun late => absurd late current, fun _ => ?_⟩
      apply (Prog.after_bind _ _).mpr
      rw [Prog.After, query_answers r _ listens.answers]
      simp only [found, trusted, ne_eq, not_true_eq_false, if_false, decryptUnder, read,
        utf8OrReject, fromUtf8_utf8, Prog.after_pure]
    revert run
    unfold Prog.After
    rcases decryptIncoming P handle context line r with ⟨result, after⟩
    cases result with
    | ok outcome => exact fun same => congrArg Except.ok same
    | error e => exact False.elim

end Receiving

section Sending

variable {w : World}

/-- The keyring and the clock stay as they are. -/
structure KeepsKeyring (w w' : World) : Prop where
  keyring : w'.manager.keyring = w.manager.keyring
  now : w'.env.now = w.env.now

instance : IsPreorder World KeepsKeyring where
  refl _ := ⟨rfl, rfl⟩
  trans _ _ _ first second := ⟨second.keyring.trans first.keyring, second.now.trans first.now⟩

theorem keeps_query {α : Type} (f : Keyring → α) :
    Prog.Ensures KeepsKeyring w (query f) fun a _ => a = f w.manager.keyring :=
  ensures_query f ⟨rfl, rfl⟩ rfl

theorem keeps_draw (length : Nat) : Prog.Ensures KeepsKeyring w (draw P length) fun a _ =>
    a = P.random w.env.draws length :=
  Prog.ensures_update _ ⟨rfl, rfl⟩ rfl

theorem keeps_seal (key aad text : Bytes) :
    Prog.Ensures KeepsKeyring w (aeadSeal P key aad text) fun a _ =>
      P.aeadEncrypt key a.1 aad text = .ok a.2 ∧ ∃ n, a.1 = P.random n nonceLen := by
  apply (keeps_draw nonceLen).bind
  intro nonce w' _ drawn
  apply Prog.ensures_lift_bind
  intro ct outcome
  exact Prog.ensures_pure _ ⟨(mapError_eq_ok _ _ _).mp outcome, _, drawn⟩

theorem keeps_buildRekey (channel : Str) (peer : PeerRecord) (sk : SessionKey) :
    Prog.Ensures KeepsKeyring w (buildRekeyForPeer P channel peer sk) fun _ _ => True := by
  apply (keeps_draw 32).bind
  intro ephSk w₁ _ _
  apply Prog.ensures_lift_bind
  intro peerPub _
  apply (keeps_seal _ _ _).bind
  intro wrap w₂ _ _
  apply (keeps_draw 16).bind
  intro nonce w₃ _ _
  exact ⟨⟨rfl, rfl⟩, trivial⟩

theorem keeps_distributeTo (channel : Str) (fresh : SessionKey) (recipient : Str × Fingerprint) :
    Prog.Ensures KeepsKeyring w (distributeTo P channel fresh recipient) fun _ _ => True := by
  apply (keeps_query _).bind
  intro found w₁ _ _
  cases found with
  | none => exact Prog.ensures_pure _ trivial
  | some peer =>
      apply (Prog.ensures_attempt (keeps_buildRekey channel peer fresh)).bind
      intro result w₂ _ _
      cases result with
      | ok rekey => exact ⟨⟨rfl, rfl⟩, trivial⟩
      | error e => exact Prog.ensures_pure _ trivial

theorem keeps_distribute (channel : Str) (fresh : SessionKey) :
    Prog.Ensures KeepsKeyring w (distribute P channel fresh) fun _ _ => True := by
  apply (keeps_query _).bind
  intro recipients w₁ _ _
  exact Prog.ensures_each (fun _ => True) recipients
    (fun recipient _ w' _ _ => keeps_distributeTo channel fresh recipient) trivial

/-- The key a context sends under, with no rotation due. -/
def SendsUnder (w : World) (channel : Str) (sk : SessionKey) : Prop :=
  ∃ sess, w.manager.keyring.getOutgoingSession channel = some sess ∧ sess.sk = sk ∧
    sess.pendingRotation = false

theorem SendsUnder.kept {w w' : World} {channel : Str} {sk : SessionKey}
    (sends : SendsUnder w channel sk) (keeps : KeepsKeyring w w') : SendsUnder w' channel sk := by
  unfold SendsUnder
  rw [keeps.keyring]
  exact sends

/-- The clock stays as it is. -/
def KeepsClock (w w' : World) : Prop := w'.env.now = w.env.now

instance : IsPreorder World KeepsClock where
  refl _ := rfl
  trans _ _ _ first second := Eq.trans second first

theorem keepsClock {α : Type} {m : Action α} {Post : α → World → Prop}
    (keeps : Prog.Ensures KeepsKeyring w m Post) :
    Prog.Ensures KeepsClock w m fun a w' => Post a w' ∧ KeepsKeyring w w' :=
  keeps.mono (fun _ moved => moved.now) fun _ _ moved post => ⟨post, moved⟩

/-- A key that is generated is the one the context sends under. -/
theorem generateOutgoingKey_sends (channel : Str) :
    Prog.Ensures KeepsClock w (generateOutgoingKey P channel) fun sk w' =>
      SendsUnder w' channel sk := by
  unfold generateOutgoingKey
  apply (keepsClock (keeps_query _)).bind
  intro again w₁ _ _
  apply (keepsClock (keeps_draw keyLen)).bind
  intro fresh w₂ _ _
  apply Prog.ensures_bind (fun _ _ => True)
  · exact ⟨rfl, trivial⟩
  intro _ w₃ _ _
  apply Prog.ensures_read_bind
  apply Prog.ensures_bind (fun _ w' => SendsUnder w' channel fresh)
  · apply ensures_execute
    · rfl
    · rfl
    · refine ⟨⟨channel, fresh, w₃.env.now, false⟩, ?_, rfl, rfl⟩
      simp [World.setKeyring, Keyring.setOutgoingSession, Keyring.getOutgoingSession,
        Keyring.getOutgoingSessionExact]
  · intro _ w₄ _ sends
    apply Prog.ensures_bind (fun _ w' => SendsUnder w' channel fresh)
    · apply Prog.ensures_onlyIf
      · intro _
        apply (keepsClock (keeps_distribute channel fresh)).post
        exact fun _ _ _ kept => sends.kept kept.2
      · exact fun _ => sends
    · exact fun _ w₅ _ sends => Prog.ensures_pure fresh sends

theorem getOrGenerateOutgoingKey_sends (channel : Str) :
    Prog.Ensures KeepsClock w (getOrGenerateOutgoingKey P channel) fun sk w' =>
      SendsUnder w' channel sk := by
  unfold getOrGenerateOutgoingKey
  apply (keepsClock (keeps_query _)).bind
  intro found w₁ _ read
  cases found with
  | none => exact generateOutgoingKey_sends channel
  | some sess =>
      apply Prog.ensures_ite
      · exact fun _ => generateOutgoingKey_sends channel
      · intro fresh
        apply Prog.ensures_pure
        exact SendsUnder.kept ⟨sess, read.1.symm, rfl, by simpa using fresh⟩ read.2

/-- A key in use is used again. -/
theorem getOrGenerateOutgoingKey_again (channel : Str) (sk : SessionKey)
    (sends : SendsUnder w channel sk) :
    Prog.Ensures KeepsClock w (getOrGenerateOutgoingKey P channel) fun sk' w' =>
      sk' = sk ∧ SendsUnder w' channel sk := by
  obtain ⟨sess, found, rfl, fresh⟩ := sends
  unfold getOrGenerateOutgoingKey
  apply (keepsClock (keeps_query _)).bind
  intro answer w₁ _ read
  rw [read.1, found]
  simp only [fresh]
  apply Prog.ensures_pure
  exact ⟨rfl, SendsUnder.kept ⟨sess, found, rfl, fresh⟩ read.2⟩

end Sending

section Messages

variable {w : World}

theorem encryptChunk_arrives (faithful : P.Faithful) (sk : SessionKey) (channel : Str)
    (msgid : Bytes) (ts : Int) (total part : Nat) (plain : Str) (sized : msgid.length = 8)
    (clock : FitsI64 ts) (fits : utf8Length plain ≤ maxPlaintextPerChunk) :
    Prog.Ensures KeepsKeyring w (encryptChunk P sk channel msgid ts total part plain)
      fun line _ => Arrives P sk (wireContext channel) ts part total plain line := by
  unfold encryptChunk
  apply (keeps_seal _ _ _).bind
  intro wrapped w' _ sealed
  obtain ⟨opens, n, drawn⟩ := sealed
  apply Prog.ensures_lift
  intro line encoded
  have nonce : wrapped.1.length = 24 := by rw [drawn, faithful.random, nonceLen]
  exact arrives_encoded faithful sk channel plain line ⟨msgid, ts, part, total, wrapped.1, wrapped.2⟩
    sized nonce clock fits encoded opens

/-- The lines of a message: as many as there are pieces, numbered from one, each the line of its
piece. -/
structure Sent (P : Platform) (sk : SessionKey) (wire : Str) (ts : Int) (text : Str)
    (chunks lines : List Str) : Prop where
  spelled : chunks.flatten = text
  count : chunks.length = lines.length
  some : 1 ≤ lines.length
  few : lines.length ≤ maxChunks
  arrives : List.Forall₂ (fun piece line => Arrives P sk wire ts piece.1 lines.length piece.2 line)
    ((List.range' 1 lines.length).zip chunks) lines

/-- The lines of a message arrive under the key the context sends under after it. -/
theorem encryptOutgoing_sent (faithful : P.Faithful) (clock : FitsI64 w.env.now)
    (channel plaintext : Str) (key : SessionKey → Prop)
    (agreed : Prog.Ensures KeepsClock w (getOrGenerateOutgoingKey P channel) fun sk w' =>
      key sk ∧ SendsUnder w' channel sk) :
    Prog.Ensures KeepsClock w (encryptOutgoing P channel plaintext) fun lines w' =>
      ∃ sk chunks, key sk ∧ SendsUnder w' channel sk ∧ splitPlaintext plaintext = .ok chunks ∧
        Sent P sk (wireContext channel) w.env.now plaintext chunks lines := by
  unfold encryptOutgoing
  apply agreed.bind
  intro sk w₁ ticked known
  apply Prog.ensures_lift_bind
  intro chunks split
  obtain ⟨spelled, small, some, few⟩ := splitPlaintextBudget_spells _ _ _ split
  apply Prog.ensures_guard_bind
  intro _
  apply Prog.ensures_guard_bind
  intro _
  apply (keepsClock (keeps_draw 8)).bind
  intro msgid w₂ ticked' drawn
  apply Prog.ensures_read_bind
  have now : w₂.env.now = w.env.now := Eq.trans ticked' ticked
  rw [now]
  have sized : msgid.length = 8 := by rw [drawn.1, faithful.random]
  have sealed : Prog.Ensures KeepsKeyring w₂ (Prog.collect
      (fun piece => encryptChunk P sk channel msgid w.env.now chunks.length piece.1 piece.2)
      ((List.range' 1 chunks.length).zip chunks))
      fun lines _ => List.Forall₂ (fun piece line => Arrives P sk (wireContext channel) w.env.now
        piece.1 chunks.length piece.2 line) ((List.range' 1 chunks.length).zip chunks) lines ∧
          True := by
    apply Prog.ensures_collect_each
    · intro piece member s _ _
      have fits := small piece.2 (List.of_mem_zip member).2
      apply (encryptChunk_arrives faithful sk channel msgid w.env.now chunks.length piece.1 piece.2
        sized clock fits).post
      exact fun line _ _ arrives => ⟨arrives, trivial⟩
    · trivial
  apply (keepsClock sealed).post
  intro lines w₃ _ done
  obtain ⟨⟨arrives, _⟩, kept⟩ := done
  have count : chunks.length = lines.length := by simpa using arrives.length_eq
  refine ⟨sk, chunks, known.1, (known.2.kept drawn.2).kept kept, split, spelled, count, ?_, ?_, ?_⟩
  · exact count ▸ some
  · exact count ▸ few
  · exact count ▸ arrives

theorem actionPrefix_length : utf8Length actionPrefix = 8 := by decide

/-- A text that fits a chunk is sent in one line, which is part one of one. -/
theorem encryptOutgoing_one (faithful : P.Faithful) (clock : FitsI64 w.env.now)
    (channel plaintext : Str) (some : plaintext ≠ [])
    (short : utf8Length plaintext ≤ maxPlaintextPerChunk) (key : SessionKey → Prop)
    (agreed : Prog.Ensures KeepsClock w (getOrGenerateOutgoingKey P channel) fun sk w' =>
      key sk ∧ SendsUnder w' channel sk) :
    Prog.Ensures KeepsClock w (encryptOutgoing P channel plaintext) fun lines w' =>
      ∃ sk line, key sk ∧ SendsUnder w' channel sk ∧ lines = [line] ∧
        Arrives P sk (wireContext channel) w.env.now 1 1 plaintext line := by
  apply (encryptOutgoing_sent faithful clock channel plaintext key agreed).post
  intro lines w' _ sent
  obtain ⟨sk, chunks, known, sends, split, sent⟩ := sent
  rw [splitPlaintext_short plaintext some short] at split
  cases split
  have one := sent.count
  cases lines with
  | nil => cases one
  | cons line rest =>
      have none : rest = [] := List.eq_nil_of_length_eq_zero (by simpa using one.symm)
      subst none
      have arrives := sent.arrives
      simp only [List.length_singleton, List.range'_one, List.zip_cons_cons, List.zip_nil_left,
        List.forall₂_cons, List.Forall₂.nil, and_true] at arrives
      exact ⟨sk, line, known, sends, rfl, arrives⟩

/-- The frame of an action. -/
def actionFrame (body : Str) : Str := actionPrefix ++ body ++ [ctcpDelimiter]

theorem utf8Length_actionFrame (body : Str) : utf8Length (actionFrame body) = utf8Length body + 9 := by
  have last : utf8Length [ctcpDelimiter] = 1 := by decide
  rw [actionFrame, utf8Length_append, utf8Length_append, actionPrefix_length, last]
  omega

theorem actionFrame_ne_nil (body : Str) : actionFrame body ≠ [] := by
  simp [actionFrame, actionPrefix]

/-- The lines of an action: each is a whole frame, and their bodies spell the body. -/
structure Acted (P : Platform) (sk : SessionKey) (wire : Str) (ts : Int) (body : Str)
    (bodies lines : List Str) : Prop where
  spelled : bodies.flatten = body
  arrives : List.Forall₂ (fun piece line => Arrives P sk wire ts 1 1 (actionFrame piece) line)
    bodies lines

/-- A piece of an action is sent in one line. -/
def OneLine (P : Platform) (sk : SessionKey) (wire : Str) (ts : Int) (piece : Str)
    (lines : List Str) : Prop :=
  ∃ line, lines = [line] ∧ Arrives P sk wire ts 1 1 (actionFrame piece) line

theorem anyKey (channel : Str) : Prog.Ensures KeepsClock w (getOrGenerateOutgoingKey P channel)
    fun sk w' => True ∧ SendsUnder w' channel sk :=
  (getOrGenerateOutgoingKey_sends channel).post fun _ _ _ sends => ⟨trivial, sends⟩

theorem encryptPieces_again (faithful : P.Faithful) (clock : FitsI64 w.env.now) (channel : Str)
    (sk : SessionKey) (pieces : List Str)
    (fits : ∀ piece ∈ pieces, utf8Length (actionFrame piece) ≤ maxPlaintextPerChunk)
    (sends : SendsUnder w channel sk) :
    Prog.Ensures KeepsClock w
      (Prog.collect (fun piece => encryptOutgoing P channel (actionFrame piece)) pieces)
      fun lines w' => List.Forall₂ (OneLine P sk (wireContext channel) w.env.now) pieces lines ∧
        SendsUnder w' channel sk := by
  apply Prog.ensures_collect_each fun w' => SendsUnder w' channel sk
  · intro piece member w' ticked sends
    have now : w'.env.now = w.env.now := ticked
    have sent := encryptOutgoing_one faithful (now ▸ clock) channel _ (actionFrame_ne_nil piece)
      (fits piece member) (fun key => key = sk)
      ((getOrGenerateOutgoingKey_again channel sk sends).post fun _ _ _ known =>
        ⟨known.1, known.1 ▸ known.2⟩)
    apply sent.post
    intro lines w'' _ sent
    obtain ⟨sk', line, rfl, sends, one, arrives⟩ := sent
    exact ⟨⟨line, one, now ▸ arrives⟩, sends⟩
  · exact sends

theorem encryptPieces_one (faithful : P.Faithful) (clock : FitsI64 w.env.now) (channel : Str)
    (pieces : List Str) (some : pieces ≠ [])
    (fits : ∀ piece ∈ pieces, utf8Length (actionFrame piece) ≤ maxPlaintextPerChunk) :
    Prog.Ensures KeepsClock w
      (Prog.collect (fun piece => encryptOutgoing P channel (actionFrame piece)) pieces)
      fun lines w' => ∃ sk,
        List.Forall₂ (OneLine P sk (wireContext channel) w.env.now) pieces lines ∧
          SendsUnder w' channel sk := by
  cases pieces with
  | nil => exact absurd rfl some
  | cons first rest =>
      have head := encryptOutgoing_one faithful clock channel _ (actionFrame_ne_nil first)
        (fits first List.mem_cons_self) (fun _ => True) (anyKey channel)
      apply head.bind
      intro lines w₁ ticked sent
      obtain ⟨sk, line, _, sends, one, arrives⟩ := sent
      have now : w₁.env.now = w.env.now := ticked
      have tail := encryptPieces_again faithful (now ▸ clock) channel sk rest
        (fun piece member => fits piece (List.mem_cons_of_mem first member)) sends
      apply tail.bind
      intro others w₂ _ later
      rw [now] at later
      exact Prog.ensures_pure _ ⟨sk, List.Forall₂.cons ⟨line, one, arrives⟩ later.1, later.2⟩

theorem flatten_oneLine (sk : SessionKey) (wire : Str) (ts : Int) (pieces : List Str)
    (lines : List (List Str)) (each : List.Forall₂ (OneLine P sk wire ts) pieces lines) :
    List.Forall₂ (fun piece line => Arrives P sk wire ts 1 1 (actionFrame piece) line) pieces
      lines.flatten := by
  induction each with
  | nil => exact List.Forall₂.nil
  | cons head _ ih =>
      obtain ⟨line, rfl, arrives⟩ := head
      exact List.Forall₂.cons arrives ih

theorem encryptOutgoingCtcp_acted (faithful : P.Faithful) (clock : FitsI64 w.env.now)
    (channel body : Str) :
    Prog.Ensures KeepsClock w (encryptOutgoingCtcp P channel (actionFrame body)) fun lines w' =>
      ∃ sk bodies, SendsUnder w' channel sk ∧
        Acted P sk (wireContext channel) w.env.now body bodies lines := by
  unfold encryptOutgoingCtcp
  apply Prog.ensures_ite
  · intro short
    apply (encryptOutgoing_one faithful clock channel _ (actionFrame_ne_nil body) short
      (fun _ => True) (anyKey channel)).post
    intro lines w' _ sent
    obtain ⟨sk, line, _, sends, rfl, arrives⟩ := sent
    exact ⟨sk, [body], sends, by simp, List.Forall₂.cons arrives List.Forall₂.nil⟩
  · intro _
    have inner : (stripPrefix actionPrefix (actionFrame body)).bind (stripSuffix [ctcpDelimiter]) =
        some body := by
      rw [actionFrame, List.append_assoc, stripPrefix_append, Option.bind_some, stripSuffix_append]
    rw [inner]
    apply Prog.ensures_lift_bind
    intro pieces split
    obtain ⟨spelled, small, positive, _⟩ := splitPlaintextBudget_spells _ _ _ split
    have fits (piece : Str) (member : piece ∈ pieces) :
        utf8Length (actionFrame piece) ≤ maxPlaintextPerChunk := by
      have budget := small piece member
      have room : maxPlaintextPerChunk - actionFraming = 171 := by decide
      have most : maxPlaintextPerChunk = 180 := rfl
      rw [utf8Length_actionFrame]
      omega
    apply (encryptPieces_one faithful clock channel pieces (List.ne_nil_of_length_pos positive)
      fits).bind
    intro lines w' _ sent
    obtain ⟨sk, each, sends⟩ := sent
    exact Prog.ensures_pure _ ⟨sk, pieces, sends, spelled, flatten_oneLine _ _ _ _ _ each⟩

/-- What is encrypted arrives: every message as numbered lines whose pieces spell it, and every
action as lines that are whole frames by themselves and whose bodies spell its body. -/
theorem encrypted_messages_arrive (P : Platform) (faithful : P.Faithful) (w : World)
    (clock : FitsI64 w.env.now) (channel : Str) :
    (∀ plaintext lines w', encryptOutgoing P channel plaintext w = (.ok lines, w') →
      ∃ sk chunks, SendsUnder w' channel sk ∧
        Sent P sk (wireContext channel) w.env.now plaintext chunks lines) ∧
    ∀ body lines w', encryptOutgoingCtcp P channel (actionFrame body) w = (.ok lines, w') →
      ∃ sk bodies, SendsUnder w' channel sk ∧
        Acted P sk (wireContext channel) w.env.now body bodies lines := by
  constructor
  · intro plaintext lines w' outcome
    have sent := encryptOutgoing_sent faithful clock channel plaintext (fun _ => True)
      (anyKey channel)
    obtain ⟨_, sk, chunks, _, sends, _, sent⟩ := sent.result outcome
    exact ⟨sk, chunks, sends, sent⟩
  · intro body lines w' outcome
    exact ((encryptOutgoingCtcp_acted faithful clock channel body).result outcome).2

theorem lettered_plain (bytes : Bytes) :
    ∀ c ∈ lettered bytes, 0x100 ≤ c.toNat ∧ c.toNat < 0x200 := by
  intro c member
  obtain ⟨b, _, rfl⟩ := List.mem_map.mp member
  have bound := b.toNat_lt
  rw [Char.toNat_ofNat, if_pos (Or.inl (by omega))]
  omega

theorem symbolic_faithful : Platform.symbolic.Faithful where
  opens {key nonce aad text ct} sealed := by
    simp only [Platform.symbolic, Except.ok.injEq] at sealed ⊢
    simp only [← sealed, unframeAll, List.append_assoc, unframe_framed, Option.bind_some]
  base64 bytes := by
    have all : (lettered bytes).all fun c => decide (0x100 ≤ c.toNat ∧ c.toNat < 0x200) := by
      simpa using lettered_plain bytes
    have read : (lettered bytes).map (fun c => UInt8.ofNat (c.toNat - 0x100)) = bytes := by
      simp only [lettered, List.map_map]
      apply List.map_id''
      intro b
      have bound := b.toNat_lt
      have value : (Char.ofNat (b.toNat + 0x100)).toNat = b.toNat + 0x100 := by
        rw [Char.toNat_ofNat, if_pos (Or.inl (by omega))]
      simp [value]
    simp only [Platform.symbolic, unlettered, if_pos all, read]
  base64_plain bytes c member := by
    have bounds := lettered_plain bytes c member
    constructor
    · simp only [isWhitespace, Bool.or_eq_false_iff, Bool.and_eq_false_iff,
        decide_eq_false_iff_not, beq_eq_false_iff_ne]
      omega
    · intro colon
      rw [colon] at bounds
      exact absurd bounds.1 (by decide)
  random n length := by simp [Platform.symbolic]

theorem encrypted_messages_arrive_two_lines :
    let w := World.fresh aliceSeed 300
    let text := List.replicate 200 'a'
    ∃ lines w' sk chunks, encryptOutgoing .symbolic room text w = (.ok lines, w') ∧
      SendsUnder w' room sk ∧ Sent .symbolic sk "#room".toList w.env.now text chunks lines := by
  intro w text
  have clock : FitsI64 w.env.now := ⟨by decide, by decide⟩
  have sends : (encryptOutgoing .symbolic room text w).1.isOk = true := by decide +kernel
  rcases outcome : encryptOutgoing .symbolic room text w with ⟨result, w'⟩
  rw [outcome] at sends
  cases result with
  | error e => cases sends
  | ok lines =>
      obtain ⟨sk, chunks, sends, sent⟩ :=
        (encrypted_messages_arrive .symbolic symbolic_faithful w clock room).1 text lines w' outcome
      exact ⟨lines, w', sk, chunks, rfl, sends, sent⟩

end Messages

end Repartee.E2e
