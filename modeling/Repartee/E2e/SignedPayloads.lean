import Repartee.E2e.HandshakeCodec

/-!
What a signature over a handshake message says: the kind always, the fields when the separators
stand where one channel can end only.
-/

namespace Repartee.E2e

open Text Lib

section Reading

/-- The message without its signature: its kind and the fields the signature covers. -/
def HandshakeMsg.unsigned : HandshakeMsg → HandshakeMsg
  | .req m => .req { m with sig := [] }
  | .rsp m => .rsp { m with sig := [] }
  | .rekey m => .rekey { m with sig := [] }

def HandshakeMsg.pubkey : HandshakeMsg → Bytes
  | .req m => m.pubkey
  | .rsp m => m.pubkey
  | .rekey m => m.pubkey

/-- The signed bytes between the kind and the last separator. -/
def Envelope.body (e : Envelope) : Bytes :=
  utf8 e.channel ++ [colon] ++ e.pubkey ++ [colon] ++ e.ephPub ++ [colon] ++ e.wrapNonce ++
    [colon] ++ e.wrapCt

/-- The bytes can be read with a channel of this length: it is text, and the separators stand where
the fields of fixed length behind it end. -/
structure ChannelEnds (body : Bytes) (n : Nat) : Prop where
  text : ∃ channel, utf8 channel = body.take n
  pubkey : body[n]? = some colon
  ephPub : body[n + 33]? = some colon
  wrapNonce : body[n + 66]? = some colon
  wrapCt : body[n + 91]? = some colon

/-- The signed bytes can be read in one way. -/
def HandshakeMsg.SingleReading : HandshakeMsg → Prop
  | .req _ => True
  | .rsp m => ∀ n, ChannelEnds m.envelope.body n → n = utf8Length m.channel
  | .rekey m => ∀ n, ChannelEnds m.envelope.body n → n = utf8Length m.channel

variable {a b e : Envelope}

theorem body_length (formed : e.WellFormed) :
    e.body.length = utf8Length e.channel + 92 + e.wrapCt.length := by
  have pubkey := formed.pubkey
  have ephPub := formed.ephPub
  have wrapNonce : e.wrapNonce.length = 24 := formed.wrapNonce
  simp only [Envelope.body, List.length_append, List.length_singleton, utf8_length]
  omega

/-- The byte behind a start of known length. -/
theorem behind (front rest : Bytes) (c : UInt8) (n : Nat) (sized : front.length = n) :
    (front ++ c :: rest)[n]? = some c := by
  rw [← sized, List.getElem?_append_right (Nat.le_refl _), Nat.sub_self]
  rfl

theorem channel_ends (formed : e.WellFormed) : ChannelEnds e.body (utf8Length e.channel) := by
  have pubkey := formed.pubkey
  have ephPub := formed.ephPub
  have wrapNonce : e.wrapNonce.length = 24 := formed.wrapNonce
  have channel := utf8_length e.channel
  constructor
  · refine ⟨e.channel, ?_⟩
    simp only [Envelope.body, List.append_assoc, ← channel, List.take_left]
  · have spelled : e.body = utf8 e.channel ++ colon :: (e.pubkey ++ [colon] ++ e.ephPub ++ [colon] ++
        e.wrapNonce ++ [colon] ++ e.wrapCt) := by simp [Envelope.body]
    rw [spelled]
    exact behind _ _ colon _ channel
  · have spelled : e.body = (utf8 e.channel ++ [colon] ++ e.pubkey) ++ colon :: (e.ephPub ++
        [colon] ++ e.wrapNonce ++ [colon] ++ e.wrapCt) := by simp [Envelope.body]
    rw [spelled]
    apply behind
    simp only [List.length_append, List.length_singleton]
    omega
  · have spelled : e.body = (utf8 e.channel ++ [colon] ++ e.pubkey ++ [colon] ++ e.ephPub) ++
        colon :: (e.wrapNonce ++ [colon] ++ e.wrapCt) := by simp [Envelope.body]
    rw [spelled]
    apply behind
    simp only [List.length_append, List.length_singleton]
    omega
  · have spelled : e.body = (utf8 e.channel ++ [colon] ++ e.pubkey ++ [colon] ++ e.ephPub ++
        [colon] ++ e.wrapNonce) ++ colon :: e.wrapCt := by simp [Envelope.body]
    rw [spelled]
    apply behind
    simp only [List.length_append, List.length_singleton]
    omega

/-- The fields the bytes hold behind a channel of this length. -/
def readAt (body : Bytes) (n : Nat) (channel : Str) (nonce : Bytes) : Envelope :=
  ⟨channel, (body.drop (n + 1)).take 32, (body.drop (n + 34)).take 32, (body.drop (n + 67)).take 24,
    body.drop (n + 92), nonce⟩

theorem drop_separator (body : Bytes) (n : Nat) (c : UInt8) (here : body[n]? = some c) :
    n < body.length ∧ body.drop n = [c] ++ body.drop (n + 1) := by
  obtain ⟨inside, is⟩ := List.getElem?_eq_some_iff.mp here
  constructor
  · exact inside
  · rw [List.drop_eq_getElem_cons inside, is]
    rfl

/-- A separator, the field behind it, and the rest. -/
theorem drop_field (body : Bytes) (n k : Nat) (c : UInt8) (here : body[n]? = some c) :
    body.drop n = [c] ++ ((body.drop (n + 1)).take k ++ body.drop (n + 1 + k)) := by
  have rest : body.drop (n + 1 + k) = (body.drop (n + 1)).drop k := List.drop_drop.symm
  rw [(drop_separator body n c here).2, rest, List.take_append_drop]

theorem readAt_body (body : Bytes) (n : Nat) (ends : ChannelEnds body n) (channel : Str)
    (text : utf8 channel = body.take n) (nonce : Bytes) (sized : nonce.length = 16) :
    (readAt body n channel nonce).WellFormed ∧ (readAt body n channel nonce).body = body := by
  have first := drop_field body n 32 colon ends.pubkey
  have second := drop_field body (n + 33) 32 colon ends.ephPub
  have third := drop_field body (n + 66) 24 colon ends.wrapNonce
  obtain ⟨within, fourth⟩ := drop_separator body (n + 91) colon ends.wrapCt
  constructor
  · constructor
    · simp only [readAt, List.length_take, List.length_drop]
      omega
    · simp only [readAt, List.length_take, List.length_drop]
      omega
    · simp only [readAt, List.length_take, List.length_drop, nonceLen]
      omega
    · exact sized
  · symm
    calc body = body.take n ++ body.drop n := (List.take_append_drop n body).symm
      _ = body.take n ++ ([colon] ++ ((body.drop (n + 1)).take 32 ++ body.drop (n + 33))) := by
          rw [first]
      _ = body.take n ++ ([colon] ++ ((body.drop (n + 1)).take 32 ++ ([colon] ++
            ((body.drop (n + 34)).take 32 ++ body.drop (n + 66))))) := by rw [second]
      _ = body.take n ++ ([colon] ++ ((body.drop (n + 1)).take 32 ++ ([colon] ++
            ((body.drop (n + 34)).take 32 ++ ([colon] ++ ((body.drop (n + 67)).take 24 ++
              ([colon] ++ body.drop (n + 92)))))))) := by rw [third, fourth]
      _ = (readAt body n channel nonce).body := by
          simp only [Envelope.body, readAt, text, List.append_assoc]

/-- What the signature of a response or a rekey covers. -/
def Envelope.payload (kind : Str) (e : Envelope) : Bytes :=
  utf8 kind ++ (e.body ++ ([colon] ++ e.nonce))

theorem payload_spelled (kind : Str) (e : Envelope) :
    utf8 kind ++ utf8 e.channel ++ [colon] ++ e.pubkey ++ [colon] ++ e.ephPub ++ [colon] ++
      e.wrapNonce ++ [colon] ++ e.wrapCt ++ [colon] ++ e.nonce = e.payload kind := by
  simp only [Envelope.payload, Envelope.body, List.append_assoc]

/-- Two envelopes that are signed alike have the same bytes and the same nonce. -/
theorem payload_body (kind : Str) (left : a.WellFormed) (right : b.WellFormed)
    (same : a.payload kind = b.payload kind) : a.body = b.body ∧ a.nonce = b.nonce := by
  have tails := List.append_cancel_left same
  obtain ⟨bodies, ends⟩ := List.append_inj' tails (by simp [left.nonce, right.nonce])
  exact ⟨bodies, List.append_cancel_left ends⟩

/-- Envelopes with one reading that are signed alike are the same. -/
theorem single_reading (kind : Str) (left : a.WellFormed) (right : b.WellFormed)
    (single : ∀ n, ChannelEnds a.body n → n = utf8Length a.channel)
    (same : b.payload kind = a.payload kind) : b = a := by
  obtain ⟨bodies, -⟩ := payload_body kind right left same
  have ends := channel_ends right
  rw [bodies] at ends
  have channels := single _ ends
  have lengths := congrArg List.length bodies
  rw [body_length left, body_length right] at lengths
  apply payload_inj kind b a right left
  · omega
  · rw [payload_spelled, payload_spelled, same]

/-- An envelope that can be read in another way is signed like another one. -/
theorem other_reading (kind : Str) (formed : e.WellFormed) (n : Nat) (ends : ChannelEnds e.body n)
    (other : n ≠ utf8Length e.channel) :
    ∃ shifted : Envelope, shifted.WellFormed ∧ shifted.payload kind = e.payload kind ∧
      shifted.channel ≠ e.channel := by
  obtain ⟨channel, text⟩ := ends.text
  obtain ⟨shaped, body⟩ := readAt_body e.body n ends channel text e.nonce formed.nonce
  refine ⟨readAt e.body n channel e.nonce, shaped, ?_, ?_⟩
  · rw [Envelope.payload, body]
    rfl
  · intro same
    have named : channel = e.channel := same
    have inside := (drop_separator e.body n colon ends.pubkey).1
    have length := congrArg List.length text
    rw [List.length_take, utf8_length, named] at length
    omega

end Reading

section Messages

variable {m m' : HandshakeMsg}

def Envelope.toRsp (e : Envelope) (sig : Bytes) : KeyRsp :=
  ⟨e.channel, e.pubkey, e.ephPub, e.wrapNonce, e.wrapCt, e.nonce, sig⟩

def Envelope.toRekey (e : Envelope) (sig : Bytes) : KeyRekey :=
  ⟨e.channel, e.pubkey, e.ephPub, e.wrapNonce, e.wrapCt, e.nonce, sig⟩

theorem rsp_payload (m : KeyRsp) :
    (HandshakeMsg.rsp m).payload = m.envelope.payload "KEYRSP:".toList :=
  payload_spelled _ m.envelope

theorem rekey_payload (m : KeyRekey) :
    (HandshakeMsg.rekey m).payload = m.envelope.payload "REKEY:".toList :=
  payload_spelled _ m.envelope

theorem req_payload (m : KeyReq) :
    ∃ rest, (HandshakeMsg.req m).payload = utf8 "KEYREQ:".toList ++ rest := by
  simp only [HandshakeMsg.payload, signedKeyreqPayload, List.append_assoc]
  exact ⟨_, rfl⟩

/-- All fields of a request have a fixed length but the channel. -/
theorem keyreq_inj (m m' : KeyReq) (left : (HandshakeMsg.req m).Sized)
    (right : (HandshakeMsg.req m').Sized)
    (same : (HandshakeMsg.req m').payload = (HandshakeMsg.req m).payload) :
    (HandshakeMsg.req m').unsigned = (HandshakeMsg.req m).unsigned := by
  obtain ⟨pubkey, ephX25519, nonce, -⟩ := left
  obtain ⟨pubkey', ephX25519', nonce', -⟩ := right
  obtain ⟨same, nonces⟩ := List.append_inj' same (nonce'.trans nonce.symm)
  obtain ⟨same, keys⟩ := List.append_inj' (List.append_inj' same rfl).1
    (ephX25519'.trans ephX25519.symm)
  obtain ⟨same, pubkeys⟩ := List.append_inj' (List.append_inj' same rfl).1
    (pubkey'.trans pubkey.symm)
  have channels := utf8_injective _ _ (List.append_cancel_left (List.append_inj' same rfl).1)
  simp only [HandshakeMsg.unsigned, channels, pubkeys, keys, nonces]

theorem unsigned_of_rsp (m m' : KeyRsp) (same : m'.envelope = m.envelope) :
    (HandshakeMsg.rsp m').unsigned = (HandshakeMsg.rsp m).unsigned := by
  simp only [KeyRsp.envelope, Envelope.mk.injEq] at same
  simp only [HandshakeMsg.unsigned, same]

theorem unsigned_of_rekey (m m' : KeyRekey) (same : m'.envelope = m.envelope) :
    (HandshakeMsg.rekey m').unsigned = (HandshakeMsg.rekey m).unsigned := by
  simp only [KeyRekey.envelope, Envelope.mk.injEq] at same
  simp only [HandshakeMsg.unsigned, same]

theorem unsigned_channel (same : m'.unsigned = m.unsigned) : m'.channel = m.channel := by
  have channels := congrArg HandshakeMsg.channel same
  cases m with
  | req _ => cases m' <;> exact channels
  | rsp _ => cases m' <;> exact channels
  | rekey _ => cases m' <;> exact channels

/-- With one reading, whatever is signed alike is of the same kind and has the same fields. -/
theorem signed_alike (sized : m.Sized) (single : m.SingleReading) (sized' : m'.Sized)
    (same : m'.payload = m.payload) : m'.unsigned = m.unsigned := by
  cases m with
  | req q =>
      cases m' with
      | req q' => exact keyreq_inj q q' sized sized' same
      | rsp r' =>
          obtain ⟨rest, spelled⟩ := req_payload q
          rw [rsp_payload, spelled] at same
          exact absurd same (kinds_differ _ _).1
      | rekey k' =>
          obtain ⟨rest, spelled⟩ := req_payload q
          rw [rekey_payload, spelled] at same
          exact absurd same (kinds_differ _ _).2.2
  | rsp r =>
      cases m' with
      | req q' =>
          obtain ⟨rest, spelled⟩ := req_payload q'
          rw [rsp_payload, spelled] at same
          exact absurd same.symm (kinds_differ _ _).1
      | rsp r' =>
          rw [rsp_payload, rsp_payload] at same
          exact unsigned_of_rsp r r' (single_reading _ sized.1 sized'.1 single same)
      | rekey k' =>
          rw [rsp_payload, rekey_payload] at same
          exact absurd same.symm (kinds_differ _ _).2.1
  | rekey k =>
      cases m' with
      | req q' =>
          obtain ⟨rest, spelled⟩ := req_payload q'
          rw [rekey_payload, spelled] at same
          exact absurd same.symm (kinds_differ _ _).2.2
      | rsp r' =>
          rw [rsp_payload, rekey_payload] at same
          exact absurd same (kinds_differ _ _).2.1
      | rekey k' =>
          rw [rekey_payload, rekey_payload] at same
          exact unsigned_of_rekey k k' (single_reading _ sized.1 sized'.1 single same)

/-- When messages that are signed alike have the same fields, the bytes have one reading. -/
theorem told_apart_single (sized : m.Sized)
    (apart : ∀ m' : HandshakeMsg, m'.Sized → m'.payload = m.payload → m'.unsigned = m.unsigned) :
    m.SingleReading := by
  cases m with
  | req q => trivial
  | rsp r =>
      intro n ends
      by_contra other
      obtain ⟨shifted, formed, same, renamed⟩ :=
        other_reading "KEYRSP:".toList sized.1 n ends other
      have alike : (HandshakeMsg.rsp (shifted.toRsp r.sig)).unsigned =
          (HandshakeMsg.rsp r).unsigned := by
        apply apart (.rsp (shifted.toRsp r.sig)) ⟨formed, sized.2⟩
        rw [rsp_payload, rsp_payload]
        exact same
      exact renamed (unsigned_channel alike)
  | rekey k =>
      intro n ends
      by_contra other
      obtain ⟨shifted, formed, same, renamed⟩ := other_reading "REKEY:".toList sized.1 n ends other
      have alike : (HandshakeMsg.rekey (shifted.toRekey k.sig)).unsigned =
          (HandshakeMsg.rekey k).unsigned := by
        apply apart (.rekey (shifted.toRekey k.sig)) ⟨formed, sized.2⟩
        rw [rekey_payload, rekey_payload]
        exact same
      exact renamed (unsigned_channel alike)

/-- A signature verifies for no text but the one it was made for. -/
def Platform.SignsOneText (P : Platform) : Prop :=
  ∀ {seed text pubkey text' : Bytes},
    verify P pubkey text' (P.signBytes seed text) = .ok () → text' = text

/-- What is signed for a message tells its kind and its fields exactly when its bytes have one
reading, and then its signature verifies for no other message. -/
theorem signed_payload_unambiguous_iff (m : HandshakeMsg) (sized : m.Sized) :
    ((∀ m' : HandshakeMsg, m'.Sized → m'.payload = m.payload → m'.unsigned = m.unsigned) ↔
      m.SingleReading) ∧
    (m.SingleReading → ∀ P : Platform, P.SignsOneText → ∀ (seed : Bytes) (m' : HandshakeMsg),
      m'.Sized → verify P m'.pubkey m'.payload (P.signBytes seed m.payload) = .ok () →
      m'.unsigned = m.unsigned) := by
  constructor
  · constructor
    · exact told_apart_single sized
    · intro single m' sized' same
      exact signed_alike sized single sized' same
  · intro single P one seed m' sized' verified
    exact signed_alike sized single sized' (one verified)

/-- A response whose fields hold no separator. -/
def plainRsp : KeyRsp :=
  ⟨"#x".toList, List.replicate 32 1, List.replicate 32 2, List.replicate 24 3, List.replicate 48 4,
    List.replicate 16 5, List.replicate 64 6⟩

theorem plainRsp_single : (HandshakeMsg.rsp plainRsp).SingleReading := by
  intro n ends
  have few : n < 142 := (drop_separator _ n colon ends.pubkey).1
  have all : ∀ n < 142, plainRsp.envelope.body[n]? = some colon →
      plainRsp.envelope.body[n + 91]? = some colon → n = 2 := by decide +kernel
  exact all n few ends.pubkey ends.wrapCt

/-- A platform whose signatures spell out what was signed. -/
def Platform.spelling : Platform :=
  { Platform.symbolic with
    signBytes := fun seed text => framed seed ++ text
    verifyBytes := fun pubkey text sig => if sig = framed pubkey ++ text then .ok () else .error [] }

theorem spelling_signs : Platform.spelling.SignsOneText := by
  intro seed text pubkey text' verified
  have accepted := (mapError_eq_ok _ _ _).mp verified
  simp only [Platform.spelling] at accepted
  split at accepted
  · rename_i same
    exact (framed_append_inj _ _ _ _ same).2.symm
  · cases accepted

theorem signed_payload_unambiguous_iff_plain :
    (∀ m' : HandshakeMsg, m'.Sized → m'.payload = (HandshakeMsg.rsp plainRsp).payload →
      m'.unsigned = (HandshakeMsg.rsp plainRsp).unsigned) ∧
    ∀ m' : HandshakeMsg, m'.Sized →
      verify .spelling m'.pubkey m'.payload
        (Platform.spelling.signBytes [1] (HandshakeMsg.rsp plainRsp).payload) = .ok () →
      m'.unsigned = (HandshakeMsg.rsp plainRsp).unsigned := by
  have both := signed_payload_unambiguous_iff (.rsp plainRsp) ⟨⟨rfl, rfl, rfl, rfl⟩, rfl⟩
  constructor
  · exact both.1.mpr plainRsp_single
  · exact both.2 plainRsp_single .spelling spelling_signs [1]

/-- A response whose fields begin with separators, and the one with the channel one longer. -/
def separatedRsp : KeyRsp :=
  ⟨"#x".toList, colon :: List.replicate 31 1, colon :: List.replicate 31 2,
    colon :: List.replicate 23 3, colon :: List.replicate 47 4, List.replicate 16 5,
    List.replicate 64 6⟩

def shiftedRsp : KeyRsp :=
  ⟨"#x:".toList, List.replicate 31 1 ++ [colon], List.replicate 31 2 ++ [colon],
    List.replicate 23 3 ++ [colon], List.replicate 47 4, List.replicate 16 5, List.replicate 64 6⟩

theorem shifted_payload_is_the_same :
    ¬∀ m m' : HandshakeMsg, m.Sized → m'.Sized → m'.payload = m.payload →
      m'.unsigned = m.unsigned := by
  intro unambiguous
  have same := unambiguous (.rsp separatedRsp) (.rsp shiftedRsp) ⟨⟨rfl, rfl, rfl, rfl⟩, rfl⟩
    ⟨⟨rfl, rfl, rfl, rfl⟩, rfl⟩ (by decide +kernel)
  exact absurd same (by decide +kernel)

end Messages

end Repartee.E2e
