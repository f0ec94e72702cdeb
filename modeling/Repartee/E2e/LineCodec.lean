import Repartee.E2e.Chunks
import Repartee.Lib.Base64

/-!
The line of an encrypted chunk and its associated data: the chunk can be read back from the line,
and the associated data of two chunks differ when the chunks do.
-/

namespace Repartee.E2e

open Text Lib

variable {P : Platform}

section Codec

/-- The ranges of the fields of a chunk: those of their types and those of a line's numbering. -/
structure WireChunk.Valid (chunk : WireChunk) : Prop where
  msgid : chunk.msgid.length = 8
  ts : FitsI64 chunk.ts
  part : 1 ≤ chunk.part
  ordered : chunk.part ≤ chunk.total
  total : chunk.total ≤ maxChunks
  nonce : chunk.nonce.length = 24

theorem encode_valid (chunk : WireChunk) (valid : chunk.Valid) :
    ∃ line, chunk.encode P = .ok line := by
  have part := valid.part
  have ordered := valid.ordered
  have total := valid.total
  have counted : ¬(chunk.total = 0 ∨ maxChunks < chunk.total) := by omega
  have numbered : ¬(chunk.part = 0 ∨ chunk.total < chunk.part) := by omega
  rw [WireChunk.encode, if_neg counted, if_neg numbered]
  exact ⟨_, rfl⟩

theorem decodeMsgid_length (text : Str) (msgid : Bytes) (decoded : decodeMsgid P text = .ok msgid) :
    msgid.length = 8 := by
  unfold decodeMsgid at decoded
  split at decoded
  · cases decoded
  · rename_i sixteen
    split at decoded
    · rename_i read
      cases decoded
      have size := hexDecode_length text msgid read
      omega
    · cases decoded

theorem decodeChunkNonce_length (text : Str) (nonce : Bytes)
    (decoded : decodeChunkNonce P text = .ok nonce) : nonce.length = 24 := by
  obtain ⟨raw, -, checked⟩ := (bind_eq_ok _ _ _).mp decoded
  split at checked
  · cases checked
  · rename_i fits
    cases checked
    exact not_not.mp fits

/-- Every field that is read is in its range. -/
theorem parseFields_valid (msgidHex tsStr parttot body : Str) (chunk : WireChunk)
    (parsed : WireChunk.parseFields P msgidHex tsStr parttot body = .ok chunk) : chunk.Valid := by
  obtain ⟨msgid, msgidIs, parsed⟩ := (bind_eq_ok _ _ _).mp parsed
  obtain ⟨ts, tsIs, parsed⟩ := (bind_eq_ok _ _ _).mp parsed
  obtain ⟨⟨p, t⟩, -, parsed⟩ := (bind_eq_ok _ _ _).mp parsed
  obtain ⟨part, -, parsed⟩ := (bind_eq_ok _ _ _).mp parsed
  obtain ⟨total, -, parsed⟩ := (bind_eq_ok _ _ _).mp parsed
  split at parsed
  · cases parsed
  · rename_i range
    obtain ⟨⟨nonceText, ctText⟩, -, parsed⟩ := (bind_eq_ok _ _ _).mp parsed
    obtain ⟨nonce, nonceIs, parsed⟩ := (bind_eq_ok _ _ _).mp parsed
    obtain ⟨ciphertext, -, parsed⟩ := (bind_eq_ok _ _ _).mp parsed
    cases parsed
    have read := (mapError_eq_ok _ _ _).mp tsIs
    have some : 1 ≤ part := by omega
    have ordered : part ≤ total := by omega
    have few : total ≤ maxChunks := by omega
    exact ⟨decodeMsgid_length msgidHex msgid msgidIs, parseI64_fits tsStr ts read, some, ordered,
      few, decodeChunkNonce_length nonceText nonce nonceIs⟩

theorem parse_valid (line : Str) (chunk : WireChunk)
    (parsed : WireChunk.parse P line = .ok (some chunk)) : chunk.Valid := by
  unfold WireChunk.parse at parsed
  split at parsed
  · cases parsed
  · split at parsed
    · cases parsed
    · cases parsed
    · cases parsed
    · cases parsed
    · rename_i msgidHex tsStr parttot body _
      cases fields : WireChunk.parseFields P msgidHex tsStr parttot body with
      | error e =>
          rw [fields] at parsed
          cases parsed
      | ok read =>
          rw [fields] at parsed
          cases parsed
          exact parseFields_valid msgidHex tsStr parttot body chunk fields
    · cases parsed

theorem valid_round_trip (codes : P.Transcribes) (chunk : WireChunk) (valid : chunk.Valid) :
    ∃ line, chunk.encode P = .ok line ∧ WireChunk.parse P line = .ok (some chunk) := by
  obtain ⟨line, encoded⟩ := encode_valid (P := P) chunk valid
  exact ⟨line, encoded, parse_encode codes chunk line valid.msgid valid.nonce valid.ts encoded⟩

/-- The line of a valid chunk is read as that chunk; a chunk that is read is valid, so its own line
is read as the same chunk. -/
theorem wire_chunk_codec (P : Platform) (codes : P.Transcribes) :
    (∀ chunk : WireChunk, chunk.Valid →
      ∃ line, chunk.encode P = .ok line ∧ WireChunk.parse P line = .ok (some chunk)) ∧
    (∀ line chunk, WireChunk.parse P line = .ok (some chunk) →
      (∃ text, chunk.encode P = .ok text ∧ WireChunk.parse P text = .ok (some chunk)) ∧
      chunk.part ≠ 0 ∧ chunk.total ≠ 0 ∧ chunk.part ≤ chunk.total ∧ chunk.total ≤ maxChunks) := by
  constructor
  · intro chunk valid
    exact valid_round_trip codes chunk valid
  · intro line chunk parsed
    have valid := parse_valid line chunk parsed
    have part := valid.part
    have ordered := valid.ordered
    exact ⟨valid_round_trip codes chunk valid, by omega, by omega, ordered, valid.total⟩

/-- A platform whose Base64 is the standard one. -/
def Platform.standard : Platform :=
  { Platform.symbolic with
    base64 := Base64.encode
    base64Decode := fun text => match Base64.decode text with
      | some bytes => .ok bytes
      | none => .error "Invalid symbol".toList }

theorem standard_transcribes : Platform.standard.Transcribes where
  decodes bytes := by
    simp only [Platform.standard, Base64.decode_encode]
  plain bytes := by
    have letters : ∀ n < 64, isWhitespace (Base64.letter n) = false ∧ Base64.letter n ≠ ':' := by
      decide +kernel
    exact Base64.encode_all _ letters (by decide) bytes

theorem wire_chunk_codec_standard :
    (∀ chunk : WireChunk, chunk.Valid → ∃ line, chunk.encode .standard = .ok line ∧
      WireChunk.parse .standard line = .ok (some chunk)) ∧
    (∀ line chunk, WireChunk.parse .standard line = .ok (some chunk) →
      (∃ text, chunk.encode .standard = .ok text ∧
        WireChunk.parse .standard text = .ok (some chunk)) ∧
      chunk.part ≠ 0 ∧ chunk.total ≠ 0 ∧ chunk.part ≤ chunk.total ∧ chunk.total ≤ maxChunks) :=
  wire_chunk_codec .standard standard_transcribes

end Codec

section AssociatedData

/-- The bytes of two numbers agree only when the numbers agree up to the width. -/
theorem bigEndian_inj (width x y : Nat) (same : bigEndian width x = bigEndian width y) :
    x % 256 ^ width = y % 256 ^ width := by
  induction width with
  | zero => simp [Nat.mod_one]
  | succ width ih =>
      simp only [bigEndian, List.cons.injEq] at same
      have low := ih same.2
      have high : x / 256 ^ width % 256 = y / 256 ^ width % 256 := by
        have bytes := congrArg UInt8.toNat same.1
        simpa using bytes
      calc x % 256 ^ (width + 1)
          = x % 256 ^ width + 256 ^ width * (x / 256 ^ width % 256) := by rw [pow_succ, Nat.mod_mul]
        _ = y % 256 ^ width + 256 ^ width * (y / 256 ^ width % 256) := by rw [low, high]
        _ = y % 256 ^ (width + 1) := by rw [pow_succ, Nat.mod_mul]

@[simp] theorem length_bigEndian (width n : Nat) : (bigEndian width n).length = width := by
  induction width with
  | zero => rfl
  | succ width ih => rw [bigEndian, List.length_cons, ih]

@[simp] theorem length_lengthPrefixed (bytes : Bytes) :
    (lengthPrefixed bytes).length = 2 + bytes.length := by
  rw [lengthPrefixed, List.length_append, length_bigEndian]

/-- Whatever the prefix says, the field stands behind it. -/
theorem lengthPrefixed_inj (a b : Bytes) (same : lengthPrefixed a = lengthPrefixed b) : a = b :=
  (List.append_inj same (by rw [length_bigEndian, length_bigEndian])).2

theorem timestampBytes_inj (a b : Int) (left : FitsI64 a) (right : FitsI64 b)
    (same : timestampBytes a = timestampBytes b) : a = b := by
  have wrapped := bigEndian_inj 8 _ _ same
  have lower := left.1
  have upper := left.2
  have lower' := right.1
  have upper' := right.2
  omega

/-- Where a chunk belongs: what its associated data is made of, in the ranges of the types. -/
structure ChunkAddress where
  channel : Str
  msgid : Bytes
  ts : Int
  part : Nat
  total : Nat
  msgidLength : msgid.length = 8
  tsFits : FitsI64 ts
  partFits : part < 2 ^ 8
  totalFits : total < 2 ^ 8

def ChunkAddress.aad (address : ChunkAddress) : Bytes :=
  buildAad address.channel address.msgid address.ts address.part address.total

theorem byte_inj (m n : Nat) (left : m < 2 ^ 8) (right : n < 2 ^ 8)
    (same : lengthPrefixed [UInt8.ofNat m] = lengthPrefixed [UInt8.ofNat n]) : m = n := by
  have bytes := congrArg UInt8.toNat (List.cons.inj (lengthPrefixed_inj _ _ same)).1
  rwa [toNat_ofNat_lt m left, toNat_ofNat_lt n right] at bytes

/-- All fields behind the channel have a fixed length, so the length of the whole tells where the
channel ends, also when its prefix is cut to the largest length it can say. -/
theorem aad_injective : Function.Injective ChunkAddress.aad := by
  intro a b same
  have msgids := a.msgidLength.trans b.msgidLength.symm
  obtain ⟨same, total⟩ := List.append_inj' same (by simp)
  obtain ⟨same, part⟩ := List.append_inj' same (by simp)
  obtain ⟨same, ts⟩ := List.append_inj' same (by simp [timestampBytes])
  obtain ⟨same, msgid⟩ := List.append_inj' same (by simp [msgids])
  have channel := lengthPrefixed_inj _ _ (List.append_cancel_left same)
  have channels := utf8_injective _ _ channel
  have ids := lengthPrefixed_inj _ _ msgid
  have stamps := timestampBytes_inj a.ts b.ts a.tsFits b.tsFits (lengthPrefixed_inj _ _ ts)
  have parts := byte_inj a.part b.part a.partFits b.partFits part
  have totals := byte_inj a.total b.total a.totalFits b.totalFits total
  cases a
  cases b
  simp only at channels ids stamps parts totals
  subst channels ids stamps parts totals
  rfl

/-- A sealed text opens only under the associated data it was sealed with. -/
def Platform.Binds (P : Platform) : Prop :=
  ∀ {key nonce aad text ct key' nonce' aad' text' : Bytes},
    P.aeadEncrypt key nonce aad text = .ok ct → P.aeadDecrypt key' nonce' aad' ct = .ok text' →
      aad' = aad

theorem chunk_opens_where_it_belongs :
    Function.Injective ChunkAddress.aad ∧
    ∀ P : Platform, P.Binds → ∀ (a b : ChunkAddress) (key nonce text ct key' nonce' text' : Bytes),
      P.aeadEncrypt key nonce a.aad text = .ok ct →
      decrypt P key' nonce' b.aad ct = .ok text' → b = a := by
  constructor
  · exact aad_injective
  · intro P binds a b key nonce text ct key' nonce' text' encrypted opened
    have read := (mapError_eq_ok _ _ _).mp opened
    exact aad_injective (binds encrypted read)

theorem symbolic_binds : Platform.symbolic.Binds := by
  intro key nonce aad text ct key' nonce' aad' text' encrypted opened
  have spelled := symbolic_opened _ _ _ _ _ opened
  simp only [Platform.symbolic, Except.ok.injEq, List.append_assoc] at encrypted
  rw [← encrypted] at spelled
  have tail := (framed_append_inj _ _ _ _ (framed_append_inj _ _ _ _ spelled).2).2
  exact (framed_append_inj _ _ _ _ tail).1.symm

/-- One of the two chunks of a message. -/
def chunkOfTwo (part : Nat) (fits : part < 2 ^ 8) : ChunkAddress :=
  ⟨"#room".toList, List.replicate 8 1, 1700000000, part, 2, rfl, ⟨by decide, by decide⟩, fits,
    by decide⟩

theorem chunk_opens_where_it_belongs_second :
    (decrypt .symbolic [7] [9] (chunkOfTwo 2 (by decide)).aad
      (framed [7] ++ framed [9] ++ framed (chunkOfTwo 1 (by decide)).aad ++ [1])).isOk = false := by
  cases opened : decrypt .symbolic [7] [9] (chunkOfTwo 2 (by decide)).aad
      (framed [7] ++ framed [9] ++ framed (chunkOfTwo 1 (by decide)).aad ++ [1]) with
  | error e => rfl
  | ok text =>
      have same := chunk_opens_where_it_belongs.2 .symbolic symbolic_binds
        (chunkOfTwo 1 (by decide)) (chunkOfTwo 2 (by decide)) [7] [9] [1] _ _ _ _ rfl opened
      have parts := congrArg ChunkAddress.part same
      exact absurd parts (by decide)

end AssociatedData

end Repartee.E2e
