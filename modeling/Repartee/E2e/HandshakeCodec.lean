import Repartee.E2e.LineCodec
import Repartee.E2e.Handshake

/-!
The text form of the handshake messages: a message is read back from its text, whatever was read is
read again from its own text, the order of the fields does not matter, and no name is given twice.
-/

namespace Repartee.E2e

open Text Lib

/-- What is encoded for a handshake decodes, and holds no white space. -/
structure Platform.TranscribesUrl (P : Platform) : Prop where
  decodes : ∀ bytes, P.base64UrlDecode (P.base64Url bytes) = .ok bytes
  plain : ∀ bytes, ∀ c ∈ P.base64Url bytes, isWhitespace c = false

variable {P : Platform}

section Fields

/-- The names and values of the fields that have the form of one. -/
def pairsOf (fields : List Str) : List (Str × Str) := fields.filterMap (splitOnce '=')

variable {fields : List Str} {out kv : Fields}

/-- Fields that are accepted have different names, all of them new, and add their values. -/
theorem parseKv_ok (parsed : parseKv fields out = .ok kv) :
    ((pairsOf fields).map Prod.fst).Nodup ∧
      (∀ k ∈ (pairsOf fields).map Prod.fst, out.get? k = none) ∧
      ∀ k v, kv.get? k = some v ↔ out.get? k = some v ∨ (k, v) ∈ pairsOf fields := by
  induction fields generalizing out with
  | nil =>
      cases parsed
      simp [pairsOf]
  | cons f rest ih =>
      simp only [parseKv] at parsed
      split at parsed
      · rename_i none
        have same : pairsOf (f :: rest) = pairsOf rest := by simp [pairsOf, none]
        rw [same]
        exact ih parsed
      · rename_i k v pair
        have same : pairsOf (f :: rest) = (k, v) :: pairsOf rest := by simp [pairsOf, pair]
        split at parsed
        · cases parsed
        · rename_i fresh
          obtain ⟨distinct, new, reads⟩ := ih parsed
          have other : k ∉ (pairsOf rest).map Prod.fst := by
            intro member
            have absent := new k member
            rw [Map.get?_insert, if_pos rfl] at absent
            cases absent
          rw [same]
          refine ⟨?_, ?_, ?_⟩
          · exact List.nodup_cons.mpr ⟨other, distinct⟩
          · intro name member
            rcases List.mem_cons.mp member with here | later
            · rw [here]
              exact fresh
            · have absent := new name later
              rw [Map.get?_insert] at absent
              split at absent
              · cases absent
              · exact absent
          · intro name value
            rw [reads, Map.get?_insert, List.mem_cons, Prod.mk.injEq]
            by_cases here : k = name
            · subst here
              simp only [if_true, Option.some.injEq, fresh, reduceCtorEq, false_or, true_and,
                eq_comm]
            · simp only [here, if_false, Ne.symm here, false_and, false_or]

theorem parseKv_fresh (k : Str) : Map.get? (.empty : Fields) k = none := rfl

theorem parseKv_total (distinct : ((pairsOf fields).map Prod.fst).Nodup)
    (new : ∀ k ∈ (pairsOf fields).map Prod.fst, out.get? k = none) :
    ∃ kv, parseKv fields out = .ok kv := by
  induction fields generalizing out with
  | nil => exact ⟨out, rfl⟩
  | cons f rest ih =>
      simp only [parseKv]
      split
      · rename_i none
        have same : pairsOf (f :: rest) = pairsOf rest := by simp [pairsOf, none]
        rw [same] at distinct new
        exact ih distinct new
      · rename_i k v pair
        have same : pairsOf (f :: rest) = (k, v) :: pairsOf rest := by simp [pairsOf, pair]
        rw [same, List.map_cons] at distinct new
        have apart := List.nodup_cons.mp distinct
        rw [new k List.mem_cons_self]
        apply ih apart.2
        intro name member
        have different : k ≠ name := fun same => apart.1 (same ▸ member)
        rw [Map.get?_insert, if_neg different]
        exact new name (List.mem_cons_of_mem _ member)

/-- A field written as a name and a value is read as that pair. -/
theorem pairsOf_written (entries : List (Str × Str)) (names : ∀ e ∈ entries, '=' ∉ e.1) :
    pairsOf (entries.map fun e => e.1 ++ '=' :: e.2) = entries := by
  induction entries with
  | nil => rfl
  | cons e rest ih =>
      have later := ih fun other member => names other (List.mem_cons_of_mem e member)
      unfold pairsOf at later ⊢
      rw [List.map_cons, List.filterMap_cons, splitOnce_append _ _ _ (names e List.mem_cons_self),
        later]

theorem splitWhitespace_plain (s : Str) :
    ∀ word ∈ splitWhitespace s, ∀ c ∈ word, isWhitespace c = false := by
  have lone (c : Char) (dark : ¬isWhitespace c = true) : ∀ d ∈ [c], isWhitespace d = false := by
    simpa using dark
  fun_induction splitWhitespace s with
  | case1 => simp
  | case2 c rest white ih => exact ih
  | case3 c dark => simpa using dark
  | case4 c dark d more white ih =>
      intro word member
      rcases List.mem_cons.mp member with here | later
      · exact here ▸ lone c dark
      · exact ih word later
  | case5 c dark d more white none ih =>
      rw [none]
      simpa using dark
  | case6 c dark d more white word words split ih =>
      intro other member
      rw [split] at ih member
      rcases List.mem_cons.mp member with here | later
      · rw [here]
        intro e inside
        rcases List.mem_cons.mp inside with first | behind
        · exact first ▸ lone c dark c (by simp)
        · exact ih word List.mem_cons_self e behind
      · exact ih other (List.mem_cons_of_mem word later)

end Fields

section Messages

/-- The channel the message names, its kind, and its fields in the order they are written. -/
def HandshakeMsg.channel : HandshakeMsg → Str
  | .req m => m.channel
  | .rsp m => m.channel
  | .rekey m => m.channel

def HandshakeMsg.kind : HandshakeMsg → Str
  | .req _ => "KEYREQ".toList
  | .rsp _ => "KEYRSP".toList
  | .rekey _ => "REKEY".toList

def HandshakeMsg.encode (P : Platform) : HandshakeMsg → Str
  | .req m => encodeKeyreq P m
  | .rsp m => encodeKeyrsp P m
  | .rekey m => encodeKeyrekey P m

/-- The lengths the types of the fields have. -/
def HandshakeMsg.Sized : HandshakeMsg → Prop
  | .req m => m.pubkey.length = 32 ∧ m.ephX25519.length = 32 ∧ m.nonce.length = 16 ∧
      m.sig.length = 64
  | .rsp m => m.envelope.WellFormed ∧ m.sig.length = 64
  | .rekey m => m.envelope.WellFormed ∧ m.sig.length = 64

def envelopeEntries (P : Platform) (e : Envelope) (sig : Bytes) : List (Str × Str) :=
  [("c".toList, e.channel), ("p".toList, P.base64Url e.pubkey), ("e".toList, P.base64Url e.ephPub),
    ("wn".toList, P.base64Url e.wrapNonce), ("w".toList, P.base64Url e.wrapCt),
    ("n".toList, P.base64Url e.nonce), ("s".toList, P.base64Url sig)]

def HandshakeMsg.entries (P : Platform) : HandshakeMsg → List (Str × Str)
  | .req m => [("c".toList, m.channel), ("p".toList, P.base64Url m.pubkey),
      ("e".toList, P.base64Url m.ephX25519), ("n".toList, P.base64Url m.nonce),
      ("s".toList, P.base64Url m.sig)]
  | .rsp m => envelopeEntries P m.envelope m.sig
  | .rekey m => envelopeEntries P m.envelope m.sig

def versionText (kv : Fields) : Except E2eError Str :=
  match kv.get? "v".toList with
  | some v => .ok v
  | none => .error (.handshake "missing v".toList)

/-- What the parser makes of the fields. -/
def readMsg (P : Platform) (kind : Str) (kv : Fields) : Except E2eError (Option HandshakeMsg) := do
  let text ← versionText kv
  let v ← (parseU8 text).mapError fun e => .handshake ("bad v: ".toList ++ e)
  if v ≠ protoVersion then
    .error (.handshake ("unsupported version ".toList ++ natText v))
  else if kind = "KEYREQ".toList then (parseKeyreq P kv).map fun r => some (.req r)
  else if kind = "KEYRSP".toList then (parseKeyrsp P kv).map fun r => some (.rsp r)
  else if kind = "REKEY".toList then (parseKeyrekey P kv).map fun r => some (.rekey r)
  else .error (.handshake ("unknown type ".toList ++ kind))

theorem parseHandshake_words (body kind : Str) (fields : List Str)
    (words : splitWhitespace body = ctcpTag :: kind :: fields) :
    parseHandshake P body = parseKv fields .empty >>= readMsg P kind := by
  have same : readMsg P kind = fun kv => readMsg P kind kv := rfl
  rw [same]
  unfold parseHandshake readMsg versionText
  rw [words]
  simp only [ne_eq, not_true_eq_false, if_false]
  congr 1
  funext kv
  cases kv.get? "v".toList <;> rfl

/-- The parser looks its fields up and nothing else. -/
theorem readMsg_congr (kind : Str) (kv kv' : Fields) (same : ∀ k, kv.get? k = kv'.get? k) :
    readMsg P kind kv = readMsg P kind kv' := by
  have got (key : Str) : kvGet kv key = kvGet kv' key := by
    unfold kvGet
    rw [same]
  have fixed (key : Str) (length : Nat) : parseFixed P kv key length = parseFixed P kv' key length := by
    unfold parseFixed
    rw [got]
  have nonce : parseWrapNonce P kv = parseWrapNonce P kv' := by
    unfold parseWrapNonce
    rw [got]
  have wrapped : parseWrapCt P kv = parseWrapCt P kv' := by
    unfold parseWrapCt
    rw [got]
  have rsp : parseKeyrsp P kv = parseKeyrsp P kv' := by
    unfold parseKeyrsp
    simp only [got, fixed, nonce, wrapped]
  have req : parseKeyreq P kv = parseKeyreq P kv' := by
    unfold parseKeyreq
    simp only [got, fixed]
  have rekey : parseKeyrekey P kv = parseKeyrekey P kv' := by
    unfold parseKeyrekey
    rw [rsp]
  unfold readMsg versionText
  rw [same, req, rsp, rekey]

theorem kvGet_held (kv : Fields) (key value : Str) (held : kv.get? key = some value) :
    kvGet kv key = .ok value := by
  unfold kvGet
  rw [held]

theorem b64Decode_written (codes : P.TranscribesUrl) (bytes : Bytes) :
    b64Decode P (P.base64Url bytes) = .ok bytes :=
  (mapError_eq_ok _ _ _).mpr (codes.decodes bytes)

theorem parseFixed_written (codes : P.TranscribesUrl) (kv : Fields) (key : Str) (bytes : Bytes)
    (length : Nat) (held : kv.get? key = some (P.base64Url bytes)) (sized : bytes.length = length) :
    parseFixed P kv key length = .ok bytes := by
  apply (bind_eq_ok _ _ _).mpr
  refine ⟨P.base64Url bytes, kvGet_held kv key _ held, ?_⟩
  apply (bind_eq_ok _ _ _).mpr
  exact ⟨bytes, b64Decode_written codes bytes, if_neg (not_not.mpr sized)⟩

theorem parseWrapNonce_written (codes : P.TranscribesUrl) (kv : Fields) (bytes : Bytes)
    (held : kv.get? "wn".toList = some (P.base64Url bytes)) (sized : bytes.length = nonceLen) :
    parseWrapNonce P kv = .ok bytes := by
  apply (bind_eq_ok _ _ _).mpr
  refine ⟨P.base64Url bytes, kvGet_held kv _ _ held, ?_⟩
  apply (bind_eq_ok _ _ _).mpr
  exact ⟨bytes, b64Decode_written codes bytes, if_neg (not_not.mpr sized)⟩

theorem parseWrapCt_written (codes : P.TranscribesUrl) (kv : Fields) (bytes : Bytes)
    (held : kv.get? "w".toList = some (P.base64Url bytes)) : parseWrapCt P kv = .ok bytes := by
  apply (bind_eq_ok _ _ _).mpr
  exact ⟨P.base64Url bytes, kvGet_held kv _ _ held, (mapError_eq_ok _ _ _).mpr (codes.decodes bytes)⟩

/-- The fields of an envelope are read back. -/
theorem parseKeyrsp_written (codes : P.TranscribesUrl) (kv : Fields) (e : Envelope) (sig : Bytes)
    (formed : e.WellFormed) (sized : sig.length = 64)
    (held : ∀ entry ∈ envelopeEntries P e sig, kv.get? entry.1 = some entry.2) :
    parseKeyrsp P kv =
      .ok ⟨e.channel, e.pubkey, e.ephPub, e.wrapNonce, e.wrapCt, e.nonce, sig⟩ := by
  simp only [envelopeEntries, List.forall_mem_cons, List.not_mem_nil, false_implies,
    implies_true, and_true] at held
  obtain ⟨c, p, eph, wn, w, n, s⟩ := held
  unfold parseKeyrsp
  rw [kvGet_held kv _ _ c, parseFixed_written codes kv _ _ 32 p formed.pubkey,
    parseFixed_written codes kv _ _ 32 eph formed.ephPub,
    parseWrapNonce_written codes kv _ wn formed.wrapNonce, parseWrapCt_written codes kv _ w,
    parseFixed_written codes kv _ _ 16 n formed.nonce, parseFixed_written codes kv _ _ 64 s sized]
  rfl

theorem parseKeyreq_written (codes : P.TranscribesUrl) (kv : Fields) (m : KeyReq)
    (sized : (HandshakeMsg.req m).Sized)
    (held : ∀ entry ∈ (HandshakeMsg.req m).entries P, kv.get? entry.1 = some entry.2) :
    parseKeyreq P kv = .ok m := by
  simp only [HandshakeMsg.entries, List.forall_mem_cons, List.not_mem_nil, false_implies,
    implies_true, and_true] at held
  obtain ⟨c, p, eph, n, s⟩ := held
  obtain ⟨pubkey, ephX25519, nonce, sig⟩ := sized
  unfold parseKeyreq
  rw [kvGet_held kv _ _ c, parseFixed_written codes kv _ _ 32 p pubkey,
    parseFixed_written codes kv _ _ 32 eph ephX25519,
    parseFixed_written codes kv _ _ 16 n nonce, parseFixed_written codes kv _ _ 64 s sig]
  rfl

def version : Str × Str := ("v".toList, natText protoVersion)

/-- The fields of a message are read back under its kind. -/
theorem readMsg_written (codes : P.TranscribesUrl) (kv : Fields) (msg : HandshakeMsg)
    (sized : msg.Sized)
    (held : ∀ entry ∈ version :: msg.entries P, kv.get? entry.1 = some entry.2) :
    readMsg P msg.kind kv = .ok (some msg) := by
  have stamped : kv.get? "v".toList = some (natText protoVersion) :=
    held version List.mem_cons_self
  have number : parseU8 (natText protoVersion) = .ok protoVersion :=
    parseU8_natText _ (by decide)
  have fields : ∀ entry ∈ msg.entries P, kv.get? entry.1 = some entry.2 := fun entry member =>
    held entry (List.mem_cons_of_mem version member)
  unfold readMsg
  apply (bind_eq_ok _ _ _).mpr
  refine ⟨natText protoVersion, by rw [versionText, stamped], ?_⟩
  apply (bind_eq_ok _ _ _).mpr
  refine ⟨protoVersion, (mapError_eq_ok _ _ _).mpr number, ?_⟩
  rw [if_neg (not_not.mpr rfl)]
  cases msg with
  | req m =>
      have kind : (HandshakeMsg.req m).kind = "KEYREQ".toList := rfl
      rw [kind, if_pos rfl, parseKeyreq_written codes kv m sized fields]
      rfl
  | rsp m =>
      have kind : (HandshakeMsg.rsp m).kind = "KEYRSP".toList := rfl
      have other : "KEYRSP".toList ≠ "KEYREQ".toList := by decide
      rw [kind, if_neg other, if_pos rfl,
        parseKeyrsp_written codes kv m.envelope m.sig sized.1 sized.2 fields]
      rfl
  | rekey m =>
      have kind : (HandshakeMsg.rekey m).kind = "REKEY".toList := rfl
      have other : "REKEY".toList ≠ "KEYREQ".toList := by decide
      have another : "REKEY".toList ≠ "KEYRSP".toList := by decide
      rw [kind, if_neg other, if_neg another, if_pos rfl, parseKeyrekey,
        parseKeyrsp_written codes kv m.envelope m.sig sized.1 sized.2 fields]
      rfl

def written (entry : Str × Str) : Str := entry.1 ++ '=' :: entry.2

def fieldNames : List Str :=
  ["v".toList, "c".toList, "p".toList, "e".toList, "wn".toList, "w".toList, "n".toList, "s".toList]

theorem entries_names (msg : HandshakeMsg) :
    List.Sublist ((version :: msg.entries P).map Prod.fst) fieldNames := by
  have skips : List.Sublist ["v".toList, "c".toList, "p".toList, "e".toList, "n".toList, "s".toList]
      fieldNames := by decide
  cases msg with
  | req m => exact skips
  | rsp m => exact List.Sublist.refl fieldNames
  | rekey m => exact List.Sublist.refl fieldNames

theorem entries_plain (codes : P.TranscribesUrl) (msg : HandshakeMsg)
    (channel : ∀ c ∈ msg.channel, isWhitespace c = false) :
    ∀ entry ∈ version :: msg.entries P, ∀ c ∈ entry.2, isWhitespace c = false := by
  have stamp : ∀ c ∈ version.2, isWhitespace c = false := natText_plain protoVersion
  have coded := codes.plain
  rw [List.forall_mem_cons]
  constructor
  · exact stamp
  · cases msg with
    | req m =>
        simp only [HandshakeMsg.entries, List.forall_mem_cons]
        exact ⟨channel, coded _, coded _, coded _, coded _, by simp⟩
    | rsp m =>
        simp only [HandshakeMsg.entries, envelopeEntries, List.forall_mem_cons]
        exact ⟨channel, coded _, coded _, coded _, coded _, coded _, coded _, by simp⟩
    | rekey m =>
        simp only [HandshakeMsg.entries, envelopeEntries, List.forall_mem_cons]
        exact ⟨channel, coded _, coded _, coded _, coded _, coded _, coded _, by simp⟩

theorem encode_fields (msg : HandshakeMsg) :
    msg.encode P =
      encodeHeader msg.kind ++ (msg.entries P).flatMap fun entry => field entry.1 entry.2 := by
  cases msg with
  | req m =>
      have kind : (HandshakeMsg.req m).kind = "KEYREQ".toList := rfl
      simp only [HandshakeMsg.encode, encodeKeyreq, kind, HandshakeMsg.entries,
        List.flatMap_cons, List.flatMap_nil, List.append_assoc, List.append_nil]
  | rsp m =>
      have kind : (HandshakeMsg.rsp m).kind = "KEYRSP".toList := rfl
      simp only [HandshakeMsg.encode, encodeKeyrsp, kind, HandshakeMsg.entries,
        envelopeEntries, KeyRsp.envelope, List.flatMap_cons, List.flatMap_nil, List.append_assoc,
        List.append_nil]
  | rekey m =>
      have kind : (HandshakeMsg.rekey m).kind = "REKEY".toList := rfl
      simp only [HandshakeMsg.encode, encodeKeyrekey, kind, HandshakeMsg.entries,
        envelopeEntries, KeyRekey.envelope, List.flatMap_cons, List.flatMap_nil, List.append_assoc,
        List.append_nil]

theorem encode_spelled (msg : HandshakeMsg) :
    ' ' :: msg.encode P =
      (ctcpTag :: msg.kind :: (version :: msg.entries P).map written).flatMap
        fun word => ' ' :: word := by
  have header (kind : Str) : ' ' :: encodeHeader kind =
      (' ' :: ctcpTag) ++ ((' ' :: kind) ++ ' ' :: written version) := by
    rw [encodeHeader, field, written]
    exact (congrArg (' ' :: ·) (List.append_assoc _ _ _))
  rw [encode_fields, ← List.cons_append, header, List.flatMap_cons, List.flatMap_cons, List.map_cons,
    List.flatMap_cons, List.flatMap_map, List.append_assoc, List.append_assoc]
  rfl

theorem fieldNames_plain : ∀ name ∈ fieldNames, ∀ c ∈ name, isWhitespace c = false := by
  have all : (fieldNames.all fun name => name.all fun c => !isWhitespace c) = true := by decide
  simpa only [List.all_eq_true, Bool.not_eq_eq_eq_not, Bool.not_true] using all

theorem tags_plain : ∀ tag ∈ [ctcpTag, "KEYREQ".toList, "KEYRSP".toList, "REKEY".toList],
    tag ≠ [] ∧ ∀ c ∈ tag, isWhitespace c = false := by
  have all : ([ctcpTag, "KEYREQ".toList, "KEYRSP".toList, "REKEY".toList].all fun tag =>
      !tag.isEmpty && tag.all fun c => !isWhitespace c) = true := by decide
  simpa only [List.all_eq_true, Bool.and_eq_true, Bool.not_eq_eq_eq_not, Bool.not_true,
    List.isEmpty_eq_false_iff] using all

theorem encode_words (codes : P.TranscribesUrl) (msg : HandshakeMsg)
    (channel : ∀ c ∈ msg.channel, isWhitespace c = false) :
    splitWhitespace (msg.encode P) =
      ctcpTag :: msg.kind :: (version :: msg.entries P).map written := by
  rw [← splitWhitespace_space, encode_spelled]
  apply splitWhitespace_words
  have kind : msg.kind ≠ [] ∧ ∀ c ∈ msg.kind, isWhitespace c = false := by
    apply tags_plain
    apply List.mem_cons_of_mem
    cases msg with
    | req m => exact List.mem_cons_self
    | rsp m => exact List.mem_cons_of_mem _ List.mem_cons_self
    | rekey m => exact List.mem_cons_of_mem _ (List.mem_cons_of_mem _ List.mem_cons_self)
  intro word member
  rcases List.mem_cons.mp member with rfl | member
  · exact tags_plain ctcpTag List.mem_cons_self
  rcases List.mem_cons.mp member with rfl | member
  · exact kind
  obtain ⟨entry, inside, rfl⟩ := List.mem_map.mp member
  constructor
  · simp [written]
  · intro c spelled
    rcases List.mem_append.mp spelled with name | value
    · exact fieldNames_plain entry.1 ((entries_names msg).subset (List.mem_map_of_mem inside)) c name
    · rcases List.mem_cons.mp value with rfl | value
      · decide
      · exact entries_plain codes msg channel entry inside c value

/-- A message is read back from its text. -/
theorem parse_written (codes : P.TranscribesUrl) (msg : HandshakeMsg) (sized : msg.Sized)
    (channel : ∀ c ∈ msg.channel, isWhitespace c = false) :
    parseHandshake P (msg.encode P) = .ok (some msg) := by
  have names := entries_names (P := P) msg
  have free : ∀ name ∈ fieldNames, '=' ∉ name := by decide
  have apart : fieldNames.Nodup := by decide
  have pairs : pairsOf ((version :: msg.entries P).map written) = version :: msg.entries P :=
    pairsOf_written _ fun entry member =>
      free entry.1 (names.subset (List.mem_map_of_mem member))
  have distinct : ((pairsOf ((version :: msg.entries P).map written)).map Prod.fst).Nodup := by
    rw [pairs]
    exact apart.sublist names
  obtain ⟨kv, parsed⟩ := parseKv_total distinct fun k _ => parseKv_fresh k
  obtain ⟨-, -, reads⟩ := parseKv_ok parsed
  rw [parseHandshake_words _ _ _ (encode_words codes msg channel)]
  apply (bind_eq_ok _ _ _).mpr
  refine ⟨kv, parsed, readMsg_written codes kv msg sized ?_⟩
  intro entry member
  apply (reads entry.1 entry.2).mpr
  rw [pairs]
  exact Or.inr member

end Messages

section Accepted

theorem kvGet_value (kv : Fields) (key value : Str) (got : kvGet kv key = .ok value) :
    kv.get? key = some value := by
  unfold kvGet at got
  split at got
  · cases got
    assumption
  · cases got

theorem parseKeyreq_read (kv : Fields) (m : KeyReq) (parsed : parseKeyreq P kv = .ok m) :
    (HandshakeMsg.req m).Sized ∧ kv.get? "c".toList = some m.channel := by
  obtain ⟨channel, channelIs, parsed⟩ := (bind_eq_ok _ _ _).mp parsed
  obtain ⟨pubkey, pubkeyIs, parsed⟩ := (bind_eq_ok _ _ _).mp parsed
  obtain ⟨ephX25519, ephIs, parsed⟩ := (bind_eq_ok _ _ _).mp parsed
  obtain ⟨nonce, nonceIs, parsed⟩ := (bind_eq_ok _ _ _).mp parsed
  obtain ⟨sig, sigIs, parsed⟩ := (bind_eq_ok _ _ _).mp parsed
  cases parsed
  exact ⟨⟨parseFixed_length P _ _ _ _ pubkeyIs, parseFixed_length P _ _ _ _ ephIs,
    parseFixed_length P _ _ _ _ nonceIs, parseFixed_length P _ _ _ _ sigIs⟩,
    kvGet_value kv _ _ channelIs⟩

theorem parseKeyrsp_read (kv : Fields) (m : KeyRsp) (parsed : parseKeyrsp P kv = .ok m) :
    m.sig.length = 64 ∧ kv.get? "c".toList = some m.channel := by
  obtain ⟨channel, channelIs, parsed⟩ := (bind_eq_ok _ _ _).mp parsed
  obtain ⟨pubkey, -, parsed⟩ := (bind_eq_ok _ _ _).mp parsed
  obtain ⟨ephPub, -, parsed⟩ := (bind_eq_ok _ _ _).mp parsed
  obtain ⟨wrapNonce, -, parsed⟩ := (bind_eq_ok _ _ _).mp parsed
  obtain ⟨wrapCt, -, parsed⟩ := (bind_eq_ok _ _ _).mp parsed
  obtain ⟨nonce, -, parsed⟩ := (bind_eq_ok _ _ _).mp parsed
  obtain ⟨sig, sigIs, parsed⟩ := (bind_eq_ok _ _ _).mp parsed
  cases parsed
  exact ⟨parseFixed_length P _ _ _ _ sigIs, kvGet_value kv _ _ channelIs⟩

theorem parseKeyrekey_read (kv : Fields) (m : KeyRekey) (parsed : parseKeyrekey P kv = .ok m) :
    m.sig.length = 64 ∧ kv.get? "c".toList = some m.channel := by
  obtain ⟨rsp, rspIs, parsed⟩ := (bind_eq_ok _ _ _).mp parsed
  cases parsed
  exact parseKeyrsp_read kv rsp rspIs

theorem map_some_ok {α : Type} (r : Except E2eError α) (make : α → HandshakeMsg)
    (msg : HandshakeMsg) (read : (r.map fun a => some (make a)) = .ok (some msg)) :
    ∃ a, r = .ok a ∧ make a = msg := by
  cases r with
  | error e => cases read
  | ok a =>
      cases read
      exact ⟨a, rfl, rfl⟩

/-- What is read has the lengths of its type, and its channel is the value of a field. -/
theorem readMsg_sized (kind : Str) (kv : Fields) (msg : HandshakeMsg)
    (read : readMsg P kind kv = .ok (some msg)) :
    msg.Sized ∧ kv.get? "c".toList = some msg.channel := by
  unfold readMsg at read
  obtain ⟨text, -, read⟩ := (bind_eq_ok _ _ _).mp read
  obtain ⟨v, -, read⟩ := (bind_eq_ok _ _ _).mp read
  split at read
  · cases read
  split at read
  · obtain ⟨m, parsed, rfl⟩ := map_some_ok _ _ _ read
    exact parseKeyreq_read kv m parsed
  split at read
  · obtain ⟨m, parsed, rfl⟩ := map_some_ok _ _ _ read
    have got := parseKeyrsp_read kv m parsed
    exact ⟨⟨parseKeyrsp_wellFormed P kv m parsed, got.1⟩, got.2⟩
  split at read
  · obtain ⟨m, parsed, rfl⟩ := map_some_ok _ _ _ read
    have got := parseKeyrekey_read kv m parsed
    exact ⟨⟨parseKeyrekey_wellFormed P kv m parsed, got.1⟩, got.2⟩
  · cases read

/-- A body that is accepted is a tag, a kind and fields, and its message comes from the fields. -/
theorem parseHandshake_some (body : Str) (msg : HandshakeMsg)
    (parsed : parseHandshake P body = .ok (some msg)) :
    ∃ kind fields kv, splitWhitespace body = ctcpTag :: kind :: fields ∧
      parseKv fields .empty = .ok kv ∧ readMsg P kind kv = .ok (some msg) := by
  cases words : splitWhitespace body with
  | nil =>
      simp only [parseHandshake, words] at parsed
      cases parsed
  | cons tag parts =>
      by_cases other : tag = ctcpTag
      · subst other
        cases parts with
        | nil =>
            simp only [parseHandshake, words, ne_eq, not_true_eq_false, if_false] at parsed
            cases parsed
        | cons kind fields =>
            rw [parseHandshake_words body kind fields words] at parsed
            obtain ⟨kv, split, read⟩ := (bind_eq_ok _ _ _).mp parsed
            exact ⟨kind, fields, kv, rfl, split, read⟩
      · simp only [parseHandshake, words, ne_eq, other, not_false_eq_true, if_true] at parsed
        cases parsed

/-- The value of a field has no white space. -/
theorem pairsOf_plain (body : Str) (fields : List Str) (front : List Str)
    (words : splitWhitespace body = front ++ fields) (key value : Str)
    (member : (key, value) ∈ pairsOf fields) : ∀ c ∈ value, isWhitespace c = false := by
  obtain ⟨word, inside, split⟩ := List.mem_filterMap.mp member
  have spelled := ((splitOnce_eq_some '=' word key value).mp split).1
  have held : word ∈ splitWhitespace body := by
    rw [words]
    exact List.mem_append_right front inside
  intro c within
  apply splitWhitespace_plain body word held c
  rw [spelled]
  exact List.mem_append_right key (List.mem_cons_of_mem '=' within)

theorem accepted_again (codes : P.TranscribesUrl) (body : Str) (msg : HandshakeMsg)
    (parsed : parseHandshake P body = .ok (some msg)) :
    parseHandshake P (msg.encode P) = .ok (some msg) := by
  obtain ⟨kind, fields, kv, words, split, read⟩ := parseHandshake_some body msg parsed
  obtain ⟨-, -, reads⟩ := parseKv_ok split
  obtain ⟨sized, held⟩ := readMsg_sized kind kv msg read
  have member : ("c".toList, msg.channel) ∈ pairsOf fields := by
    rcases (reads _ _).mp held with before | inside
    · cases before
    · exact inside
  exact parse_written codes msg sized
    (pairsOf_plain body fields [ctcpTag, kind] words "c".toList msg.channel member)

/-- Bodies of one kind whose fields are the same, in any order, are read alike when one is read. -/
theorem reordered_read (kind : Str) (fields fields' : List Str) (reordered : fields.Perm fields')
    (body body' : Str) (words : splitWhitespace body = ctcpTag :: kind :: fields)
    (words' : splitWhitespace body' = ctcpTag :: kind :: fields') (msg : HandshakeMsg)
    (parsed : parseHandshake P body = .ok (some msg)) :
    parseHandshake P body' = .ok (some msg) := by
  rw [parseHandshake_words body kind fields words] at parsed
  obtain ⟨kv, split, read⟩ := (bind_eq_ok _ _ _).mp parsed
  obtain ⟨distinct, -, reads⟩ := parseKv_ok split
  have pairs : (pairsOf fields).Perm (pairsOf fields') := reordered.filterMap _
  have distinct' := (pairs.map Prod.fst).nodup_iff.mp distinct
  obtain ⟨kv', split'⟩ := parseKv_total distinct' fun k _ => parseKv_fresh k
  obtain ⟨-, -, reads'⟩ := parseKv_ok split'
  have same : ∀ k, kv'.get? k = kv.get? k := by
    intro k
    apply Option.ext
    intro v
    rw [reads, reads', pairs.mem_iff]
  rw [parseHandshake_words body' kind fields' words']
  apply (bind_eq_ok _ _ _).mpr
  exact ⟨kv', split', (readMsg_congr kind kv' kv same).trans read⟩

/-- A name given twice is refused, whatever the rest of the body holds. -/
theorem repeated_refused (kind : Str) (fields : List Str) (body : Str)
    (words : splitWhitespace body = ctcpTag :: kind :: fields)
    (repeated : ¬((pairsOf fields).map Prod.fst).Nodup) :
    ∃ e, parseHandshake P body = .error e := by
  rw [parseHandshake_words body kind fields words]
  cases split : parseKv fields .empty with
  | error e => exact ⟨e, rfl⟩
  | ok kv => exact absurd (parseKv_ok split).1 repeated

/-- A message whose channel has no white space is read back from its text; whatever was read is read
again from its own text; the fields of a body may stand in any order; and a name given twice is
refused. -/
theorem handshake_codec (P : Platform) (codes : P.TranscribesUrl) :
    (∀ msg : HandshakeMsg, msg.Sized → (∀ c ∈ msg.channel, isWhitespace c = false) →
      parseHandshake P (msg.encode P) = .ok (some msg)) ∧
    (∀ body msg, parseHandshake P body = .ok (some msg) →
      parseHandshake P (msg.encode P) = .ok (some msg)) ∧
    (∀ kind fields fields' body body' msg, fields.Perm fields' →
      splitWhitespace body = ctcpTag :: kind :: fields →
      splitWhitespace body' = ctcpTag :: kind :: fields' →
      parseHandshake P body = .ok (some msg) → parseHandshake P body' = .ok (some msg)) ∧
    (∀ kind fields body, splitWhitespace body = ctcpTag :: kind :: fields →
      ¬((pairsOf fields).map Prod.fst).Nodup → ∃ e, parseHandshake P body = .error e) :=
  ⟨parse_written codes, accepted_again codes,
    fun kind fields fields' body body' msg reordered words words' =>
      reordered_read kind fields fields' reordered body body' words words' msg,
    repeated_refused⟩

/-- A platform whose Base64 is the URL one without padding. -/
def Platform.standardUrl : Platform :=
  { Platform.symbolic with
    base64Url := Base64.encodeUrl
    base64UrlDecode := fun text => match Base64.decodeUrl text with
      | some bytes => .ok bytes
      | none => .error "Invalid symbol".toList }

theorem standardUrl_transcribes : Platform.standardUrl.TranscribesUrl where
  decodes bytes := by
    simp only [Platform.standardUrl, Base64.decodeUrl_encodeUrl]
  plain bytes := by
    have letters : ∀ n < 64, isWhitespace (Base64.toUrl (Base64.letter n)) = false := by
      decide +kernel
    exact Base64.encodeUrl_all _ letters bytes

theorem handshake_codec_standard :
    (∀ msg : HandshakeMsg, msg.Sized → (∀ c ∈ msg.channel, isWhitespace c = false) →
      parseHandshake .standardUrl (msg.encode .standardUrl) = .ok (some msg)) ∧
    (∀ body msg, parseHandshake .standardUrl body = .ok (some msg) →
      parseHandshake .standardUrl (msg.encode .standardUrl) = .ok (some msg)) ∧
    (∀ kind fields fields' body body' msg, fields.Perm fields' →
      splitWhitespace body = ctcpTag :: kind :: fields →
      splitWhitespace body' = ctcpTag :: kind :: fields' →
      parseHandshake .standardUrl body = .ok (some msg) →
      parseHandshake .standardUrl body' = .ok (some msg)) ∧
    (∀ kind fields body, splitWhitespace body = ctcpTag :: kind :: fields →
      ¬((pairsOf fields).map Prod.fst).Nodup →
      ∃ e, parseHandshake .standardUrl body = .error e) :=
  handshake_codec .standardUrl standardUrl_transcribes

end Accepted

end Repartee.E2e
