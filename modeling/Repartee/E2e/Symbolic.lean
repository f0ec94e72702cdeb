import Repartee.E2e.Manager.Outgoing

/-!
Cryptography in the symbolic sense: the laws results assume of it, and a platform on which they
hold and on which everything can be evaluated.
-/

namespace Repartee.E2e

open Text Lib

namespace Platform

/-- A sealed ciphertext opens, whatever the key and the associated data, to what was sealed. -/
def Authenticates (P : Platform) : Prop :=
  ∀ {key nonce aad text ct key' aad' text' : Bytes},
    P.aeadEncrypt key nonce aad text = .ok ct → P.aeadDecrypt key' nonce aad' ct = .ok text' →
      text' = text

/-- A ciphertext opens under one key. -/
def Commits (P : Platform) : Prop :=
  ∀ {key key' nonce aad ct text text' : Bytes},
    P.aeadDecrypt key nonce aad ct = .ok text → P.aeadDecrypt key' nonce aad ct = .ok text' →
      key = key'

/-- Different shared secrets derive different keys. -/
def Derives (P : Platform) : Prop :=
  ∀ {salt ikm ikm' info : Bytes}, P.hkdfSha256 salt ikm info = P.hkdfSha256 salt ikm' info →
    ikm = ikm'

/-- The lengths the crates fix. -/
structure Sized (P : Platform) : Prop where
  verifyingKey : ∀ seed, (P.verifyingKey seed).length = 32
  xPublic : ∀ secret, (P.xPublic secret).length = 32
  random : ∀ n length, (P.random n length).length = length
  sealed : ∀ {key nonce aad text ct}, P.aeadEncrypt key nonce aad text = .ok ct →
    ct.length = text.length + 16
  opened : ∀ {key nonce aad text ct}, P.aeadDecrypt key nonce aad ct = .ok text →
    ct.length = text.length + 16

end Platform

section Symbolic

/-- Bytes behind their length, so that what follows them can be told apart. -/
def framed : Bytes → Bytes
  | [] => [0]
  | b :: rest => 1 :: b :: framed rest

def unframe : Bytes → Bytes → Option Bytes
  | [], 0 :: rest => some rest
  | b :: front, 1 :: c :: rest => if b = c then unframe front rest else none
  | _, _ => none

def unframeAll : List Bytes → Bytes → Option Bytes
  | [], text => some text
  | part :: parts, text => (unframe part text).bind (unframeAll parts)

def shared (secret point : Bytes) : Bytes :=
  if point.all (· = 0) then point else List.zipWith (· + ·) secret point

def lettered (bytes : Bytes) : Str := bytes.map fun b => Char.ofNat (b.toNat + 0x100)

def unlettered (text : Str) : Except Str Bytes :=
  if text.all fun c => decide (0x100 ≤ c.toNat ∧ c.toNat < 0x200) then
    .ok (text.map fun c => UInt8.ofNat (c.toNat - 0x100))
  else .error "invalid symbol".toList

/-- The signer and the head of the message, at the length of an Ed25519 signature. -/
def signature (seed message : Bytes) : Bytes := (seed ++ message ++ List.replicate 64 0).take 64

def padded (bytes : Bytes) : Bytes := (bytes ++ List.replicate 32 0).take 32

/-- Ciphertexts spell out what they were made from, a secret is its own public key, and the
all-zero point shares the all-zero secret with everybody. -/
def Platform.symbolic : Platform where
  sha256 := fun bytes => bytes.drop 11
  verifyingKey := padded
  signBytes := signature
  publicKeyError := fun _ => none
  verifyBytes := fun pubkey message sig =>
    if sig = signature pubkey message then .ok () else .error []
  toMontgomery := id
  toScalar := id
  xPublic := padded
  diffieHellman := shared
  hkdfSha256 := fun salt ikm info => framed salt ++ framed ikm ++ info
  aeadEncrypt := fun key nonce aad text => .ok (framed key ++ framed nonce ++ framed aad ++ text)
  aeadDecrypt := fun key nonce aad ct =>
    match unframeAll [key, nonce, aad] ct with
    | some text => .ok text
    | none => .error []
  random := fun n length => (List.range length).map fun i => UInt8.ofNat ((n + 1) / 256 ^ i)
  base64 := lettered
  base64Decode := unlettered
  base64Url := lettered
  base64UrlDecode := unlettered
  hexError := id
  utf8Error := fun _ => []
  charLowercase := fun c => [toAsciiLowercase c]

theorem unframe_framed (front rest : Bytes) : unframe front (framed front ++ rest) = some rest := by
  induction front with
  | nil => rfl
  | cons b front ih => simp [framed, unframe, ih]

theorem unframe_eq_some (front text rest : Bytes) (opened : unframe front text = some rest) :
    text = framed front ++ rest := by
  induction front generalizing text with
  | nil =>
      unfold unframe at opened
      split at opened <;> simp_all [framed]
  | cons b front ih =>
      unfold unframe at opened
      split at opened
      · simp_all
      · rename_i c front' c' rest' same
        cases same
        split at opened
        · rename_i equal
          rw [ih rest' opened, equal]
          rfl
        · cases opened
      · cases opened

theorem framed_append_inj (a b x y : Bytes) (same : framed a ++ x = framed b ++ y) :
    a = b ∧ x = y := by
  induction a generalizing b with
  | nil => cases b <;> simp_all [framed]
  | cons c a ih =>
      cases b with
      | nil => simp [framed] at same
      | cons d b =>
          simp only [framed, List.cons_append, List.cons.injEq, true_and] at same
          obtain ⟨rfl, rfl⟩ := ih b same.2
          exact ⟨by rw [same.1], rfl⟩

theorem symbolic_opened (key nonce aad ct text : Bytes)
    (opened : Platform.symbolic.aeadDecrypt key nonce aad ct = .ok text) :
    ct = framed key ++ (framed nonce ++ (framed aad ++ text)) := by
  simp only [Platform.symbolic] at opened
  split at opened
  · rename_i plain found
    cases opened
    simp only [unframeAll, Option.bind_eq_some_iff] at found
    obtain ⟨a, keyed, b, nonced, c, bound, same⟩ := found
    cases same
    rw [unframe_eq_some _ _ _ keyed, unframe_eq_some _ _ _ nonced, unframe_eq_some _ _ _ bound]
  · cases opened

theorem symbolic_authenticates : Platform.symbolic.Authenticates := by
  intro key nonce aad text ct key' aad' text' sealed opened
  have spelled := symbolic_opened _ _ _ _ _ opened
  simp only [Platform.symbolic, Except.ok.injEq, List.append_assoc] at sealed
  rw [← sealed] at spelled
  obtain ⟨-, tail⟩ := framed_append_inj _ _ _ _ spelled
  obtain ⟨-, tail⟩ := framed_append_inj _ _ _ _ tail
  exact (framed_append_inj _ _ _ _ tail).2.symm

theorem symbolic_commits : Platform.symbolic.Commits := by
  intro key key' nonce aad ct text text' first second
  have spelled := (symbolic_opened _ _ _ _ _ first).symm.trans (symbolic_opened _ _ _ _ _ second)
  exact (framed_append_inj _ _ _ _ spelled).1

theorem symbolic_derives : Platform.symbolic.Derives := by
  intro salt ikm ikm' info same
  simp only [Platform.symbolic, List.append_assoc] at same
  exact (framed_append_inj _ _ _ _ (framed_append_inj _ _ _ _ same).2).1

end Symbolic

section Compact

def tag (key : Bytes) : Bytes := (key ++ List.replicate 16 0).take 16

/-- The symbolic platform with ciphertexts of the real length, which spell out the text and the
head of the key. -/
def Platform.compact : Platform :=
  { Platform.symbolic with
    hkdfSha256 := fun _ ikm _ => ikm
    aeadEncrypt := fun key _ _ text => .ok (text ++ tag key)
    aeadDecrypt := fun key _ _ ct =>
      if 16 ≤ ct.length ∧ ct.drop (ct.length - 16) = tag key then .ok (ct.take (ct.length - 16))
      else .error [] }

theorem tag_length (key : Bytes) : (tag key).length = 16 := by
  simp [tag]

theorem compact_opened (key nonce aad ct text : Bytes)
    (opened : Platform.compact.aeadDecrypt key nonce aad ct = .ok text) : ct = text ++ tag key := by
  simp only [Platform.compact] at opened
  split at opened
  · rename_i tagged
    cases opened
    rw [← tagged.2, List.take_append_drop]
  · cases opened

theorem compact_authenticates : Platform.compact.Authenticates := by
  intro key nonce aad text ct key' aad' text' sealed opened
  have spelled := compact_opened _ _ _ _ _ opened
  simp only [Platform.compact, Except.ok.injEq] at sealed
  rw [← sealed] at spelled
  exact (List.append_inj' spelled ((tag_length key).trans (tag_length key').symm)).1.symm

theorem compact_sized : Platform.compact.Sized where
  verifyingKey seed := by simp [Platform.compact, Platform.symbolic, padded]
  xPublic secret := by simp [Platform.compact, Platform.symbolic, padded]
  random n length := by simp [Platform.compact, Platform.symbolic]
  sealed {key nonce aad text ct} sealed := by
    simp only [Platform.compact, Except.ok.injEq] at sealed
    rw [← sealed, List.length_append, tag_length]
  opened {key nonce aad text ct} opened := by
    rw [compact_opened _ _ _ _ _ opened, List.length_append, tag_length]

end Compact

section Signers

variable (P : Platform)

/-- The bytes of a sealed message; the symbolic platform seals everything. -/
def sealedBytes (key nonce aad text : Bytes) : Bytes :=
  ((P.aeadEncrypt key nonce aad text).toOption).getD []

/-- A request as the owner of the seed signs it. -/
def requestBy (seed : Bytes) (channel : Str) (ephSecret nonce : Bytes) : KeyReq :=
  let pubkey := P.verifyingKey seed
  let ephPub := P.xPublic ephSecret
  ⟨channel, pubkey, ephPub, nonce,
    P.signBytes seed (signedKeyreqPayload (wireContext channel) pubkey ephPub nonce)⟩

/-- A response that wraps the session key for a request, under any ephemeral point. -/
def responseBy (seed : Bytes) (channel : Str) (ephPub wrapKey sk wrapNonce nonce : Bytes) :
    KeyRsp :=
  let pubkey := P.verifyingKey seed
  let wire := wireContext channel
  let wrapCt := sealedBytes P wrapKey wrapNonce (wrapInfo wire) sk
  ⟨channel, pubkey, ephPub, wrapNonce, wrapCt, nonce,
    P.signBytes seed (signedKeyrspPayload wire pubkey ephPub wrapNonce wrapCt nonce)⟩

/-- A rekey that wraps the session key for the owner of the recipient's public key. -/
def rekeyBy (seed recipient : Bytes) (channel : Str) (ephSecret sk wrapNonce nonce : Bytes) :
    KeyRekey :=
  let pubkey := P.verifyingKey seed
  let wire := wireContext channel
  let ephPub := P.xPublic ephSecret
  let wrapKey := deriveWrapKey P ephSecret (P.toMontgomery recipient) (rekeyInfo wire)
  let wrapCt := sealedBytes P wrapKey wrapNonce (rekeyInfo wire) sk
  ⟨channel, pubkey, ephPub, wrapNonce, wrapCt, nonce,
    P.signBytes seed (signedKeyrekeyPayload wire pubkey ephPub wrapNonce wrapCt nonce)⟩

/-- The one line of a message encrypted under the key. -/
def lineUnder (sk : SessionKey) (channel text : Str) (msgid nonce : Bytes) (ts : Int) : Str :=
  let aad := buildAad (wireContext channel) msgid ts 1 1
  ((WireChunk.encode P ⟨msgid, ts, 1, 1, nonce, sealedBytes P sk nonce aad (utf8 text)⟩).toOption).getD []

/-- Two seeds and a room for the runs that show a defect. -/
def aliceSeed : Bytes := List.replicate 32 1
def bobSeed : Bytes := List.replicate 32 7
def bobHandle : Str := "bob@host".toList
def room : Str := scopedContext "net".toList "#room".toList

def roomIn (mode : ChannelMode) : Table ChannelConfig.channel := Table.empty.replace ⟨room, true, mode⟩

/-- Bob's response to the request whose ephemeral secret was the draw of that number. -/
def bobsResponse (ephSecret sk : Bytes) (draw : Nat) : KeyRsp :=
  let wrapKey := deriveWrapKey P ephSecret (P.xPublic (P.random draw 32)) (wrapInfo "#room".toList)
  responseBy P bobSeed room (P.xPublic ephSecret) wrapKey sk (List.replicate nonceLen 1)
    (List.replicate 16 1)

end Signers

end Repartee.E2e
