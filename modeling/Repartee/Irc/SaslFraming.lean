import Repartee.Irc.SaslExchange
import Repartee.Lib.Base64

/-!
The two sides of the framing of a SASL payload: what is cut into AUTHENTICATE lines is read back by
the wait for a payload, which ends with the last line.
-/

namespace Repartee.Irc

open Repartee.Text
open Repartee.Lib

/-- What the framing asks of base64: it reads back what it wrote, in plain letters, four for every
three bytes. -/
structure Base64Codec (C : ScramCrypto) : Prop where
  reads_back : ∀ bytes, C.decode (C.encode bytes) = .ok bytes
  ascii : ∀ bytes, ∀ l ∈ C.encode bytes, l.utf8Size = 1
  sized : ∀ bytes, (C.encode bytes).length = (bytes.length + 2) / 3 * 4

theorem utf8Length_ascii (s : Str) (ascii : ∀ l ∈ s, l.utf8Size = 1) : utf8Length s = s.length := by
  induction s with
  | nil => rfl
  | cons l rest ih =>
      have first := ascii l List.mem_cons_self
      have later := ih fun l' member => ascii l' (List.mem_cons_of_mem l member)
      simp only [utf8Length, List.map_cons, List.sum_cons, List.length_cons] at later ⊢
      omega

/-- The pieces of a list are full but for the last one, which is not empty. -/
structure Pieces {α : Type} (n : Nat) (pieces : List (List α)) (whole : List α) where
  full : List (List α)
  last : List α
  pieces_eq : pieces = full ++ [last]
  whole_eq : whole = full.flatten ++ last
  full_length : ∀ piece ∈ full, piece.length = n
  last_pos : 0 < last.length
  last_le : last.length ≤ n

theorem pieces_go {α : Type} (n : Nat) (xs : List α) (current : Array α) (done : Array (List α))
    (started : 0 < current.size) (room : current.size ≤ n) :
    ∃ pieces, List.toChunks.go n xs current done = done.toList ++ pieces ∧
      Nonempty (Pieces n pieces (current.toList ++ xs)) := by
  induction xs generalizing current done with
  | nil =>
      refine ⟨[current.toList], by simp [List.toChunks.go], ⟨[], current.toList, rfl, by simp,
        by simp, by simpa using started, by simpa using room⟩⟩
  | cons x rest ih =>
      simp only [List.toChunks.go, beq_iff_eq]
      split
      · rename_i fullNow
        rcases ih #[x] (done.push current.toList) (by simp) (by simp; omega) with
          ⟨pieces, same, ⟨cut⟩⟩
        refine ⟨current.toList :: pieces, by simp [same], ⟨current.toList :: cut.full, cut.last, ?_,
          ?_, ?_, cut.last_pos, cut.last_le⟩⟩
        · exact congrArg (current.toList :: ·) cut.pieces_eq
        · have tail := cut.whole_eq
          simp only [List.cons_append, List.nil_append] at tail
          rw [tail]
          simp
        · intro piece member
          rcases List.mem_cons.mp member with rfl | later
          · simpa using fullNow
          · exact cut.full_length piece later
      · rename_i more
        rcases ih (current.push x) done (by simp) (by simp; omega) with ⟨pieces, same, cut⟩
        refine ⟨pieces, same, ?_⟩
        simpa using cut

theorem toChunks_pieces {α : Type} (n : Nat) (positive : 0 < n) (xs : List α) (some_ : xs ≠ []) :
    Nonempty (Pieces n (xs.toChunks n) xs) := by
  cases xs with
  | nil => exact absurd rfl some_
  | cons x rest =>
      cases n with
      | zero => omega
      | succ n =>
          rcases pieces_go (n + 1) rest #[x] #[] (by simp) (by simp) with ⟨pieces, same, cut⟩
          have chunks : (x :: rest).toChunks (n + 1) = pieces := by
            simpa [List.toChunks] using same
          rw [chunks]
          simpa using cut

variable (C : ScramCrypto)

/-- The message that carries a line. -/
def authenticateLine (line : Str) : StreamItem := .message (.authenticate line)

/-- Full lines are kept and the wait goes on. -/
theorem await_full (full : List Str) (before : List Str) (total : Nat) (rest : List StreamItem)
    (sized : ∀ line ∈ full, utf8Length line = chunkBytes)
    (fits : total + chunkBytes * full.length ≤ maxAuthenticateBytes) (closed timedOut : Str) :
    await (payloadStep C) closed timedOut (before, total) (full.map authenticateLine ++ rest) =
      let later := await (payloadStep C) closed timedOut
        (before ++ full, total + chunkBytes * full.length) rest
      (later.1, full.map authenticateLine ++ later.2.1, later.2.2) := by
  induction full generalizing before total with
  | nil => simp
  | cons line full ih =>
      have long := sized line List.mem_cons_self
      have room : ¬total + chunkBytes > maxAuthenticateBytes := by
        simp only [List.length_cons, Nat.mul_add] at fits
        omega
      have step : payloadStep C (before, total) (.authenticate line) =
          .ok (.inr (before ++ [line], total + chunkBytes)) := by
        simp only [payloadStep, long, room, if_false, lt_irrefl]
      have later := ih (before ++ [line]) (total + chunkBytes)
        (fun l member => sized l (List.mem_cons_of_mem line member)) (by
          simp only [List.length_cons, Nat.mul_add] at fits
          omega)
      have count : total + chunkBytes * (full.length + 1) =
          total + chunkBytes + chunkBytes * full.length := by
        rw [Nat.mul_add]
        omega
      simp only [List.map_cons, List.cons_append, authenticateLine, await, accountRequired,
        Bool.false_eq_true, if_false, step, List.length_cons, count] at later ⊢
      rw [later]
      simp

/-- A short line ends the wait with what the lines carry. -/
theorem await_last (line : Str) (before : List Str) (total : Nat) (rest : List StreamItem)
    (short : utf8Length line < chunkBytes) (fits : total + utf8Length line ≤ maxAuthenticateBytes)
    (bytes : Bytes) (carried : reassembleAuthenticate C (before ++ [line]) = .ok bytes)
    (closed timedOut : Str) :
    await (payloadStep C) closed timedOut (before, total) (authenticateLine line :: rest) =
      (.ok bytes, [authenticateLine line], rest) := by
  have step : payloadStep C (before, total) (.authenticate line) = .ok (.inl bytes) := by
    simp only [payloadStep, if_neg (Nat.not_lt.mpr fits), short, if_true, carried]
    rfl
  simp only [authenticateLine, await, accountRequired, Bool.false_eq_true, if_false, step]

/-- The fold that joins the chunks. -/
def joinChunks (chunks : List Str) (payload : Str) : Except SaslError Str :=
  chunks.foldlM (fun payload chunk =>
    if chunk = "+".toList then .ok payload
    else if utf8Length payload + utf8Length chunk > maxAuthenticateBytes then .error payloadTooLong
    else .ok (payload ++ chunk)) payload

theorem joinChunks_eq (chunks : List Str) (payload : Str)
    (data : ∀ chunk ∈ chunks, chunk ≠ "+".toList)
    (fits : utf8Length (payload ++ chunks.flatten) ≤ maxAuthenticateBytes) :
    joinChunks chunks payload = .ok (payload ++ chunks.flatten) := by
  induction chunks generalizing payload with
  | nil => simp [joinChunks, pure, Except.pure]
  | cons chunk rest ih =>
      have room : ¬utf8Length payload + utf8Length chunk > maxAuthenticateBytes := by
        simp only [List.flatten_cons, utf8Length_append] at fits
        omega
      have later := ih (payload ++ chunk) (fun c member => data c (List.mem_cons_of_mem chunk member))
        (by simpa [List.append_assoc] using fits)
      simp only [joinChunks, List.foldlM_cons, data chunk List.mem_cons_self, if_false, room] at later ⊢
      rw [List.flatten_cons, ← List.append_assoc]
      exact later

theorem joinChunks_plus (chunks : List Str) (payload : Str) :
    joinChunks (chunks ++ ["+".toList]) payload = joinChunks chunks payload := by
  simp only [joinChunks, List.foldlM_append, List.foldlM_cons, List.foldlM_nil, if_true]
  exact bind_pure _

theorem reassemble_of_join {chunks : List Str} {bytes : Bytes} (codec : Base64Codec C)
    (joined : joinChunks chunks [] = .ok (C.encode bytes)) :
    reassembleAuthenticate C chunks = .ok bytes := by
  have same : reassembleAuthenticate C chunks = (joinChunks chunks []) >>= fun payload =>
      if payload = [] then pure []
      else (C.decode payload).mapError fun e =>
        .eyre ("SASL: invalid base64 in AUTHENTICATE: ".toList ++ e) := rfl
  rw [same, joined]
  simp only [bind, Except.bind]
  split
  · rename_i empty
    have nothing := codec.sized bytes
    rw [empty] at nothing
    have short : bytes.length = 0 := by
      simp only [List.length_nil] at nothing
      omega
    rw [List.length_eq_zero_iff.mp short]
    rfl
  · rw [codec.reads_back]
    rfl

/-- What a payload in base64 is cut into: full lines of data and a short one, which is a plus alone
when there is nothing to carry or nothing left. -/
theorem framing_lines (codec : Base64Codec C) (bytes : Bytes)
    (fits : utf8Length (C.encode bytes) ≤ maxAuthenticateBytes) :
    ∃ full last, chunkAuthenticate (C.encode bytes) = full ++ [last] ∧
      (∀ line ∈ full, utf8Length line = chunkBytes) ∧ utf8Length last < chunkBytes ∧
      (chunkBytes * full.length + utf8Length last = utf8Length (C.encode bytes) ∨
        last = "+".toList ∧ chunkBytes * full.length = utf8Length (C.encode bytes)) ∧
      joinChunks (full ++ [last]) [] = .ok (C.encode bytes) := by
  have ascii := codec.ascii bytes
  have fours := codec.sized bytes
  generalize C.encode bytes = text at ascii fours fits ⊢
  by_cases empty : text = []
  · refine ⟨[], "+".toList, by simp [chunkAuthenticate, empty], by simp, by decide,
      .inr ⟨rfl, by simp [empty, utf8Length]⟩, by rw [empty]; rfl⟩
  · rcases toChunks_pieces 400 (by omega) text empty with ⟨cut⟩
    have within (piece : Str) (member : piece ∈ cut.full ++ [cut.last]) :
        utf8Length piece = piece.length := by
      apply utf8Length_ascii
      intro l inside
      apply ascii l
      rw [cut.whole_eq]
      rcases List.mem_append.mp member with front | back
      · exact List.mem_append_left _ (List.mem_flatten.mpr ⟨piece, front, inside⟩)
      · rw [List.mem_singleton.mp back] at inside
        exact List.mem_append_right _ inside
    have full (line : Str) (member : line ∈ cut.full) : utf8Length line = chunkBytes := by
      rw [within line (List.mem_append_left _ member), cut.full_length line member]
      rfl
    have flat : cut.full.flatten.length = chunkBytes * cut.full.length := by
      rw [List.length_flatten, List.map_congr_left cut.full_length, List.map_const',
        List.sum_replicate, smul_eq_mul, Nat.mul_comm]
      rfl
    have size := congrArg List.length cut.whole_eq
    rw [List.length_append, flat] at size
    have lastSize := within cut.last (by simp)
    have textSize := utf8Length_ascii text ascii
    have positive := cut.last_pos
    have bounded := cut.last_le
    have data (chunk : Str) (member : chunk ∈ cut.full ++ [cut.last]) : chunk ≠ "+".toList := by
      have quarter : chunk.length % 4 = 0 := by
        rcases List.mem_append.mp member with front | back
        · rw [cut.full_length chunk front]
        · rw [List.mem_singleton.mp back]
          simp only [chunkBytes] at size
          omega
      intro same
      rw [same] at quarter
      exact absurd quarter (by decide)
    have whole : (cut.full ++ [cut.last]).flatten = text := by
      simpa using cut.whole_eq.symm
    have joined : joinChunks (cut.full ++ [cut.last]) [] = .ok text := by
      have joins := joinChunks_eq (cut.full ++ [cut.last]) [] data
        (by rw [List.nil_append, whole]; exact fits)
      rwa [List.nil_append, whole] at joins
    by_cases filled : cut.last.length = 400
    · refine ⟨cut.full ++ [cut.last], "+".toList, ?_, ?_, by decide, .inr ⟨rfl, ?_⟩, ?_⟩
      · simp [chunkAuthenticate, empty, cut.pieces_eq, filled]
      · intro line member
        rcases List.mem_append.mp member with front | back
        · exact full line front
        · rw [List.mem_singleton.mp back, lastSize, filled]
          rfl
      · simp only [List.length_append, List.length_singleton, chunkBytes] at size ⊢
        omega
      · rw [joinChunks_plus, joined]
    · refine ⟨cut.full, cut.last, ?_, full, ?_, .inl ?_, joined⟩
      · simp [chunkAuthenticate, empty, cut.pieces_eq, filled]
      · rw [lastSize, chunkBytes]
        omega
      · rw [lastSize, textSize]
        omega

/-- The lines of a payload, read one after the other, give back the payload; the wait ends with the
last of them, whatever follows. -/
theorem authenticate_framing_round_trip (codec : Base64Codec C) (bytes : Bytes)
    (fits : utf8Length (C.encode bytes) ≤ maxAuthenticateBytes) (rest : List StreamItem) :
    awaitAuthenticatePayload C ((chunkAuthenticate (C.encode bytes)).map authenticateLine ++ rest) =
        (.ok bytes, (chunkAuthenticate (C.encode bytes)).map authenticateLine, rest) ∧
      ∀ line ∈ chunkAuthenticate (C.encode bytes), utf8Length line ≤ chunkBytes := by
  rcases framing_lines C codec bytes fits with ⟨full, last, lines, sized, short, total, joined⟩
  -- The plus after a full line counts towards the limit, which is no multiple of a line.
  have room : 0 + chunkBytes * full.length + utf8Length last ≤ maxAuthenticateBytes := by
    rcases total with exact_ | ⟨plus, exact_⟩
    · omega
    · have one : utf8Length last = 1 := by
        rw [plus]
        rfl
      simp only [chunkBytes, maxAuthenticateBytes] at *
      omega
  have carried := reassemble_of_join C codec joined
  have ends := await_last C last full (0 + chunkBytes * full.length) rest short room bytes carried
    "connection closed waiting for AUTHENTICATE payload".toList
    "SASL authentication timed out waiting for a challenge".toList
  constructor
  · have reads := await_full C full [] 0 (authenticateLine last :: rest) sized (by omega)
      "connection closed waiting for AUTHENTICATE payload".toList
      "SASL authentication timed out waiting for a challenge".toList
    rw [List.nil_append, ends] at reads
    rw [lines, List.map_append, List.append_assoc]
    exact reads
  · intro line member
    rw [lines] at member
    rcases List.mem_append.mp member with front | back
    · rw [sized line front]
    · rw [List.mem_singleton.mp back]
      omega

/-- The crates stood in for by fixed answers, but for base64. -/
def framingCrypto : ScramCrypto where
  digest _ bytes := bytes
  hmac _ _ bytes := bytes
  pbkdf2 _ _ _ _ := []
  encode := Base64.encode
  decode text := (Base64.decode text).elim (.error "Invalid byte".toList) .ok
  stringprep := some
  utf8Error _ := []

theorem framingCrypto_base64 : Base64Codec framingCrypto where
  reads_back bytes := by simp [framingCrypto, Base64.decode_encode]
  ascii := Base64.encode_ascii
  sized := Base64.length_encode

/-- 300 bytes make a full line and a plus. -/
theorem authenticate_framing_round_trip_full_line :
    awaitAuthenticatePayload framingCrypto
        ((chunkAuthenticate (Base64.encode (List.replicate 300 0))).map authenticateLine ++ []) =
      (.ok (List.replicate 300 0),
        (chunkAuthenticate (Base64.encode (List.replicate 300 0))).map authenticateLine, []) ∧
      ∀ line ∈ chunkAuthenticate (Base64.encode (List.replicate 300 0)),
        utf8Length line ≤ chunkBytes := by
  apply authenticate_framing_round_trip framingCrypto framingCrypto_base64 (List.replicate 300 0)
  rw [show framingCrypto.encode = Base64.encode from rfl,
    utf8Length_ascii _ (Base64.encode_ascii _), Base64.length_encode, List.length_replicate]
  decide

end Repartee.Irc
