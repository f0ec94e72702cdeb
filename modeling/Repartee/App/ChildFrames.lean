import Repartee.App.BouncerChildren
import Repartee.Irc.NetworkRuns
import Repartee.Fields

/-!
What the operations on bouncer children leave as it was. The id of a child names its network and
is kept from the connections the user opens; that is what keeps the children apart.
-/

namespace Repartee.Children

open Text Lib
open Config (AppConfig ServerConfig)
open Irc (Network NetworkRegistry RegistryEvent Identity makeBufferId normalizeNetworkId)

section Ids

/-- The form of the ids of children. -/
def Reserved (id : Str) : Prop := "_bouncer:".toList <+: id

instance (id : Str) : Decidable (Reserved id) := inferInstanceAs (Decidable (_ <+: _))

/-- The network an id of a child names. -/
def idNetwork (id : Str) : Option Str := (id.splitOn ':')[4]?

theorem digit_plain (c : Char) (digit : c.isDigit = true) : c ≠ ':' ∧ c ≠ '/' :=
  ⟨digit_ne c ':' digit (by decide), digit_ne c '/' digit (by decide)⟩

theorem hexEncode_ids (bytes : Bytes) : ∀ c ∈ hexEncode bytes, c ≠ ':' ∧ c ≠ '/' := by
  intro c member
  have plain : ∀ n < 16, hexDigit n ≠ ':' ∧ hexDigit n ≠ '/' := by decide
  simp only [hexEncode, List.mem_flatMap, List.mem_cons, List.not_mem_nil, or_false] at member
  obtain ⟨b, _, rfl | rfl⟩ := member
  · exact plain _ (by have bound := b.toNat_lt; omega)
  · exact plain _ (by omega)

theorem parseDigits_le (max : Nat) (overflow digits : Str) (acc n : Nat) (small : acc ≤ max)
    (read : parseDigits max acc overflow digits = .ok n) : n ≤ max := by
  induction digits generalizing acc with
  | nil =>
      cases read
      exact small
  | cons c rest ih =>
      rw [parseDigits] at read
      split at read
      · cases read
      · split at read
        · rename_i fits
          exact ih _ fits read
        · cases read

theorem parseI64_le (text : Str) (n : Nat) (read : parseI64 text = .ok (n : Int)) :
    n ≤ 2 ^ 63 := by
  have bound (max : Nat) (overflow digits : Str) (small : max ≤ 2 ^ 63)
      (read : (parseDigits max 0 overflow digits).map Int.ofNat = .ok (n : Int)) : n ≤ 2 ^ 63 := by
    cases digits_read : parseDigits max 0 overflow digits with
    | error e =>
        rw [digits_read] at read
        cases read
    | ok m =>
        rw [digits_read] at read
        have same : m = n := Int.ofNat.inj (Except.ok.inj read)
        have fits := parseDigits_le max overflow digits 0 m (Nat.zero_le max) digits_read
        omega
  rw [parseI64.eq_def] at read
  split at read
  · cases read
  · cases read
  · cases read
  · rename_i rest _
    cases digits_read : parseDigits (2 ^ 63) 0 tooSmall rest with
    | error e =>
        rw [digits_read] at read
        cases read
    | ok m =>
        rw [digits_read] at read
        have same : -(m : Int) = n := Except.ok.inj read
        omega
  · exact bound _ _ _ (by omega) read
  · exact bound _ _ _ (by omega) read

/-- A network id in its normal form is the text of a number. -/
theorem normal_natText {id : Str} (normal : normalizeNetworkId id = some id) :
    ∃ n < 2 ^ 64, id = natText n := by
  rw [normalizeNetworkId] at normal
  split at normal
  · cases read : parseI64 id with
    | error e =>
        rw [read] at normal
        cases normal
    | ok t =>
        rw [read] at normal
        simp only at normal
        split at normal
        · cases t with
          | ofNat n =>
              have fits := parseI64_le id n read
              exact ⟨n, by omega, (Option.some.inj normal).symm⟩
          | negSucc n =>
              rename_i positive
              exact absurd positive (by omega)
        · cases normal
  · cases normal

theorem normal_ids {id : Str} (normal : normalizeNetworkId id = some id) :
    ∀ c ∈ id, c ≠ ':' ∧ c ≠ '/' := by
  obtain ⟨n, _, rfl⟩ := normal_natText normal
  intro c member
  exact digit_plain c (natText_digits n c member)

theorem scopeNetwork_normal {id : Str} (normal : normalizeNetworkId id = some id) :
    scopeNetwork (some id) = id := by
  obtain ⟨n, fits, rfl⟩ := normal_natText normal
  have read : parseU64 (natText n) = .ok n := parseUnsigned_natText (2 ^ 64 - 1) n (by omega)
  simp only [scopeNetwork, read]

/-- An id a child of the network can have. -/
structure NamesNetwork (id network : Str) : Prop where
  reserved : Reserved id
  plain : '/' ∉ id
  network : idNetwork id = some network

theorem mem_intercalate (separator : Char) (parts : List Str) (c : Char)
    (member : c ∈ [separator].intercalate parts) : c = separator ∨ ∃ part ∈ parts, c ∈ part := by
  induction parts with
  | nil => simp at member
  | cons part rest ih =>
      cases rest with
      | nil => exact Or.inr ⟨part, List.mem_singleton_self part, by simpa using member⟩
      | cons next others =>
          rw [List.intercalate_cons_cons, List.append_assoc, List.mem_append] at member
          rcases member with here | later
          · exact Or.inr ⟨part, List.mem_cons_self, here⟩
          · rcases List.mem_cons.mp later with same | later
            · exact Or.inl same
            · rcases ih later with same | ⟨x, inside, here⟩
              · exact Or.inl same
              · exact Or.inr ⟨x, List.mem_cons_of_mem part inside, here⟩

/-- The parts of the id of a child, behind each other with colons between them. -/
theorem namesNetwork_parts (hash network : Str) (number : List Str)
    (plain : ∀ part ∈ hash :: network :: number, ∀ c ∈ part, c ≠ ':' ∧ c ≠ '/') :
    NamesNetwork ([':'].intercalate
      ("_bouncer".toList :: "bouncer".toList :: "v1".toList :: hash :: network :: number))
      network := by
  let parts := "_bouncer".toList :: "bouncer".toList :: "v1".toList :: hash :: network :: number
  have clean : ∀ part ∈ parts, ∀ c ∈ part, c ≠ ':' ∧ c ≠ '/' := by
    intro part member
    simp only [parts, List.mem_cons] at member
    rcases member with rfl | rfl | rfl | others
    · simp
    · simp
    · simp
    · exact plain part (by simpa using others)
  constructor
  · exact ⟨[':'].intercalate ("bouncer".toList :: "v1".toList :: hash :: network :: number), rfl⟩
  · intro inside
    rcases mem_intercalate ':' parts '/' inside with colon | ⟨part, member, here⟩
    · exact absurd colon (by decide)
    · exact (clean part member _ here).2 rfl
  · rw [idNetwork, List.splitOn_intercalate ':' (fun part member c => (clean part member _ c).1 rfl)
      (by simp)]
    rfl

variable (sha256 : Bytes → Bytes)

theorem networkScope_bound (account username : Str) (server : ServerConfig) {network : Str}
    (bound : server.bouncerNetworkId = some network)
    (normal : normalizeNetworkId network = some network) :
    ∃ bytes, networkScope sha256 account server username =
      scopePrefix ++ hexEncode bytes ++ ':' :: network := by
  have network_part : scopeNetwork server.bouncerNetworkId = network := by
    rw [bound, scopeNetwork_normal normal]
  refine ⟨sha256 (accountBytes account server username), ?_⟩
  rw [networkScope, network_part, bound, if_neg (by simp)]

theorem childBase_parts (hash network : Str) :
    App.childBase (scopePrefix ++ hash ++ ':' :: network) =
      [':'].intercalate ["_bouncer".toList, "bouncer".toList, "v1".toList, hash, network] := by
  unfold App.childBase scopePrefix
  simp only [List.intercalate_cons_cons, List.intercalate_singleton, String.reduceToList,
    List.cons_append, List.nil_append, List.append_assoc]

theorem childBase_numbered_parts (hash network number : Str) :
    App.childBase (scopePrefix ++ hash ++ ':' :: network) ++ ':' :: number =
      [':'].intercalate
        ["_bouncer".toList, "bouncer".toList, "v1".toList, hash, network, number] := by
  unfold App.childBase scopePrefix
  simp only [List.intercalate_cons_cons, List.intercalate_singleton, String.reduceToList,
    List.cons_append, List.nil_append, List.append_assoc]

theorem namesNetwork_base (account username : Str) (server : ServerConfig) {network : Str}
    (bound : server.bouncerNetworkId = some network)
    (normal : normalizeNetworkId network = some network) :
    NamesNetwork (App.childBase (networkScope sha256 account server username)) network := by
  obtain ⟨bytes, scope⟩ := networkScope_bound sha256 account username server bound normal
  have plain : ∀ part ∈ [hexEncode bytes, network], ∀ c ∈ part, c ≠ ':' ∧ c ≠ '/' := by
    simp only [List.forall_mem_cons, List.not_mem_nil, false_implies, implies_true, and_true]
    exact ⟨hexEncode_ids bytes, normal_ids normal⟩
  rw [scope, childBase_parts]
  exact namesNetwork_parts (hexEncode bytes) network [] plain

theorem namesNetwork_numbered (account username : Str) (server : ServerConfig) {network : Str}
    (bound : server.bouncerNetworkId = some network)
    (normal : normalizeNetworkId network = some network) (n : Nat) :
    NamesNetwork (App.childBase (networkScope sha256 account server username) ++ ':' :: natText n)
      network := by
  obtain ⟨bytes, scope⟩ := networkScope_bound sha256 account username server bound normal
  have digits : ∀ c ∈ natText n, c ≠ ':' ∧ c ≠ '/' := fun c member =>
    digit_plain c (natText_digits n c member)
  have plain : ∀ part ∈ [hexEncode bytes, network, natText n], ∀ c ∈ part, c ≠ ':' ∧ c ≠ '/' := by
    simp only [List.forall_mem_cons, List.not_mem_nil, false_implies, implies_true, and_true]
    exact ⟨hexEncode_ids bytes, normal_ids normal, digits⟩
  rw [scope, childBase_numbered_parts]
  exact namesNetwork_parts (hexEncode bytes) network [natText n] plain

/-- The id of a new child is one nothing has. -/
theorem freeId_free (app : App) (base : Str) :
    app.connections.get? (app.freeId base) = none ∧ app.config.servers.get? (app.freeId base) = none := by
  let count := app.connections.rows.length + app.config.servers.rows.length
  let candidates := base :: (List.range' 1 count).map fun n => base ++ ':' :: natText n
  let free : Str → Bool := fun id =>
    (app.connections.get? id).isNone && (app.config.servers.get? id).isNone
  show app.connections.get? ((candidates.find? free).getD base) = none ∧
    app.config.servers.get? ((candidates.find? free).getD base) = none
  cases found : candidates.find? free with
  | some id => simpa [free] using List.find?_some found
  | none =>
      -- One more candidate than there are ids in use.
      have distinct : candidates.Nodup := by
        refine List.nodup_cons.mpr ⟨?_, List.Nodup.map (fun m n same => ?_) List.nodup_range'⟩
        · intro inside
          obtain ⟨n, _, same⟩ := List.mem_map.mp inside
          exact absurd (congrArg List.length same) (by simp)
        · exact natText_injective (List.cons.inj (List.append_cancel_left same)).2
      have taken : candidates ⊆
          app.connections.rows.map Prod.fst ++ app.config.servers.rows.map Prod.fst := by
        intro id member
        have used := List.find?_eq_none.mp found id member
        rw [List.mem_append]
        cases conn : app.connections.get? id with
        | some c => exact Or.inl (List.mem_map.mpr ⟨_, (Map.get?_eq_some _ _ _).mp conn, rfl⟩)
        | none =>
            cases server : app.config.servers.get? id with
            | some c => exact Or.inr (List.mem_map.mpr ⟨_, (Map.get?_eq_some _ _ _).mp server, rfl⟩)
            | none => simp [free, conn, server] at used
      have short := (distinct.subperm taken).length_le
      simp [candidates, count] at short

theorem freeId_names (app : App) (account username : Str) (server : ServerConfig) {network : Str}
    (bound : server.bouncerNetworkId = some network)
    (normal : normalizeNetworkId network = some network) :
    NamesNetwork (app.freeId (App.childBase (networkScope sha256 account server username)))
      network := by
  have base := namesNetwork_base sha256 account username server bound normal
  simp only [App.freeId]
  cases found : List.find? _ _ with
  | none => exact base
  | some id =>
      rcases List.mem_cons.mp (List.mem_of_find?_eq_some found) with rfl | numbered
      · exact base
      · obtain ⟨n, _, rfl⟩ := List.mem_map.mp numbered
        exact namesNetwork_numbered sha256 account username server bound normal n

end Ids

section Frames

namespace App

/-- The buffers of a connection. -/
def shown (app : App) (d key : Str) : Option Buffer :=
  (app.buffers.get? key).filter fun buffer => decide (buffer.connectionId = d)

/-- Only connections of a kind change, with their buffers. -/
structure Moves (mine : Str → Prop) (app app' : App) : Prop where
  connections : ∀ d, ¬mine d → app'.connections.get? d = app.connections.get? d
  buffers : ∀ d, ¬mine d → app'.shown d = app.shown d

variable {mine : Str → Prop} {a b c : App}

theorem Moves.refl : Moves mine a a := ⟨fun _ _ => rfl, fun _ _ => rfl⟩

theorem Moves.trans (first : Moves mine a b) (second : Moves mine b c) : Moves mine a c where
  connections d other := (second.connections d other).trans (first.connections d other)
  buffers d other := (second.buffers d other).trans (first.buffers d other)

theorem Moves.mono {more : Str → Prop} (moves : Moves mine a b) (within : ∀ d, mine d → more d) :
    Moves more a b where
  connections d other := moves.connections d fun here => other (within d here)
  buffers d other := moves.buffers d fun here => other (within d here)

variable (unicode : Irc.Unicode)

/-- Buffers are filed under the ids of their connections and names; where the connection is a
child's, no other connection has a buffer under such an id. -/
def Owned (app : App) : Prop :=
  ∀ key buffer, app.buffers.get? key = some buffer →
    key = makeBufferId unicode buffer.connectionId buffer.name ∧
      (Reserved buffer.connectionId → '/' ∉ buffer.connectionId)

end App

end Frames

end Repartee.Children
