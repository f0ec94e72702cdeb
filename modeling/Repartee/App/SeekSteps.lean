import Repartee.App.Seeks

/-!
What one seek does, from an index or from the edges of a view, and how little of that depends on
the messages a collapse drops.
-/

namespace Repartee.App

open Text Lib State Ui

/-- What one seek comes to. -/
inductive Outcome where
  | stays
  | lands (index : Nat)
  | live
  deriving DecidableEq

/-- The same outcome in a buffer with so many older messages. -/
def Outcome.shift (older : Nat) : Outcome → Outcome
  | .stays => .stays
  | .lands index => .lands (older + index)
  | .live => .live

def outcome (messages : List Message) (position : SeekPosition) (direction : SeekDirection) :
    Outcome :=
  match (advance messages position [direction]).1 with
  | .view _ _ => .stays
  | .at_ index => .lands index
  | .live => .live

section Outcomes

variable {messages : List Message} {index found : Nat} {top bottom : Option Nat}
  {direction : SeekDirection} {queue : List SeekDirection}

theorem outcome_at_previous :
    outcome messages (.at_ index) .previous =
      .lands ((nearestHighlight messages .previous (some index)).getD index) := by
  simp only [outcome, advance, seekFrom]
  cases nearestHighlight messages .previous (some index) <;> rfl

theorem outcome_at_next :
    outcome messages (.at_ index) .next =
      ((nearestHighlight messages .next (some index)).map Outcome.lands).getD .live := by
  simp only [outcome, advance, seekFrom]
  cases nearestHighlight messages .next (some index) <;> rfl

theorem outcome_view_previous :
    outcome messages (.view top bottom) .previous =
      ((nearestHighlight messages .previous top).map Outcome.lands).getD .stays := by
  simp only [outcome, advance, seekFrom]
  cases nearestHighlight messages .previous top <;> rfl

theorem outcome_view_next :
    outcome messages (.view top (some index)) .next =
      ((nearestHighlight messages .next (some index)).map Outcome.lands).getD .live := by
  simp only [outcome, advance, seekFrom]
  cases nearestHighlight messages .next (some index) <;> rfl

theorem outcome_view_next_none : outcome messages (.view top none) .next = .stays := rfl

theorem outcome_at_ne_stays : outcome messages (.at_ index) direction ≠ .stays := by
  cases direction with
  | previous => simp [outcome_at_previous]
  | next =>
      rw [outcome_at_next]
      cases nearestHighlight messages .next (some index) <;> simp

theorem advance_nil (position : SeekPosition) : advance messages position [] = (position, []) := by
  cases position <;> rfl

theorem advance_from_live : advance messages .live queue = (.live, queue) := by
  cases queue <;> rfl

variable {position : SeekPosition}

theorem advance_cons (known : position ≠ .live) :
    advance messages position (direction :: queue) =
      advance messages (advance messages position [direction]).1 queue := by
  cases position with
  | live => exact absurd rfl known
  | at_ index => simp only [advance]
  | view top bottom =>
      cases direction with
      | previous => simp only [advance]
      | next => cases bottom <;> simp only [advance]

/-- A seek that stays keeps its view. -/
theorem advance_stays (stays : outcome messages (.view top bottom) direction = .stays) :
    (advance messages (.view top bottom) [direction]).1 = .view top bottom := by
  cases direction with
  | previous =>
      rw [outcome_view_previous] at stays
      cases near : nearestHighlight messages .previous top with
      | none => simp [advance, seekFrom, near]
      | some found => simp [near] at stays
  | next =>
      cases bottom with
      | none => rfl
      | some index =>
          rw [outcome_view_next] at stays
          cases near : nearestHighlight messages .next (some index) with
          | none => simp [near] at stays
          | some found => simp [near] at stays

theorem advance_lands (lands : outcome messages position direction = .lands index) :
    (advance messages position [direction]).1 = .at_ index := by
  unfold outcome at lands
  split at lands
  · cases lands
  · rename_i index_ reached
    cases lands
    exact reached
  · cases lands

theorem advance_live (live : outcome messages position direction = .live) :
    (advance messages position [direction]).1 = .live := by
  unfold outcome at live
  split at live
  · cases live
  · cases live
  · assumption

end Outcomes

/-- Whether there is a highlight at an index. -/
def highlightAt (messages : List Message) (index : Nat) : Bool := messages[index]?.any isHighlight

section Nearest

variable {messages : List Message} {i j : Nat}

theorem highlightAt_lt (here : highlightAt messages i = true) : i < messages.length := by
  obtain ⟨message, found, -⟩ := (Option.any_eq_true _ _).mp here
  exact (List.getElem?_eq_some_iff.mp found).1

theorem highlightAt_drop (c : Nat) : highlightAt (messages.drop c) i = highlightAt messages (c + i) := by
  rw [highlightAt, highlightAt, List.getElem?_drop]

theorem highlightAt_take :
    ((messages.take i)[j]?).any isHighlight = (decide (j < i) && highlightAt messages j) := by
  rw [List.getElem?_take, highlightAt]
  by_cases before : j < i
  · simp [before]
  · simp [before]

theorem nearestHighlight_previous_eq_some :
    nearestHighlight messages .previous (some i) = some j ↔
      j < i ∧ highlightAt messages j = true ∧ ∀ k, j < k → k < i → highlightAt messages k = false := by
  rw [nearestHighlight, Option.getD_some, rposition_eq_some_iff]
  simp only [highlightAt_take, Bool.and_eq_true, decide_eq_true_eq, Bool.and_eq_false_imp]
  exact and_assoc

theorem nearestHighlight_previous_eq_none :
    nearestHighlight messages .previous (some i) = none ↔
      ∀ k < i, highlightAt messages k = false := by
  rw [nearestHighlight, Option.getD_some, rposition_eq_none_iff]
  simp only [highlightAt_take, Bool.and_eq_false_imp, decide_eq_true_eq]

/-- From no row the search begins at the end. -/
theorem nearestHighlight_previous_none :
    nearestHighlight messages .previous none =
      nearestHighlight messages .previous (some messages.length) := rfl

theorem nearestHighlight_next_eq_some :
    nearestHighlight messages .next (some i) = some j ↔
      i < j ∧ highlightAt messages j = true ∧ ∀ k, i < k → k < j → highlightAt messages k = false := by
  have place : ∀ k, ((messages.drop (i + 1))[k]?).any isHighlight = highlightAt messages (i + 1 + k) :=
    fun k => highlightAt_drop (i + 1)
  simp only [nearestHighlight, Option.bind_some, Option.map_eq_some_iff, findIdx?_eq_some_iff_any,
    place]
  constructor
  · rintro ⟨k, ⟨here, others⟩, rfl⟩
    refine ⟨by omega, here, fun m later before => ?_⟩
    have none_ := others (m - (i + 1)) (by omega)
    rwa [Nat.add_sub_cancel' later] at none_
  · rintro ⟨later, here, others⟩
    refine ⟨j - (i + 1), ⟨?_, fun k before => others _ (by omega) (by omega)⟩, by omega⟩
    rwa [Nat.add_sub_cancel' later]

theorem nearestHighlight_next_eq_none :
    nearestHighlight messages .next (some i) = none ↔
      ∀ k, i < k → highlightAt messages k = false := by
  have place : ∀ k, ((messages.drop (i + 1))[k]?).any isHighlight = highlightAt messages (i + 1 + k) :=
    fun k => highlightAt_drop (i + 1)
  simp only [nearestHighlight, Option.bind_some, Option.map_eq_none_iff, findIdx?_eq_none_iff_any,
    place]
  constructor
  · intro none_ k later
    have none_ := none_ (k - (i + 1))
    rwa [Nat.add_sub_cancel' later] at none_
  · exact fun none_ k => none_ _ (by omega)

/-- What lies below an index is found wherever the messages begin. -/
theorem nearestHighlight_next_drop (c : Nat) :
    nearestHighlight messages .next (some (c + i)) =
      (nearestHighlight (messages.drop c) .next (some i)).map (c + ·) := by
  cases near : nearestHighlight (messages.drop c) .next (some i) with
  | none =>
      rw [nearestHighlight_next_eq_none] at near
      rw [Option.map_none, nearestHighlight_next_eq_none]
      intro k later
      have none_ := near (k - c) (by omega)
      rwa [highlightAt_drop, Nat.add_sub_cancel' (by omega)] at none_
  | some j =>
      simp only [nearestHighlight_next_eq_some, highlightAt_drop] at near
      rw [Option.map_some, nearestHighlight_next_eq_some]
      refine ⟨by omega, near.2.1, fun k later before => ?_⟩
      have none_ := near.2.2 (k - c) (by omega) (by omega)
      rwa [Nat.add_sub_cancel' (by omega)] at none_

/-- What lies above an index is found in the newer messages, if the older ones have no highlight. -/
theorem nearestHighlight_previous_drop {c : Nat} (older : ∀ k < c, highlightAt messages k = false) :
    nearestHighlight messages .previous (some (c + i)) =
      (nearestHighlight (messages.drop c) .previous (some i)).map (c + ·) := by
  cases near : nearestHighlight (messages.drop c) .previous (some i) with
  | none =>
      rw [nearestHighlight_previous_eq_none] at near
      rw [Option.map_none, nearestHighlight_previous_eq_none]
      intro k before
      by_cases old : k < c
      · exact older k old
      · have none_ := near (k - c) (by omega)
        rwa [highlightAt_drop, Nat.add_sub_cancel' (by omega)] at none_
  | some j =>
      simp only [nearestHighlight_previous_eq_some, highlightAt_drop] at near
      rw [Option.map_some, nearestHighlight_previous_eq_some]
      refine ⟨by omega, near.2.1, fun k later before => ?_⟩
      have none_ := near.2.2 (k - c) (by omega) (by omega)
      rwa [Nat.add_sub_cancel' (by omega)] at none_

/-- A highlight above an index is found, or a nearer one. -/
theorem nearestHighlight_previous_exists (here : highlightAt messages j = true) (before : j < i) :
    ∃ k, nearestHighlight messages .previous (some i) = some k ∧ j ≤ k ∧ k < i ∧
      highlightAt messages k = true := by
  cases near : nearestHighlight messages .previous (some i) with
  | none =>
      rw [nearestHighlight_previous_eq_none] at near
      rw [near j before] at here
      cases here
  | some k =>
      rw [nearestHighlight_previous_eq_some] at near
      refine ⟨k, rfl, ?_, near.1, near.2.1⟩
      by_contra above
      rw [near.2.2 j (by omega) before] at here
      cases here

end Nearest

/-- What stays while a conversation is sought in: the screen, the buffer shown and its kind, and
what decides whether its backlog is kept. -/
structure Setting (ρ : Type) where
  screen : Screen ρ
  bufferId : Str
  bufferType : BufferType
  limit : Nat
  logBrowserMode : Bool
  bareDisplay : Bool
  webHistoryBuffers : List Str
  chat : bufferType ≠ .shell
  wide : screen.width ≠ 0
  tall : screen.height ≠ 0

/-- Where a view has been brought: an offset from the live end, or a highlight. -/
inductive Place where
  | view (offset : Nat)
  | on (index : Nat)
  deriving DecidableEq

/-- The loaded messages, whether they are pinned, and where the view is. -/
structure Standing where
  messages : List Message
  pinned : Bool
  place : Place

namespace Setting

variable {ρ : Type} [Inhabited ρ] (S : Setting ρ)

def full (messages : List Message) : List (VisualRow ρ) :=
  wrappedRows S.screen S.bufferId messages

/-- The messages on the screen at an offset, row by row. -/
def rowsAt (messages : List Message) (offset : Nat) : List Nat :=
  (endSlice S.screen.height offset (S.full messages)).map VisualRow.message

/-- The place in a buffer of the edges of a view that was drawn, maybe when it held more. -/
def edgesIn (drawn messages : List Message) (offset : Nat) : SeekPosition :=
  .view ((S.rowsAt drawn offset).head?.bind (indexOf messages))
    ((S.rowsAt drawn offset).getLast?.bind (indexOf messages))

def edges (messages : List Message) (offset : Nat) : SeekPosition := S.edgesIn messages messages offset

omit [Inhabited ρ] in
/-- A seek that lands keeps the backlog of a conversation. -/
def pins : Bool := !S.logBrowserMode && pinsBacklog S.bufferType

/-- At the live end the backlog may be dropped. -/
def collapses : Bool :=
  !S.logBrowserMode && !S.bareDisplay && !S.webHistoryBuffers.contains S.bufferId

def position (st : Standing) : SeekPosition :=
  match st.place with
  | .view offset => S.edges st.messages offset
  | .on index => .at_ index

/-- Back at the live end. -/
def returned (st : Standing) : Standing :=
  if S.collapses && st.pinned then ⟨trimmed S.limit st.messages, false, .view 0⟩
  else ⟨st.messages, st.pinned, .view 0⟩

/-- One seek, which pins the backlog where it lands or does not. -/
def move (pin : Bool) (st : Standing) (direction : SeekDirection) : Standing :=
  match outcome st.messages (S.position st) direction with
  | .stays => st
  | .lands index => ⟨st.messages, st.pinned || pin, .on index⟩
  | .live => S.returned st

/-- One seek applied by itself. -/
def press : Standing → SeekDirection → Standing := S.move S.pins

/-- One seek among others that wait for the same frame: it pins nothing. -/
def glide : Standing → SeekDirection → Standing := S.move false

/-- What a buffer may hold: messages told apart by their ids, whose lines fit into memory. -/
structure Loaded (messages : List Message) : Prop where
  distinct : (messages.map fun m => m.rest.id).Nodup
  fits : (S.full messages).length ≤ Session.usizeMax

end Setting

section Edges

variable {ρ : Type} [Inhabited ρ] (S : Setting ρ) {messages : List Message}

theorem full_append (older newer : List Message) :
    S.full (older ++ newer) = S.full older ++ S.full newer := wrappedRows_append older newer

theorem full_take_drop (messages : List Message) (c : Nat) :
    S.full messages = S.full (messages.take c) ++ S.full (messages.drop c) := by
  rw [← full_append, List.take_append_drop]

theorem Setting.Loaded.drop (loaded : S.Loaded messages) (c : Nat) : S.Loaded (messages.drop c) where
  distinct := (List.map_drop ▸ loaded.distinct.sublist (List.drop_sublist c _) :)
  fits := by
    have whole := congrArg List.length (full_take_drop S messages c)
    rw [List.length_append] at whole
    have fits := loaded.fits
    omega

theorem Setting.Loaded.trimmed (loaded : S.Loaded messages) (limit : Nat) :
    S.Loaded (trimmed limit messages) := by
  unfold App.trimmed
  split
  · exact loaded.drop S _
  · exact loaded

omit [Inhabited ρ] in
theorem indexOf_eq_some (distinct : (messages.map fun m => m.rest.id).Nodup) {index : Nat}
    {message : Message} (here : messages[index]? = some message) :
    indexOf messages message.rest.id = some index := by
  obtain ⟨inside, rfl⟩ := List.getElem?_eq_some_iff.mp here
  rw [indexOf, List.findIdx?_eq_some_iff_getElem]
  refine ⟨inside, beq_self_eq_true _, fun j before same => ?_⟩
  have ids := (List.nodup_iff_injective_getElem.mp distinct)
  have mapped : (⟨j, by rw [List.length_map]; omega⟩ : Fin (messages.map fun m => m.rest.id).length) =
      ⟨index, by rw [List.length_map]; exact inside⟩ := by
    apply ids
    simpa using same
  exact absurd (Fin.mk.inj mapped) (Nat.ne_of_lt before)

omit [Inhabited ρ] in
theorem indexOf_eq_none {id : Nat} (absent : ∀ m ∈ messages, m.rest.id ≠ id) :
    indexOf messages id = none := by
  rw [indexOf, List.findIdx?_eq_none_iff]
  exact fun m member => beq_eq_false_iff_ne.mpr (absent m member)

/-- The rows of a buffer show its messages. -/
theorem mem_full {row : VisualRow ρ} (member : row ∈ S.full messages) :
    ∃ (index : Nat) (message : Message), messages[index]? = some message ∧
      row.message = message.rest.id := by
  obtain ⟨message, listed, here⟩ := List.mem_flatMap.mp member
  obtain ⟨index, found⟩ := List.mem_iff_getElem?.mp listed
  exact ⟨index, message, found, messageRows_message here⟩

theorem mem_rowsAt {offset id : Nat} (member : id ∈ S.rowsAt messages offset) :
    ∃ (index : Nat) (message : Message), messages[index]? = some message ∧
      message.rest.id = id := by
  obtain ⟨row, shown, rfl⟩ := List.mem_map.mp member
  obtain ⟨index, message, here, same⟩ :=
    mem_full S (List.mem_of_mem_drop (List.mem_of_mem_take shown))
  exact ⟨index, message, here, same.symm⟩

theorem full_eq_nil : S.full messages = [] ↔ messages = [] := wrappedRows_eq_nil

theorem head?_full (message : Message) (newer : List Message) :
    ((S.full (message :: newer)).map VisualRow.message).head? = some message.rest.id := by
  rw [Setting.full, wrappedRows, List.flatMap_cons]
  cases rows : messageRows S.screen S.bufferId message with
  | nil => exact absurd rows (messageRows_ne_nil message)
  | cons row more =>
      have first : row.message = message.rest.id :=
        messageRows_message (by rw [rows]; exact List.mem_cons_self)
      rw [List.cons_append, List.map_cons, List.head?_cons, first]

/-- The last row of the live view shows the last message. -/
theorem getLast?_rowsAt {last : Message} (ends : messages.getLast? = some last) :
    (S.rowsAt messages 0).getLast? = some last.rest.id := by
  obtain ⟨older, rfl⟩ := List.getLast?_eq_some_iff.mp ends
  have rows : S.full (older ++ [last]) =
      S.full older ++ messageRows S.screen S.bufferId last := by
    rw [full_append]
    exact congrArg _ (wrappedRows_singleton last)
  rw [Setting.rowsAt, List.getLast?_map, getLast?_endSlice (Nat.pos_of_ne_zero S.tall), rows,
    List.getLast?_append]
  cases shown : (messageRows S.screen S.bufferId last).getLast? with
  | none => exact absurd (List.getLast?_eq_none_iff.mp shown) (messageRows_ne_nil last)
  | some row =>
      have id := messageRows_message (List.mem_of_getLast? shown)
      simp [id]

theorem bottom_index {drawn : List Message} (loaded : S.Loaded messages) {last : Message}
    (drawnEnds : drawn.getLast? = some last) (ends : messages.getLast? = some last) :
    (S.rowsAt drawn 0).getLast?.bind (indexOf messages) = some (messages.length - 1) := by
  rw [getLast?_rowsAt S drawnEnds, Option.bind_some]
  apply indexOf_eq_some loaded.distinct
  rwa [← List.getLast?_eq_getElem?]

/-- A view of a buffer that is not empty has a message at the top and one at the bottom. -/
theorem edges_known (loaded : S.Loaded messages) (some_ : messages ≠ []) (offset : Nat) :
    ∃ top < messages.length, ∃ bottom, S.edges messages offset = .view (some top) (some bottom) := by
  have rows : S.rowsAt messages offset ≠ [] := by
    rw [Setting.rowsAt, Ne, List.map_eq_nil_iff, endSlice_eq_nil (Nat.pos_of_ne_zero S.tall),
      full_eq_nil]
    exact some_
  obtain ⟨top, first, here, firstId⟩ := mem_rowsAt S (List.head_mem rows)
  obtain ⟨bottom, last, there, lastId⟩ := mem_rowsAt S (List.getLast_mem rows)
  refine ⟨top, (List.getElem?_eq_some_iff.mp here).1, bottom, ?_⟩
  rw [Setting.edges, Setting.edgesIn, List.head?_eq_some_head rows,
    List.getLast?_eq_some_getLast rows, Option.bind_some, Option.bind_some, ← firstId, ← lastId,
    indexOf_eq_some loaded.distinct here, indexOf_eq_some loaded.distinct there]

/-- The live view ends with the last message. -/
theorem edges_live (loaded : S.Loaded messages) (some_ : messages ≠ []) :
    ∃ top < messages.length,
      S.edges messages 0 = .view (some top) (some (messages.length - 1)) := by
  obtain ⟨top, inside, bottom, known⟩ := edges_known S loaded some_ 0
  have ends := List.getLast?_eq_some_getLast some_
  have last : some bottom = some (messages.length - 1) := by
    rw [← bottom_index S loaded ends ends]
    exact (SeekPosition.view.inj known).2.symm
  exact ⟨top, inside, last ▸ known⟩

/-- The edges of the live view once the oldest messages are gone: those of the rows drawn before,
and those of the rows drawn afterwards. -/
theorem edges_drop (loaded : S.Loaded messages) {c top : Nat} {bottom : Option Nat}
    (inside : c < messages.length) (live : S.edges messages 0 = .view (some top) bottom) :
    S.edgesIn messages (messages.drop c) 0 =
        .view (if c ≤ top then some (top - c) else none) (some (messages.length - 1 - c)) ∧
      S.edges (messages.drop c) 0 = .view (some (top - c)) (some (messages.length - 1 - c)) := by
  have kept := loaded.drop S c
  have some_ : messages ≠ [] := List.ne_nil_of_length_pos (by omega)
  have ends := List.getLast?_eq_some_getLast some_
  have keptEnds : (messages.drop c).getLast? = some (messages.getLast some_) := by
    rw [List.getLast?_drop, if_neg (by omega), ends]
  have size : (messages.drop c).length - 1 = messages.length - 1 - c := by
    rw [List.length_drop]
    omega
  have bottoms := bottom_index S kept ends keptEnds
  have bottoms_ := bottom_index S kept keptEnds keptEnds
  rw [size] at bottoms bottoms_
  have topIndex : (S.rowsAt messages 0).head?.bind (indexOf messages) = some top :=
    (SeekPosition.view.inj live).1
  simp only [Setting.edges, Setting.edgesIn, bottoms, bottoms_, SeekPosition.view.injEq, and_true]
  obtain ⟨first, head, first_⟩ := Option.bind_eq_some_iff.mp topIndex
  by_cases enough : S.screen.height ≤ (S.full (messages.drop c)).length
  · -- the screen is full of what is kept
    have same : S.rowsAt messages 0 = S.rowsAt (messages.drop c) 0 := by
      rw [Setting.rowsAt, Setting.rowsAt, full_take_drop S messages c, endSlice_append _ _ enough]
    have shown : first ∈ S.rowsAt (messages.drop c) 0 := by
      rw [← same]
      exact List.mem_of_head? head
    obtain ⟨k, message, here, rfl⟩ := mem_rowsAt S shown
    have whole := indexOf_eq_some loaded.distinct (by rwa [List.getElem?_drop] at here)
    rw [whole, Option.some.injEq] at first_
    rw [← same, head, Option.bind_some, indexOf_eq_some kept.distinct here, ← first_]
    simp
  · -- all that is kept is on the screen, and begins below the top
    have all : S.rowsAt (messages.drop c) 0 = (S.full (messages.drop c)).map VisualRow.message := by
      rw [Setting.rowsAt, endSlice_all (by omega)]
    have keptTop : (S.rowsAt (messages.drop c) 0).head?.bind (indexOf (messages.drop c)) = some 0 := by
      have oldest := List.drop_eq_getElem_cons inside
      rw [all, oldest, head?_full, Option.bind_some, ← oldest]
      exact indexOf_eq_some kept.distinct (by rw [oldest]; rfl)
    rw [keptTop]
    by_cases none_ : c = 0
    · subst none_
      rw [List.drop_zero] at keptTop ⊢
      rw [topIndex] at keptTop ⊢
      simp only [Option.some.injEq] at keptTop
      simp [keptTop]
    · have front : S.full (messages.take c) ≠ [] := by
        rw [Ne, full_eq_nil, List.take_eq_nil_iff, not_or]
        exact ⟨none_, some_⟩
      obtain ⟨row, member, begins⟩ := head?_endSlice_append front (Nat.lt_of_not_le enough)
      rw [← full_take_drop] at begins
      have topRow : (S.rowsAt messages 0).head? = some row.message := by
        rw [Setting.rowsAt, List.head?_map, begins, Option.map_some]
      rw [topRow, Option.some.injEq] at head
      obtain ⟨k, message, here, id_⟩ := mem_full S member
      rw [List.getElem?_take] at here
      split at here
      · rename_i before
        have whole := indexOf_eq_some loaded.distinct here
        rw [← head, id_, whole, Option.some.injEq] at first_
        have gone : ∀ m ∈ messages.drop c, m.rest.id ≠ message.rest.id := by
          intro m later same_
          obtain ⟨j, found⟩ := List.mem_iff_getElem?.mp later
          rw [List.getElem?_drop] at found
          have twice := indexOf_eq_some loaded.distinct found
          rw [same_, whole, Option.some.injEq] at twice
          omega
        rw [topRow, Option.bind_some, id_, indexOf_eq_none gone, if_neg (by omega)]
        exact ⟨rfl, congrArg some (by omega)⟩
      · cases here

end Edges

/-- The message in the topmost row of the live view. -/
def Setting.liveTop {ρ : Type} [Inhabited ρ] (S : Setting ρ) (messages : List Message) : Nat :=
  ((S.rowsAt messages 0).head?.bind (indexOf messages)).getD 0

section Live

variable {ρ : Type} [Inhabited ρ] (S : Setting ρ) {messages : List Message}

theorem edges_eq (loaded : S.Loaded messages) (some_ : messages ≠ []) :
    S.edges messages 0 = .view (some (S.liveTop messages)) (some (messages.length - 1)) ∧
      S.liveTop messages < messages.length := by
  obtain ⟨top, inside, live⟩ := edges_live S loaded some_
  have topIndex : (S.rowsAt messages 0).head?.bind (indexOf messages) = some top :=
    (SeekPosition.view.inj live).1
  have same : S.liveTop messages = top := by rw [Setting.liveTop, topIndex, Option.getD_some]
  rw [same]
  exact ⟨live, inside⟩

/-- Below the live view there is nothing. -/
theorem outcome_live_next (loaded : S.Loaded messages) (some_ : messages ≠ []) :
    outcome messages (S.edges messages 0) .next = .live := by
  have none_ : nearestHighlight messages .next (some (messages.length - 1)) = none := by
    rw [nearestHighlight_next_eq_none]
    intro k later
    rw [highlightAt, List.getElem?_eq_none (by omega)]
    rfl
  rw [(edges_eq S loaded some_).1, outcome_view_next, none_]
  rfl

theorem outcome_live_previous (loaded : S.Loaded messages) (some_ : messages ≠ []) :
    outcome messages (S.edges messages 0) .previous =
      ((nearestHighlight messages .previous (some (S.liveTop messages))).map Outcome.lands).getD
        .stays := by
  rw [(edges_eq S loaded some_).1, outcome_view_previous]

end Live

end Repartee.App
