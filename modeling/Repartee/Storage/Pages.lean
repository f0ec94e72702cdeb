import Repartee.Lib.Keyset
import Repartee.Lib.Decode
import Repartee.Storage.Messages

/-!
Following the cursor of the oldest row of each page lists a conversation of the log once, newest
row first, whatever the page size.
-/

namespace Repartee.Storage

open Text Lib

namespace MessageTable

variable (db : MessageTable)

/-- The row a reference row takes its text from. -/
def primary (m : MessageRow) : Option MessageRow := db.rows.find? (isPrimaryOf m)

/-- What is logged under one conversation. -/
def conversation (network buffer : Str) : List MessageRow :=
  db.rows.filter fun m => decide (m.network = network) && decide (m.buffer = buffer)

/-- The place of a row in the order of the pages. -/
def position (m : MessageRow) : Int ×ₗ Int := toLex (db.tsMsExpr m, m.id)

/-- The whole seconds of a row do not run ahead of its sub-second time. -/
def Stamped (m : MessageRow) : Prop := m.timestamp * 1000 ≤ db.tsMsExpr m

instance (m : MessageRow) : Decidable (db.Stamped m) := inferInstanceAs (Decidable (_ ≤ _))

end MessageTable

/-- The cursor the next page is asked with. -/
def StoredMessage.cursor (m : StoredMessage) : Int ×ₗ Int := toLex (m.tsMs, m.id)

/-- What a row reads as, with the text of its primary where it refers to one. -/
def readRow (C : LogCodec) (db : MessageTable) (encrypt : Bool) (cryptoKey : Option C.Key)
    (m : MessageRow) : Except RowError StoredMessage :=
  mapRow C encrypt cryptoKey (db.selectMessageColumns m (db.primary m))

/-- The pages from the newest row on, each as it comes back turned round, with the cursor of its
last row carried to the next. -/
def followPages (page : Option (Int × Int) → Except RowError (List StoredMessage)) (fuel : Nat) :
    Option (Except RowError (List StoredMessage)) :=
  follow (fun before => (page (before.map ofLex)).map List.reverse) StoredMessage.cursor fuel none

/-- The pages list the rows of a conversation once each, by strictly descending time and row id,
every row read with the text of its primary, and then end. -/
def ListsConversation (C : LogCodec) (db : MessageTable) (network buffer : Str) (encrypt : Bool)
    (cryptoKey : Option C.Key)
    (page : Option (Int × Int) → Except RowError (List StoredMessage)) : Prop :=
  ∃ rows listed,
    rows.Perm (db.conversation network buffer) ∧
    List.Forall₂ (fun m shown => readRow C db encrypt cryptoKey m = .ok shown) rows listed ∧
    listed.Pairwise (fun a b => b.tsMs < a.tsMs ∨ (b.tsMs = a.tsMs ∧ b.id < a.id)) ∧
    ∀ fuel, (db.conversation network buffer).length < fuel →
      followPages page fuel = some (.ok listed)

variable {C : LogCodec} {db : MessageTable} {encrypt : Bool} {cryptoKey : Option C.Key}

/-- A result row names the row it was read from. -/
theorem mapRow_cursor (row : SelectedRow) (m : StoredMessage)
    (read : mapRow C encrypt cryptoKey row = .ok m) : m.tsMs = row.tsMs ∧ m.id = row.id := by
  unfold mapRow at read
  obtain ⟨msgId, -, read⟩ := (bind_eq_ok _ _ _).mp read
  obtain ⟨highlight, -, read⟩ := (bind_eq_ok _ _ _).mp read
  obtain ⟨text, -, read⟩ := (bind_eq_ok _ _ _).mp read
  cases read
  exact ⟨rfl, rfl⟩

theorem readRow_cursor (m : MessageRow) (shown : StoredMessage)
    (read : readRow C db encrypt cryptoKey m = .ok shown) : shown.cursor = db.position m := by
  have fields := mapRow_cursor _ _ read
  unfold StoredMessage.cursor MessageTable.position
  rw [fields.1, fields.2]
  rfl

/-- No two rows of a network share a message id, so the join neither drops nor repeats a row. -/
theorem leftJoin_eq (m : MessageRow) : db.leftJoin m = [(m, db.primary m)] := by
  have unique : ∀ a ∈ db.rows, ∀ b ∈ db.rows, MessageTable.isPrimaryOf m a →
      MessageTable.isPrimaryOf m b → a = b := by
    intro a inA b inB first second
    simp only [MessageTable.isPrimaryOf, Bool.and_eq_true, decide_eq_true_eq] at first second
    exact db.msgIds a inA b inB (first.2.trans second.2.symm) (first.1.2.trans second.1.2.symm)
      first.1.1
  have distinct : db.rows.Nodup := db.ids.of_map
  unfold MessageTable.leftJoin MessageTable.primary
  rw [← List.head?_filter]
  cases found : db.rows.filter (MessageTable.isPrimaryOf m) with
  | nil => rfl
  | cons p rest =>
      have alone : rest = [] := by
        apply List.eq_nil_iff_forall_not_mem.mpr
        intro other later
        have members : ∀ row ∈ p :: rest, row ∈ db.rows ∧ MessageTable.isPrimaryOf m row := by
          intro row member
          rw [← found] at member
          exact List.mem_filter.mp member
        have here := members p List.mem_cons_self
        have there := members other (List.mem_cons_of_mem p later)
        have same := unique p here.1 other there.1 here.2 there.2
        have once := distinct.filter (MessageTable.isPrimaryOf m)
        rw [found, List.nodup_cons] at once
        exact once.1 (same ▸ later)
      rw [alone]
      rfl

theorem joined_eq : db.rows.flatMap db.leftJoin = db.rows.map fun m => (m, db.primary m) := by
  rw [List.map_eq_flatMap]
  congr 1
  funext m
  exact leftJoin_eq m

theorem sqlLimit_front {α : Type} (limit : UInt64) (rows : List α) :
    sqlLimit limit rows <+: rows := by
  unfold sqlLimit
  split
  · exact List.take_prefix _ _
  · exact List.prefix_rfl

theorem sqlLimit_ne_nil {α : Type} (limit : UInt64) (rows : List α) (size : 0 < limit)
    (some : rows ≠ []) : sqlLimit limit rows ≠ [] := by
  unfold sqlLimit
  have positive : 0 < limit.toNat := size
  split
  · cases rows with
    | nil => exact absurd rfl some
    | cons row rest =>
        intro none
        have empty := congrArg List.length none
        simp only [List.length_take, List.length_cons, List.length_nil] at empty
        omega
  · exact some

theorem sqlLimit_map {α β : Type} (f : α → β) (limit : UInt64) (rows : List α) :
    sqlLimit limit (rows.map f) = (sqlLimit limit rows).map f := by
  unfold sqlLimit
  split <;> simp

theorem positions_nodup (network buffer : Str) :
    ((db.conversation network buffer).map db.position).Nodup := by
  have ids : ((db.conversation network buffer).map MessageRow.id).Nodup :=
    db.ids.sublist (List.filter_sublist.map _)
  rw [List.nodup_iff_pairwise_ne, List.pairwise_map] at ids ⊢
  apply ids.imp
  intro a b different same
  exact different (congrArg Prod.snd (toLex.injective same))

/-- The rows of a page: the conversation under the cursor, newest first, cut at the limit. -/
theorem page_eq (network buffer : Str) (limit : UInt64) (before : Option (Int ×ₗ Int))
    (stamped : ∀ m ∈ db.conversation network buffer, db.Stamped m) (shown : MessageRow → StoredMessage)
    (reads : ∀ m ∈ db.conversation network buffer,
      readRow C db encrypt cryptoKey m = .ok (shown m)) :
    (getMessagesPaginatedSubsecond C db network buffer (before.map ofLex) limit encrypt
        cryptoKey).map List.reverse =
      .ok ((sqlLimit limit (newestFirst db.position
        ((db.conversation network buffer).filter (below db.position before)))).map shown) := by
  have selected : (db.rows.map fun m => (m, db.primary m)).filter (fun j =>
        decide (j.1.network = network) && decide (j.1.buffer = buffer) &&
          (before.map ofLex).elim true fun cursor =>
            decide (j.1.timestamp ≤ cursor.1 / 1000) && underCursor db.tsMsExpr cursor j.1) =
      ((db.conversation network buffer).filter (below db.position before)).map
        fun m => (m, db.primary m) := by
    rw [List.filter_map, MessageTable.conversation, List.filter_filter]
    congr 1
    apply List.filter_congr
    intro m inTable
    by_cases here : m.network = network ∧ m.buffer = buffer
    · have ahead : m.timestamp * 1000 ≤ db.tsMsExpr m :=
        stamped m (by simp [MessageTable.conversation, inTable, here])
      cases before with
      | none => simp [here, below]
      | some cursor =>
          simp only [Function.comp_apply, here, decide_true, Bool.and_self, Bool.true_and,
            Option.map_some, Option.elim_some, below, Bool.and_true, underCursor]
          rw [Bool.eq_iff_iff]
          simp only [Bool.and_eq_true, Bool.or_eq_true, decide_eq_true_eq,
            MessageTable.position, Prod.Lex.lt_iff, ofLex_toLex]
          constructor
          · intro both
            exact both.2
          · intro lower
            constructor
            · omega
            · exact lower
    · have apart : (decide (m.network = network) && decide (m.buffer = buffer)) = false := by
        simpa using here
      simp [apart]
  have ordered : ∀ rows : List MessageRow,
      (rows.map fun m => (m, db.primary m)).insertionSort (fun a b =>
          db.tsMsExpr b.1 < db.tsMsExpr a.1 ∨ (db.tsMsExpr b.1 = db.tsMsExpr a.1 ∧ b.1.id ≤ a.1.id)) =
        (newestFirst db.position rows).map fun m => (m, db.primary m) := by
    intro rows
    symm
    apply List.map_insertionSort
    intro a _ b _
    simp only [MessageTable.position, Prod.Lex.le_iff, ofLex_toLex]
  have decoded : ∀ rows : List MessageRow, (∀ m ∈ rows, m ∈ db.conversation network buffer) →
      (rows.map fun m => (m, db.primary m)).mapM (fun j =>
          mapRow C encrypt cryptoKey (db.selectMessageColumns j.1 j.2)) = .ok (rows.map shown) := by
    intro rows within
    apply (mapM_eq_ok _ _ _).mpr
    rw [List.forall₂_map_left_iff, List.forall₂_map_right_iff, List.forall₂_same]
    intro m member
    exact reads m (within m member)
  unfold getMessagesPaginatedSubsecond selectPage
  simp only [joined_eq, selected, ordered, sqlLimit_map]
  rw [decoded]
  · simp [bind, Except.bind, pure, Except.pure, Except.map]
  · intro m member
    have inPage := (sqlLimit_front limit _).subset member
    exact (List.mem_filter.mp ((newestFirst_perm _ _).mem_iff.mp inPage)).1

/-- Pages that answer as the sub-second statement does, from every row's cursor, list the
conversation. -/
theorem listsConversation_of_pages (network buffer : Str) (limit : UInt64) (size : 0 < limit)
    (stamped : ∀ m ∈ db.conversation network buffer, db.Stamped m)
    (readable : ∀ m ∈ db.conversation network buffer,
      ∃ shown, readRow C db encrypt cryptoKey m = .ok shown)
    (page : Option (Int × Int) → Except RowError (List StoredMessage))
    (answers : ∀ before, (∀ cursor ∈ before,
        ∃ m ∈ db.conversation network buffer, db.position m = toLex cursor) →
      page before =
        getMessagesPaginatedSubsecond C db network buffer before limit encrypt cryptoKey) :
    ListsConversation C db network buffer encrypt cryptoKey page := by
  let shown (m : MessageRow) : StoredMessage :=
    ((readRow C db encrypt cryptoKey m).toOption).getD default
  have reads : ∀ m ∈ db.conversation network buffer,
      readRow C db encrypt cryptoKey m = .ok (shown m) := by
    intro m member
    obtain ⟨value, read⟩ := readable m member
    simp only [shown, read]
    rfl
  have perm := newestFirst_perm db.position (db.conversation network buffer)
  have inside : ∀ m ∈ newestFirst db.position (db.conversation network buffer),
      readRow C db encrypt cryptoKey m = .ok (shown m) :=
    fun m member => reads m (perm.mem_iff.mp member)
  refine ⟨newestFirst db.position (db.conversation network buffer),
    (newestFirst db.position (db.conversation network buffer)).map shown, perm, ?_, ?_, ?_⟩
  · rw [List.forall₂_map_right_iff, List.forall₂_same]
    exact inside
  · rw [List.pairwise_map]
    apply (newestFirst_strict db.position _ (positions_nodup network buffer)).imp_of_mem
    intro a b inA inB lower
    have first := readRow_cursor a _ (inside a inA)
    have second := readRow_cursor b _ (inside b inB)
    rw [← first, ← second, StoredMessage.cursor, StoredMessage.cursor, Prod.Lex.lt_iff] at lower
    exact lower
  · intro fuel enough
    have whole : (db.conversation network buffer).filter (below db.position none) =
        db.conversation network buffer := by
      apply List.filter_eq_self.mpr
      intro m _
      rfl
    have pages : ∀ before, (∀ k ∈ before, k ∈ (db.conversation network buffer).map db.position) →
        (page (before.map ofLex)).map List.reverse = .ok ((sqlLimit limit (newestFirst db.position
          ((db.conversation network buffer).filter (below db.position before)))).map shown) := by
      intro before reached
      rw [answers, page_eq network buffer limit before stamped shown reads]
      intro cursor given
      obtain ⟨k, held, rfl⟩ := Option.mem_map.mp given
      obtain ⟨m, member, same⟩ := List.mem_map.mp (reached k held)
      exact ⟨m, member, same⟩
    have followed := follow_from (positions_nodup network buffer) (sqlLimit_front limit)
      (fun rows => sqlLimit_ne_nil limit rows size)
      (fun m member => readRow_cursor m _ (reads m member)) pages fuel none
      (by simp) (by rw [whole]; exact enough)
    rw [whole] at followed
    exact followed

/-- From no cursor on, the pages list a conversation whose rows can be read and whose whole
seconds do not run ahead of their sub-second times. -/
theorem pages_list_the_conversation (C : LogCodec) (db : MessageTable) (network buffer : Str)
    (limit : UInt64) (encrypt : Bool) (cryptoKey : Option C.Key) (size : 0 < limit)
    (stamped : ∀ m ∈ db.conversation network buffer, db.Stamped m)
    (readable : ∀ m ∈ db.conversation network buffer,
      ∃ shown, readRow C db encrypt cryptoKey m = .ok shown) :
    ListsConversation C db network buffer encrypt cryptoKey fun before =>
      getMessagesPaginatedSubsecond C db network buffer before limit encrypt cryptoKey :=
  listsConversation_of_pages network buffer limit size stamped readable _ fun _ _ => rfl

/-- The pages of a web client that sends milliseconds and row ids list the same, where no row is
so old that its milliseconds pass for seconds. -/
theorem web_pages_list_the_conversation (network buffer : Str) (limit : UInt64) (size : 0 < limit)
    (stamped : ∀ m ∈ db.conversation network buffer, db.Stamped m)
    (readable : ∀ m ∈ db.conversation network buffer,
      ∃ shown, readRow C db encrypt cryptoKey m = .ok shown)
    (recent : ∀ m ∈ db.conversation network buffer, secondScaleMax ≤ db.tsMsExpr m) :
    ListsConversation C db network buffer encrypt cryptoKey fun before =>
      paginateWebHistory C db network buffer (before.map fun c => (c.1, some c.2)) limit encrypt
        cryptoKey := by
  apply listsConversation_of_pages network buffer limit size stamped readable
  intro before reached
  cases before with
  | none => rfl
  | some cursor =>
      obtain ⟨m, member, same⟩ := reached cursor rfl
      have scaled : secondScaleMax ≤ cursor.1 := by
        have time : db.tsMsExpr m = cursor.1 := congrArg (fun k => (ofLex k).1) same
        rw [← time]
        exact recent m member
      simp [paginateWebHistory, not_lt.mpr scaled]

/-- A log kept in the clear. -/
def plainCodec : LogCodec where
  Key := Unit
  decrypt _ stored _ := .ok stored
  encrypt _ text := .ok (text, [])
  parseParams _ := none
  renderParams _ := []

def sampleRow (id timestamp : Int) (tsMs : Option Int) (text : Str) (refId : Option Str) :
    MessageRow :=
  ⟨id, some (Nat.toDigits 10 id.toNat), ['n'], ['b'], timestamp, tsMs, ['m'], none, text, none,
    some 0, none, refId, none, none, none, none⟩

/-- Three rows in one millisecond, one of them from before the column, and a reference row. -/
def sampleLog : MessageTable where
  rows := [sampleRow 1 5 none ['x'] none, sampleRow 2 5 (some 5000) ['y'] none,
    sampleRow 3 5 (some 5000) [] (some ['1']), sampleRow 4 4 (some 4999) ['z'] none]
  sequence := 4
  hasTsMs := true
  hasTranslationSuffix := true
  hasEventParams := true
  ids := by decide
  sequenced := by decide
  msgIds := by decide

theorem pages_list_the_conversation_sample :
    (ListsConversation plainCodec sampleLog ['n'] ['b'] false none fun before =>
      getMessagesPaginatedSubsecond plainCodec sampleLog ['n'] ['b'] before 1 false none) ∧
      (∀ m ∈ sampleLog.conversation ['n'] ['b'], sampleLog.Stamped m) := by
  have stamped : ∀ m ∈ sampleLog.conversation ['n'] ['b'], sampleLog.Stamped m := by decide
  constructor
  · apply pages_list_the_conversation plainCodec sampleLog ['n'] ['b'] 1 false none
    · decide
    · exact stamped
    · intro m member
      fin_cases member <;> exact ⟨_, rfl⟩
  · exact stamped

/-- The second row is newer by its sub-second time, the first by its whole seconds. -/
def hastyLog : MessageTable where
  rows := [sampleRow 1 10 (some 5000) ['x'] none, sampleRow 2 6 (some 6000) ['y'] none]
  sequence := 2
  hasTsMs := true
  hasTranslationSuffix := true
  hasEventParams := true
  ids := by decide
  sequenced := by decide
  msgIds := by decide

/-- The whole-second bound of the second page hides the older row. -/
theorem hasty_seconds_hide_a_row :
    ¬∀ (C : LogCodec) (db : MessageTable) (network buffer : Str) (limit : UInt64) (encrypt : Bool)
        (cryptoKey : Option C.Key), 0 < limit →
      (∀ m ∈ db.conversation network buffer,
        ∃ shown, readRow C db encrypt cryptoKey m = .ok shown) →
      ListsConversation C db network buffer encrypt cryptoKey fun before =>
        getMessagesPaginatedSubsecond C db network buffer before limit encrypt cryptoKey := by
  intro always
  have lists := always plainCodec hastyLog ['n'] ['b'] 1 false none (by decide) (by
    intro m member
    fin_cases member <;> exact ⟨_, rfl⟩)
  obtain ⟨rows, listed, perm, read, -, ends⟩ := lists
  have both : listed.length = 2 := by
    rw [← read.length_eq, perm.length_eq]
    rfl
  have pages := ends 3 (by decide)
  have one : (followPages (fun before => getMessagesPaginatedSubsecond plainCodec hastyLog ['n'] ['b']
      before 1 false none) 3).map (fun r => (r.toOption.getD []).length) = some 1 := rfl
  rw [pages] at one
  have count : listed.length = 1 := Option.some.inj one
  omega

end Repartee.Storage
