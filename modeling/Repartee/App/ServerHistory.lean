import Repartee.State.Buffers

/-!
The pages of a buffer's rows that a browser asks for: the rows above a row it has, or those up to
a time, which an old browser gives in whole seconds.
-/

namespace Repartee.ServerHistory

open State Lib

def i64Saturate (n : Int) : Int := max (-2 ^ 63) (min n (2 ^ 63 - 1))

def eventKeyDateSeparator : Str := "date_separator".toList
def eventKeyBacklogEnd : Str := "backlog_end".toList

/-- Rows the client itself puts between the others. -/
def isSyntheticRow (m : Message) : Bool :=
  m.rest.eventKey = some eventKeyDateSeparator || m.rest.eventKey = some eventKeyBacklogEnd

structure PendingHistoryPage where
  limit : Nat
  before : Option Int
  cursorPrecisionMs : Int
  beforeMessageId : Option Nat

/-- A request as it is kept; a time in seconds becomes one in milliseconds. -/
def pendingHistoryPage (limit : Nat) (before : Option Int) (beforeMessageId : Option Nat) :
    PendingHistoryPage :=
  let cursorPrecisionMs :=
    if beforeMessageId.isNone && before.any (fun timestamp => timestamp < 10000000000) then 1000
    else 1
  { limit := max 1 (min limit 500)
    before := before.map fun timestamp => i64Saturate (timestamp * cursorPrecisionMs)
    cursorPrecisionMs := cursorPrecisionMs
    beforeMessageId := beforeMessageId }

namespace PendingHistoryPage

variable (request : PendingHistoryPage)

/-- The times the cursor does not tell apart share a bucket. -/
def bucket (m : Message) : Int := m.timestampMillis / request.cursorPrecisionMs

def bucketOf (before : Int) : Int := before / request.cursorPrecisionMs

end PendingHistoryPage

def boundary (buffer : Buffer) (request : PendingHistoryPage) : Option Nat :=
  request.beforeMessageId.bind fun id => buffer.messages.findIdx? fun m => m.id = id

/-- Whether a row at an index is one the page may hold. -/
def wanted (buffer : Buffer) (request : PendingHistoryPage) (m : Message) (index : Nat) : Bool :=
  !isSyntheticRow m &&
    match boundary buffer request with
    | some boundary => index < boundary
    | none => request.before.all fun before => request.bucket m ≤ request.bucketOf before

def memoryRows (buffer : Buffer) (request : PendingHistoryPage) : List Message :=
  (buffer.messages.zipIdx.filter fun row => wanted buffer request row.1 row.2).map Prod.fst

/-- The start of a page moved up to the first row of its bucket; none where an index is out of
bounds. -/
def extendStart (request : PendingHistoryPage) (rows : List Message) : Nat → Option Nat
  | 0 => some 0
  | start + 1 => do
      let above ← rows[start]?
      let first ← rows[start + 1]?
      if request.bucket above = request.bucket first then extendStart request rows start
      else some (start + 1)

def pageSkip (buffer : Buffer) (request : PendingHistoryPage) (rows : List Message) : Option Nat :=
  match request.before.filter fun _ => (boundary buffer request).isNone with
  | none => some (rows.length - request.limit)
  | some before =>
      let older := (rows.takeWhile fun m => request.bucket m < request.bucketOf before).length
      extendStart request rows (older - request.limit)

/-- The rows of a page and whether there are more above it; none where the code would panic. -/
def memoryPage (buffer : Buffer) (request : PendingHistoryPage) : Option (List Message × Bool) :=
  let rows := memoryRows buffer request
  (pageSkip buffer request rows).map fun skip => (rows.drop skip, decide (0 < skip))

section Rows

variable (buffer : Buffer) (request : PendingHistoryPage)

/-- The rows of a buffer a page can show at all. -/
def retained : List Message := buffer.messages.filter fun m => !isSyntheticRow m

theorem zipIdx_filter_fst (messages : List Message) (keep : Message → Bool) (start : Nat) :
    ((messages.zipIdx start).filter fun row => keep row.1).map Prod.fst = messages.filter keep := by
  induction messages generalizing start with
  | nil => rfl
  | cons m rest ih =>
      have later := ih (start + 1)
      by_cases kept : keep m = true <;> simp [List.zipIdx_cons, kept, later]

theorem zipIdx_filter_below (messages : List Message) (keep : Message → Bool) (start bound : Nat) :
    ((messages.zipIdx start).filter fun row => keep row.1 && decide (row.2 < start + bound)).map
      Prod.fst = (messages.take bound).filter keep := by
  induction messages generalizing start bound with
  | nil => simp
  | cons m rest ih =>
      cases bound with
      | zero =>
          have none_ : ((m :: rest).zipIdx start).filter
              (fun row => keep row.1 && decide (row.2 < start + 0)) = [] := by
            rw [List.filter_eq_nil_iff]
            intro row member
            have position := List.le_snd_of_mem_zipIdx member
            simp only [Nat.add_zero, Bool.and_eq_true, decide_eq_true_eq, not_and, Nat.not_lt]
            exact fun _ => position
          simp only [none_, List.map_nil, List.take_zero, List.filter_nil]
      | succ bound =>
          have later := ih (start + 1) bound
          rw [show start + 1 + bound = start + (bound + 1) by omega] at later
          by_cases kept : keep m = true <;>
            simp [List.zipIdx_cons, List.take_succ_cons, kept, later]

theorem memoryRows_id (index : Nat) (found : boundary buffer request = some index) :
    memoryRows buffer request = (buffer.messages.take index).filter fun m => !isSyntheticRow m := by
  have below := zipIdx_filter_below buffer.messages (fun m => !isSyntheticRow m) 0 index
  rw [Nat.zero_add] at below
  rw [← below, memoryRows]
  congr 2
  funext row
  rw [wanted, found]

theorem memoryRows_time (missing : boundary buffer request = none) :
    memoryRows buffer request = (retained buffer).filter fun m =>
      request.before.all fun before => request.bucket m ≤ request.bucketOf before := by
  have all := zipIdx_filter_fst buffer.messages (fun m => !isSyntheticRow m &&
    request.before.all fun before => request.bucket m ≤ request.bucketOf before) 0
  rw [retained, List.filter_filter, memoryRows]
  simp only [wanted, missing]
  rw [all]
  congr 1
  funext m
  rw [Bool.and_comm]

end Rows

section Ids

variable (buffer : Buffer)

/-- The rows above a place that a page can show. -/
def rowsAbove (index : Nat) : List Message :=
  (buffer.messages.take index).filter fun m => !isSyntheticRow m

/-- Pages as a browser follows them, asking for what lies above the oldest row of the last. -/
def idPages : Nat → PendingHistoryPage → List (List Message × Bool)
  | 0, _ => []
  | fuel + 1, request =>
      match memoryPage buffer request with
      | some (oldest :: rest, true) =>
          (oldest :: rest, true) :: idPages fuel { request with
            before := some oldest.timestampMillis
            beforeMessageId := some oldest.id }
      | some page => [page]
      | none => []

theorem memoryPage_id (request : PendingHistoryPage) (index : Nat)
    (found : boundary buffer request = some index) :
    memoryPage buffer request = some
      ((rowsAbove buffer index).drop ((rowsAbove buffer index).length - request.limit),
        decide (0 < (rowsAbove buffer index).length - request.limit)) := by
  have rows : memoryRows buffer request = rowsAbove buffer index :=
    memoryRows_id buffer request index found
  have none_ : request.before.filter (fun _ => (boundary buffer request).isNone) = none := by
    rw [found]
    cases request.before <;> rfl
  simp only [memoryPage, pageSkip, rows, none_, Option.map_some]

variable (distinct : (buffer.messages.map Message.id).Nodup)

include distinct

/-- The row a page begins with is found again, right below the rows the page left. -/
theorem boundary_row (request : PendingHistoryPage) (index : Nat) (before after : List Message)
    (oldest : Message) (parts : rowsAbove buffer index = before ++ oldest :: after)
    (asked : request.beforeMessageId = some oldest.id) :
    ∃ place, boundary buffer request = some place ∧ rowsAbove buffer place = before := by
  obtain ⟨first, second, split, same_before, same_after⟩ := List.filter_eq_append_iff.mp parts
  obtain ⟨skipped, back, shape, none_, -, -⟩ := List.filter_eq_cons_iff.mp same_after
  have whole : buffer.messages = (first ++ skipped) ++ oldest :: (back ++ buffer.messages.drop index) := by
    calc
      buffer.messages = buffer.messages.take index ++ buffer.messages.drop index :=
        (List.take_append_drop index buffer.messages).symm
      _ = (first ++ skipped) ++ oldest :: (back ++ buffer.messages.drop index) := by
        rw [split, shape]
        simp
  refine ⟨(first ++ skipped).length, ?_, ?_⟩
  · rw [boundary, asked, Option.bind_some, whole, List.findIdx?_append]
    have absent : (first ++ skipped).findIdx? (fun m => m.id = oldest.id) = none := by
      rw [List.findIdx?_eq_none_iff]
      intro m member
      have apart := distinct
      rw [whole, List.map_append, List.nodup_append] at apart
      simpa using apart.2.2 m.id (List.mem_map_of_mem member) oldest.id (by simp)
    rw [absent]
    simp [List.findIdx?_cons]
  · have above : buffer.messages.take (first ++ skipped).length = first ++ skipped := by
      conv_lhs => rw [whole]
      exact List.take_left
    have hidden : skipped.filter (fun m => !isSyntheticRow m) = [] := by
      rw [List.filter_eq_nil_iff]
      exact none_
    rw [rowsAbove, above, List.filter_append, same_before, hidden, List.append_nil]

/-- Pages list rows once, the newest page first, and each says whether rows remain. -/
structure Lists (rows : List Message) (pages : List (List Message × Bool)) : Prop where
  once : (pages.map Prod.fst).reverse.flatten = rows
  more : ∀ front page back, pages = front ++ page :: back →
    (page.2 = true ↔ (back.map Prod.fst).flatten ≠ [])

omit distinct in
theorem Lists.last (rows : List Message) : Lists rows [(rows, false)] where
  once := by simp
  more := by
    intro front page back shape
    obtain ⟨rfl, rfl, rfl⟩ : front = [] ∧ page = (rows, false) ∧ back = [] := by
      cases front with
      | nil => simpa [eq_comm] using shape
      | cons first rest => simp at shape
    simp

omit distinct in
theorem Lists.cons {rows page : List Message} {pages : List (List Message × Bool)}
    (lists : Lists rows pages) (some_ : rows ≠ []) :
    Lists (rows ++ page) ((page, true) :: pages) where
  once := by simp [lists.once]
  more := by
    intro front other back shape
    cases front with
    | nil =>
        obtain ⟨rfl, rfl⟩ : (page, true) = other ∧ pages = back := by simpa using shape
        have remain : (pages.map Prod.fst).flatten ≠ [] := by
          intro empty
          apply some_
          rw [← lists.once, List.flatten_eq_nil_iff]
          intro past member
          exact List.flatten_eq_nil_iff.mp empty past (List.mem_reverse.mp member)
        simp [remain]
    | cons first rest =>
        simp only [List.cons_append, List.cons.injEq] at shape
        exact lists.more rest other back shape.2

theorem idPages_lists (fuel : Nat) (request : PendingHistoryPage) (index : Nat)
    (found : boundary buffer request = some index) (limited : 0 < request.limit)
    (enough : (rowsAbove buffer index).length < fuel) :
    Lists (rowsAbove buffer index) (idPages buffer fuel request) := by
  induction fuel generalizing request index with
  | zero => omega
  | succ fuel ih =>
      have page := memoryPage_id buffer request index found
      by_cases last : (rowsAbove buffer index).length ≤ request.limit
      · rw [Nat.sub_eq_zero_of_le last] at page
        simp only [List.drop_zero, Nat.lt_irrefl, decide_false] at page
        have pages : idPages buffer (fuel + 1) request = [(rowsAbove buffer index, false)] := by
          simp [idPages, page]
        rw [pages]
        exact Lists.last _
      · have some_ : (rowsAbove buffer index).drop
            ((rowsAbove buffer index).length - request.limit) ≠ [] := by
          simp only [ne_eq, List.drop_eq_nil_iff]
          omega
        obtain ⟨oldest, rest, shape⟩ := List.exists_cons_of_ne_nil some_
        have above : decide (0 < (rowsAbove buffer index).length - request.limit) = true := by
          simp only [decide_eq_true_eq]
          omega
        have parts : rowsAbove buffer index = (rowsAbove buffer index).take
            ((rowsAbove buffer index).length - request.limit) ++ oldest :: rest := by
          rw [← shape, List.take_append_drop]
        rw [shape, above] at page
        obtain ⟨place, placed, left⟩ := boundary_row buffer distinct { request with
          before := some oldest.timestampMillis
          beforeMessageId := some oldest.id } index _ rest oldest parts rfl
        have pages : idPages buffer (fuel + 1) request = (oldest :: rest, true) ::
            idPages buffer fuel { request with
              before := some oldest.timestampMillis
              beforeMessageId := some oldest.id } := by
          rw [idPages, page]
        have shorter : (rowsAbove buffer place).length < fuel := by
          rw [left, List.length_take]
          omega
        have later := ih { request with
          before := some oldest.timestampMillis
          beforeMessageId := some oldest.id } place placed limited shorter
        have remain : rowsAbove buffer place ≠ [] := by
          rw [left, ne_eq, ← List.length_eq_zero_iff, List.length_take]
          omega
        rw [pages, parts, ← left]
        exact later.cons remain

end Ids

section Times

variable (request : PendingHistoryPage)

/-- Rows in order of time are in order of their buckets. -/
def Sorted (rows : List Message) : Prop := rows.Pairwise fun a b => a.timestamp ≤ b.timestamp

theorem bucket_le (precise : 0 < request.cursorPrecisionMs) {a b : Message}
    (order : a.timestamp ≤ b.timestamp) : request.bucket a ≤ request.bucket b :=
  Int.ediv_le_ediv precise (Int.ediv_le_ediv (by decide) order)

/-- A place where no bucket is cut in two. -/
def Border (rows : List Message) (start : Nat) : Prop :=
  start = 0 ∨ ∃ above first, rows[start - 1]? = some above ∧ rows[start]? = some first ∧
    request.bucket above ≠ request.bucket first

theorem extendStart_border (rows : List Message) (start : Nat)
    (inside : start < rows.length ∨ start = 0) :
    ∃ place ≤ start, extendStart request rows start = some place ∧ Border request rows place := by
  induction start with
  | zero => exact ⟨0, Nat.le_refl 0, rfl, Or.inl rfl⟩
  | succ start ih =>
      have bound : start + 1 < rows.length := by omega
      have above : rows[start]? = some rows[start] := List.getElem?_eq_getElem (by omega)
      have first : rows[start + 1]? = some rows[start + 1] := List.getElem?_eq_getElem bound
      have unfolded : extendStart request rows (start + 1) =
          if request.bucket rows[start] = request.bucket rows[start + 1] then
            extendStart request rows start else some (start + 1) := by
        rw [extendStart, above, first]
        rfl
      by_cases same : request.bucket rows[start] = request.bucket rows[start + 1]
      · obtain ⟨place, le, found, border⟩ := ih (Or.inl (by omega))
        exact ⟨place, by omega, by rw [unfolded, if_pos same, found], border⟩
      · exact ⟨start + 1, Nat.le_refl _, by rw [unfolded, if_neg same],
          Or.inr ⟨_, _, above, first, same⟩⟩

/-- Over a border the buckets grow. -/
theorem border_lt (precise : 0 < request.cursorPrecisionMs) (rows : List Message)
    (sorted : Sorted rows) (place : Nat) (border : Border request rows place) :
    ∀ a ∈ rows.take place, ∀ b ∈ rows.drop place, request.bucket a < request.bucket b := by
  intro a above b below
  have ordered (i j : Nat) (order : i ≤ j) (inside : j < rows.length) :
      request.bucket rows[i] ≤ request.bucket rows[j] := by
    rcases Nat.eq_or_lt_of_le order with same | less
    · simp [same]
    · exact bucket_le request precise
        (List.pairwise_iff_getElem.mp sorted i j (by omega) inside less)
  obtain ⟨i, i_lt, rfl⟩ := List.mem_take_iff_getElem.mp above
  obtain ⟨j, j_lt, rfl⟩ := List.mem_drop_iff_getElem.mp below
  rcases border with rfl | ⟨last, first, last_at, first_at, apart⟩
  · omega
  · obtain ⟨last_lt, rfl⟩ := List.getElem?_eq_some_iff.mp last_at
    obtain ⟨first_lt, rfl⟩ := List.getElem?_eq_some_iff.mp first_at
    have left := ordered i (place - 1) (by omega) last_lt
    have middle := ordered (place - 1) place (by omega) first_lt
    have right := ordered place (place + j) (by omega) (by omega)
    omega

theorem takeWhile_older (rows : List Message) (bound : Int)
    (sorted : rows.Pairwise fun a b => request.bucket a ≤ request.bucket b) :
    rows.takeWhile (fun m => request.bucket m < bound) =
      rows.filter fun m => request.bucket m < bound := by
  induction rows with
  | nil => rfl
  | cons m rest ih =>
      obtain ⟨first, later⟩ := List.pairwise_cons.mp sorted
      by_cases older : request.bucket m < bound
      · simp [older, ih later]
      · have none_ : rest.filter (fun m => request.bucket m < bound) = [] := by
          rw [List.filter_eq_nil_iff]
          intro next member
          have order := first next member
          simp only [decide_eq_true_eq]
          omega
        simp [older, none_]

/-- What passes a test that holds of a beginning only, below a place in that beginning. -/
theorem filter_drop (test : Message → Bool) (rows : List Message)
    (first : rows.takeWhile test = rows.filter test) (place : Nat)
    (inside : place ≤ (rows.takeWhile test).length) :
    (rows.drop place).filter test = (rows.takeWhile test).drop place := by
  induction place generalizing rows with
  | zero => exact first.symm
  | succ place ih =>
      cases rows with
      | nil => simp at inside
      | cons m rest =>
          cases passes : test m with
          | false => simp [passes] at inside
          | true =>
              simp only [passes, List.takeWhile_cons_of_pos, List.filter_cons_of_pos,
                List.cons.injEq, true_and, List.length_cons] at first inside
              simpa [passes] using ih rest first (by omega)

theorem takeWhile_length_le (rows : List Message) (bound : Int) :
    (rows.takeWhile fun m => request.bucket m < bound).length ≤ rows.length :=
  (List.takeWhile_prefix _).length_le

/-- No request with a limit makes the code panic, whatever the order of the rows. -/
theorem memoryPage_some (buffer : Buffer) (limited : 0 < request.limit) :
    (memoryPage buffer request).isSome = true := by
  have skip : (pageSkip buffer request (memoryRows buffer request)).isSome = true := by
    unfold pageSkip
    split
    · rfl
    · rename_i before timed
      have short := takeWhile_length_le request (memoryRows buffer request) (request.bucketOf before)
      obtain ⟨place, -, found, -⟩ := extendStart_border request (memoryRows buffer request)
        (((memoryRows buffer request).takeWhile fun m =>
          request.bucket m < request.bucketOf before).length - request.limit) (by omega)
      simp [found]
  simpa [memoryPage] using skip

/-- What a page by time holds: whole buckets, as many older rows as asked for while there are
that many, and with any older row one older than the cursor first. -/
structure Timed (buffer : Buffer) (before : Int) (page : List Message) : Prop where
  whole : ∀ a ∈ retained buffer, ∀ b ∈ retained buffer, request.bucket a = request.bucket b →
    (a ∈ page ↔ b ∈ page)
  enough : min request.limit
      ((retained buffer).filter fun m => request.bucket m < request.bucketOf before).length ≤
    (page.filter fun m => request.bucket m < request.bucketOf before).length
  progress : ∀ a ∈ retained buffer, request.bucket a < request.bucketOf before →
    ∀ oldest ∈ page.head?, request.bucket oldest < request.bucketOf before

theorem memoryPage_timed (buffer : Buffer) (before : Int) (sorted : Sorted buffer.messages)
    (limited : 0 < request.limit) (precise : 0 < request.cursorPrecisionMs)
    (asked : request.before = some before) (missing : boundary buffer request = none) :
    ∃ page, memoryPage buffer request = some page ∧ Timed request buffer before page.1 := by
  have rows_eq : memoryRows buffer request = (retained buffer).filter fun m =>
      decide (request.bucket m ≤ request.bucketOf before) := by
    rw [memoryRows_time buffer request missing, asked]
    rfl
  generalize rows_def : memoryRows buffer request = rows at rows_eq
  have rows_sorted : Sorted rows := by
    rw [rows_eq]
    exact (sorted.sublist List.filter_sublist).sublist List.filter_sublist
  have by_bucket : rows.Pairwise fun a b => request.bucket a ≤ request.bucket b :=
    rows_sorted.imp fun order => bucket_le request precise order
  have older_eq : rows.takeWhile (fun m => request.bucket m < request.bucketOf before) =
      (retained buffer).filter fun m => request.bucket m < request.bucketOf before := by
    rw [takeWhile_older request rows _ by_bucket, rows_eq, List.filter_filter]
    congr 1
    funext m
    by_cases older : request.bucket m < request.bucketOf before
    · simp [older, le_of_lt older]
    · simp [older]
  have short := takeWhile_length_le request rows (request.bucketOf before)
  obtain ⟨place, up, found, border⟩ := extendStart_border request rows
    ((rows.takeWhile fun m => request.bucket m < request.bucketOf before).length - request.limit)
    (by omega)
  have page : memoryPage buffer request = some (rows.drop place, decide (0 < place)) := by
    have timed : request.before.filter (fun _ => (boundary buffer request).isNone) =
        some before := by
      rw [asked, missing]
      rfl
    simp only [memoryPage, pageSkip, rows_def, timed, found, Option.map_some]
  have apart := border_lt request precise rows rows_sorted place border
  have older_page := filter_drop (fun m => decide (request.bucket m < request.bucketOf before))
    rows (takeWhile_older request rows _ by_bucket) place (by omega)
  have one_way (a b : Message) (b_rows : b ∈ rows) (same : request.bucket a = request.bucket b)
      (a_page : a ∈ rows.drop place) : b ∈ rows.drop place := by
    rw [← List.take_append_drop place rows, List.mem_append] at b_rows
    rcases b_rows with above | below
    · exact absurd (apart b above a a_page) (by omega)
    · exact below
  have enough : min request.limit
      ((retained buffer).filter fun m => request.bucket m < request.bucketOf before).length ≤
        ((rows.drop place).filter fun m => request.bucket m < request.bucketOf before).length := by
    rw [older_page, ← older_eq, List.length_drop]
    omega
  refine ⟨_, page, ?_, enough, ?_⟩
  · intro a a_in b b_in same
    have rows_iff : a ∈ rows ↔ b ∈ rows := by
      rw [rows_eq, List.mem_filter, List.mem_filter, same]
      simp [a_in, b_in]
    constructor
    · intro a_page
      exact one_way a b (rows_iff.mp (List.mem_of_mem_drop a_page)) same a_page
    · intro b_page
      exact one_way b a (rows_iff.mpr (List.mem_of_mem_drop b_page)) same.symm b_page
  · intro a a_in a_older oldest head
    have some_ : 0 < ((retained buffer).filter fun m =>
        request.bucket m < request.bucketOf before).length :=
      List.length_pos_of_mem (List.mem_filter.mpr ⟨a_in, by simpa using a_older⟩)
    obtain ⟨m, member⟩ := List.exists_mem_of_length_pos (by omega :
      0 < ((rows.drop place).filter fun m => request.bucket m < request.bucketOf before).length)
    obtain ⟨m_page, m_older⟩ := List.mem_filter.mp member
    have page_sorted := by_bucket.sublist (List.drop_sublist place rows)
    obtain ⟨rest, shape⟩ := List.head?_eq_some_iff.mp head
    simp only at shape
    rw [shape] at m_page page_sorted
    have m_below : request.bucket m < request.bucketOf before := by simpa using m_older
    rcases List.mem_cons.mp m_page with rfl | later
    · exact m_below
    · exact lt_of_le_of_lt ((List.pairwise_cons.mp page_sorted).1 m later) m_below

end Times

theorem pendingHistoryPage_valid (limit : Nat) (before : Option Int) (beforeMessageId : Option Nat) :
    0 < (pendingHistoryPage limit before beforeMessageId).limit ∧
      0 < (pendingHistoryPage limit before beforeMessageId).cursorPrecisionMs := by
  constructor
  · simp only [pendingHistoryPage]
    omega
  · simp only [pendingHistoryPage]
    split <;> decide

/-- Paging by row lists what lies above the first row asked for once, paging by time shows whole
buckets and gets on, and no request makes the code panic. -/
structure Lossless (buffer : Buffer) : Prop where
  ids : ∀ request index fuel, boundary buffer request = some index → 0 < request.limit →
    (rowsAbove buffer index).length < fuel →
      Lists (rowsAbove buffer index) (idPages buffer fuel request)
  times : ∀ request before, 0 < request.limit → 0 < request.cursorPrecisionMs →
    request.before = some before → boundary buffer request = none →
      ∃ page, memoryPage buffer request = some page ∧ Timed request buffer before page.1
  total : ∀ request, 0 < request.limit → (memoryPage buffer request).isSome = true

theorem memory_paging_lossless (buffer : Buffer) (sorted : Sorted buffer.messages)
    (distinct : (buffer.messages.map Message.id).Nodup) : Lossless buffer where
  ids := fun request index fuel found limited enough =>
    idPages_lists buffer distinct fuel request index found limited enough
  times := fun request before limited precise asked missing =>
    memoryPage_timed request buffer before sorted limited precise asked missing
  total := fun request limited => memoryPage_some request buffer limited

def rowAt (id : Nat) (timestamp : Int) : Message :=
  ⟨[], none, ⟨id, timestamp, .message, none, false, none, none, none, none⟩⟩

/-- Two rows of one millisecond and a later one, the first of which came last. -/
def threeRows : Buffer :=
  ⟨[], .channel, [], [rowAt 3 0, rowAt 1 500000, rowAt 2 2000000], .none, 0, Table.empty,
    false, false⟩

theorem memory_paging_threeRows : Lossless threeRows :=
  memory_paging_lossless threeRows (by unfold Sorted; decide) (by decide)

end Repartee.ServerHistory
