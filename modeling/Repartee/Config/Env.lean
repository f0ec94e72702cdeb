import Repartee.Fields

/-!
The environment file that holds the credentials: what is read of it, how one key is written into
it and how one is taken out.
-/

namespace Repartee.Config.Env

open Text

/-- The lines of a text with their ends; the last one may have none. -/
def splitInclusive : Str → List Str
  | [] => []
  | c :: rest =>
      if c = '\n' then [c] :: splitInclusive rest
      else match splitInclusive rest with
        | [] => [[c]]
        | line :: more => (c :: line) :: more

/-- A line without its end, a line feed that a carriage return may precede. -/
def withoutEnd (line : Str) : Str :=
  match stripSuffix ['\n'] line with
  | none => line
  | some line => (stripSuffix ['\r'] line).getD line

def lines (content : Str) : List Str := (splitInclusive content).map withoutEnd

/-- Lines as they are written back. -/
def joined (lines : List Str) : Str := ['\n'].intercalate lines ++ ['\n']

/-- A value without the quotes it may stand between. -/
def unquote (value : Str) : Str :=
  (((stripPrefix ['"'] value).bind (stripSuffix ['"'])).or
    ((stripPrefix ['\''] value).bind (stripSuffix ['\'']))).getD value

/-- The key and the value of a line; comments and lines without an equals sign have none. -/
def entryOf (line : Str) : Option (Str × Str) :=
  let trimmed := trim line
  if trimmed = [] ∨ ['#'].isPrefixOf trimmed then none
  else (splitOnce '=' trimmed).map fun parts => (trim parts.1, unquote (trim parts.2))

abbrev Vars : Type := Str → Option Str

def insertEntry (vars : Vars) (line : Str) : Vars :=
  match entryOf line with
  | none => vars
  | some entry => Function.update vars entry.1 (some entry.2)

def loadEnv (file : Option Str) : Vars :=
  match file with
  | none => fun _ => none
  | some content => (lines content).foldl insertEntry fun _ => none

def notOneLine : Str :=
  "Environment values must be a single line without NUL characters".toList

def oneLine (value : Str) : Bool := value.all fun c => c ≠ '\n' && c ≠ '\r' && c ≠ '\x00'

def isQuote (c : Char) : Bool := c = '"' || c = '\''

def encoded (value : Str) : Str :=
  if trim value ≠ value ∨ value.head?.any isQuote ∨ value.getLast?.any isQuote then
    '"' :: value ++ ['"']
  else value

def newLine (key value : Str) : Str := key ++ '=' :: encoded value

/-- The text that starts a line of the key. -/
def lineStart (key : Str) : Str := key ++ ['=']

def setsKey (key line : Str) : Bool := (lineStart key).isPrefixOf (trim line)

/-- The first line of the key replaced, and whether there was one. -/
def replaceFirst (key line : Str) : List Str → List Str × Bool
  | [] => ([], false)
  | old :: rest =>
      if setsKey key old then (line :: rest, true)
      else
        let replaced := replaceFirst key line rest
        (old :: replaced.1, replaced.2)

/-- A new line at the end, after a blank one. -/
def appended (lines : List Str) (line : Str) : List Str :=
  if lines = [] ∨ lines.getLast?.any (fun last => trim last = []) then lines ++ [line]
  else lines ++ [[], line]

def setEnvValue (file : Option Str) (key value : Str) : Except Str Str :=
  if oneLine value = false then .error notOneLine
  else
    let old := (file.map lines).getD []
    let replaced := replaceFirst key (newLine key value) old
    .ok (joined (if replaced.2 then replaced.1 else appended old (newLine key value)))

def removeEnvValue (file : Option Str) (key : Str) : Option Str :=
  file.map fun content =>
    joined ((lines content).filter fun line => !(lineStart key).isPrefixOf (trimStart line))

section White

theorem trim_eq (s : Str) : trim s = (s.dropWhile isWhitespace).rdropWhile isWhitespace := rfl

theorem trim_trailing (s : Str) (c : Char) (white : isWhitespace c = true) :
    trim (s ++ [c]) = trim s := by
  rw [trim_eq, trim_eq, List.dropWhile_append]
  by_cases blank : (s.dropWhile isWhitespace).isEmpty = true
  · have nothing : s.dropWhile isWhitespace = [] := List.isEmpty_iff.mp blank
    simp [nothing, white]
  · simp only [blank, Bool.false_eq_true, if_false]
    exact List.rdropWhile_concat_pos _ _ _ white

/-- Trimming keeps a text whose first and last characters are solid. -/
theorem trim_solidEnds (s : Str) (first : ∀ c ∈ s.head?, isWhitespace c = false)
    (last : ∀ c ∈ s.getLast?, isWhitespace c = false) : trim s = s := by
  have front : s.dropWhile isWhitespace = s := by
    cases s with
    | nil => rfl
    | cons c rest => simp [first c rfl]
  rw [trim_eq, front, List.rdropWhile_eq_self_iff]
  intro some_
  simp [last (s.getLast some_) (List.getLast?_eq_some_getLast some_)]

theorem solidEnds_of_trim (s : Str) (kept : trim s = s) :
    (∀ c ∈ s.head?, isWhitespace c = false) ∧ ∀ c ∈ s.getLast?, isWhitespace c = false := by
  rw [trim_eq] at kept
  have short : (s.dropWhile isWhitespace).length ≤ s.length := (List.dropWhile_suffix _).length_le
  have leading := List.rdropWhile_prefix isWhitespace (s.dropWhile isWhitespace)
  have shorter := leading.length_le
  rw [kept] at shorter
  have front : s.dropWhile isWhitespace = s :=
    (List.dropWhile_suffix _).eq_of_length (by omega)
  rw [front] at kept
  constructor
  · intro c first
    cases s with
    | nil => simp at first
    | cons d rest =>
        obtain rfl : d = c := by simpa using first
        cases white : isWhitespace d with
        | false => rfl
        | true =>
            have smaller := (List.dropWhile_suffix (l := rest) isWhitespace).length_le
            rw [List.dropWhile_cons_of_pos white] at front
            rw [front] at smaller
            simp at smaller
  · intro c last
    have some_ : s ≠ [] := by
      rintro rfl
      simp at last
    have solid := List.rdropWhile_eq_self_iff.mp kept some_
    rw [List.getLast?_eq_some_getLast some_, Option.mem_some] at last
    simpa [last] using solid

/-- What white space ends a text can be cut off behind a solid character. -/
theorem trim_of_trimStart (s front back : Str) (c : Char) (solid : isWhitespace c = false)
    (starts : trimStart s = front ++ c :: back) : ∃ rest, trim s = front ++ c :: rest := by
  refine ⟨back.rdropWhile isWhitespace, ?_⟩
  have shape : s.dropWhile isWhitespace = front ++ c :: back := starts
  rw [trim_eq, shape]
  simp only [List.rdropWhile, List.reverse_append, List.reverse_cons, List.append_assoc,
    List.singleton_append]
  rw [List.dropWhile_append]
  by_cases blank : (back.reverse.dropWhile isWhitespace).isEmpty = true
  · have nothing : back.reverse.dropWhile isWhitespace = [] := List.isEmpty_iff.mp blank
    simp [nothing, solid]
  · simp [blank]

end White

section Lines

theorem splitInclusive_line (line rest : Str) (whole : '\n' ∉ line) :
    splitInclusive (line ++ '\n' :: rest) = (line ++ ['\n']) :: splitInclusive rest := by
  induction line with
  | nil => simp [splitInclusive]
  | cons c more ih =>
      simp only [List.mem_cons, not_or] at whole
      simp [splitInclusive, Ne.symm whole.1, ih whole.2]

theorem splitInclusive_pieces (content : Str) :
    ∀ piece ∈ splitInclusive content,
      ∃ line, '\n' ∉ line ∧ (piece = line ∨ piece = line ++ ['\n']) := by
  induction content with
  | nil => simp [splitInclusive]
  | cons c rest ih =>
      by_cases ends : c = '\n'
      · simp only [splitInclusive, ends, if_true, List.mem_cons, forall_eq_or_imp]
        exact ⟨⟨[], by simp⟩, ih⟩
      · simp only [splitInclusive, ends, if_false]
        split
        · intro piece member
          exact ⟨[c], by simp [Ne.symm ends], Or.inl (by simpa using member)⟩
        · rename_i line more pieces
          rw [pieces] at ih
          simp only [List.mem_cons, forall_eq_or_imp] at ih ⊢
          obtain ⟨⟨whole, clean, shape⟩, others⟩ := ih
          refine ⟨⟨c :: whole, by simp [Ne.symm ends, clean], ?_⟩, others⟩
          cases shape with
          | inl same => exact Or.inl (by rw [same])
          | inr same => exact Or.inr (by rw [same]; rfl)

theorem withoutEnd_line (line : Str) :
    withoutEnd (line ++ ['\n']) = (stripSuffix ['\r'] line).getD line := by
  simp [withoutEnd, stripSuffix_append]

theorem trim_withoutEnd (line : Str) : trim ((stripSuffix ['\r'] line).getD line) = trim line := by
  unfold stripSuffix
  split
  · rename_i ends
    obtain ⟨front, rfl⟩ := List.isSuffixOf_iff_suffix.mp ends
    simpa using (trim_trailing front '\r' (by decide)).symm
  · rfl

theorem joined_cons (line next : Str) (more : List Str) :
    joined (line :: next :: more) = line ++ '\n' :: joined (next :: more) := by
  simp [joined, List.intercalate_cons_cons]

theorem lines_whole (content : Str) : ∀ line ∈ lines content, '\n' ∉ line := by
  intro line member
  obtain ⟨piece, piece_member, rfl⟩ := List.mem_map.mp member
  obtain ⟨whole, clean, shape⟩ := splitInclusive_pieces content piece piece_member
  have front : ∀ c ∈ withoutEnd piece, c ∈ whole := by
    cases shape with
    | inl same =>
        have unended : stripSuffix ['\n'] piece = none := by
          unfold stripSuffix
          rw [if_neg]
          intro ends
          obtain ⟨start, rfl⟩ := List.isSuffixOf_iff_suffix.mp ends
          exact clean (by simp [← same])
        intro c inside
        rwa [withoutEnd, unended, same] at inside
    | inr same =>
        rw [same, withoutEnd_line]
        intro c inside
        unfold stripSuffix at inside
        split at inside
        · exact List.mem_of_mem_take (by simpa using inside)
        · simpa using inside
  intro inside
  exact clean (front _ inside)

end Lines

section Values

variable (key : Str)

/-- What a line gives the key, if it is a line of the key. -/
def given (line : Str) : Option Str :=
  (entryOf line).bind fun entry => if entry.1 = key then some entry.2 else none

def values (lines : List Str) : List Str := lines.filterMap (given key)

theorem values_append (front back : List Str) :
    values key (front ++ back) = values key front ++ values key back := by
  simp [values]

theorem given_congr (a b : Str) (same : trim a = trim b) : given key a = given key b := by
  unfold given entryOf
  rw [same]

theorem given_blank (line : Str) (blank : trim line = []) : given key line = none := by
  simp [given, entryOf, blank]

theorem foldl_insertEntry (vars : Vars) (lines : List Str) :
    lines.foldl insertEntry vars key = (values key lines).getLast?.or (vars key) := by
  induction lines generalizing vars with
  | nil => simp [values]
  | cons line rest ih =>
      rw [List.foldl_cons, ih]
      cases entry : entryOf line with
      | none => simp [values, given, insertEntry, entry]
      | some parts =>
          by_cases same : parts.1 = key
          · subst same
            have inserted : insertEntry vars line parts.1 = some parts.2 := by
              simp [insertEntry, entry]
            have first : values parts.1 (line :: rest) = parts.2 :: values parts.1 rest := by
              simp [values, given, entry]
            rw [inserted, first, List.getLast?_cons]
            cases (values parts.1 rest).getLast? <;> rfl
          · have inserted : insertEntry vars line key = vars key := by
              simp [insertEntry, entry, Function.update_of_ne (Ne.symm same)]
            have skipped : values key (line :: rest) = values key rest := by
              simp [values, given, entry, same]
            rw [inserted, skipped]

/-- The last line of a key decides. -/
theorem loadEnv_some (content : Str) :
    loadEnv (some content) key = (values key (lines content)).getLast? := by
  simp [loadEnv, foldl_insertEntry]

theorem values_line (line rest : Str) (whole : '\n' ∉ line) :
    values key (lines (line ++ '\n' :: rest)) = values key [line] ++ values key (lines rest) := by
  have same : given key ((stripSuffix ['\r'] line).getD line) = given key line :=
    given_congr key _ _ (trim_withoutEnd line)
  rw [lines, splitInclusive_line line rest whole, List.map_cons, withoutEnd_line]
  simp only [values, List.filterMap_cons, same, List.filterMap_nil]
  cases given key line <;> rfl

theorem values_joined (written : List Str) (whole : ∀ line ∈ written, '\n' ∉ line) :
    values key (lines (joined written)) = values key written := by
  induction written with
  | nil => rw [show joined [] = [] ++ '\n' :: [] from rfl, values_line key [] [] (by simp)]; rfl
  | cons line rest ih =>
      simp only [List.mem_cons, forall_eq_or_imp] at whole
      cases rest with
      | nil =>
          rw [show joined [line] = line ++ '\n' :: [] by simp [joined],
            values_line key line [] whole.1]
          simp [lines, splitInclusive, values]
      | cons next more =>
          rw [joined_cons, values_line key line _ whole.1, ih whole.2, ← values_append]
          rfl

end Values

theorem getLast?_quoted (value : Str) : ('"' :: value ++ ['"']).getLast? = some '"' := by
  rw [List.getLast?_append]
  rfl

/-- What is written for a value is read as that value. -/
theorem unquote_encoded (value : Str) : unquote (trim (encoded value)) = value := by
  unfold encoded
  split
  · have whole : trim ('"' :: value ++ ['"']) = '"' :: value ++ ['"'] := by
      apply trim_solidEnds
      · intro c first
        obtain rfl : '"' = c := by simpa using first
        exact by decide
      · intro c last
        rw [getLast?_quoted, Option.mem_some] at last
        subst last
        exact by decide
    have front := stripPrefix_append ['"'] (value ++ ['"'])
    rw [List.singleton_append] at front
    rw [whole, unquote, List.cons_append, front]
    simp [stripSuffix_append]
  · rename_i plain
    simp only [not_or, not_not] at plain
    rw [plain.1]
    have unquoted (quote : Char) ( is_quote : isQuote quote = true) :
        stripPrefix [quote] value = none := by
      unfold stripPrefix
      rw [if_neg]
      intro starts
      obtain ⟨rest, rfl⟩ := List.isPrefixOf_iff_prefix.mp starts
      exact plain.2.1 (by simpa using is_quote)
    rw [unquote, unquoted '"' (by decide), unquoted '\'' (by decide)]
    rfl

/-- A key the file can hold: not empty, one word, with neither an equals sign nor a hash. -/
structure ProperKey (key : Str) : Prop where
  some_ : key ≠ []
  solid : ∀ c ∈ key, isWhitespace c = false
  equals : '=' ∉ key
  hash : '#' ∉ key

section Writing

variable {key : Str} (proper : ProperKey key) (value : Str)

include proper

theorem entryOf_trim (line rest : Str) (trimmed : trim line = key ++ '=' :: rest) :
    entryOf line = some (key, unquote (trim rest)) := by
  have some_ : trim line ≠ [] := by simp [trimmed]
  have plain : ¬['#'].isPrefixOf (trim line) = true := by
    rw [trimmed]
    have hash := proper.hash
    cases key with
    | nil => exact absurd rfl proper.some_
    | cons c more =>
        simp only [List.mem_cons, not_or] at hash
        simp [hash.1]
  have same : trim key = key := by
    apply trim_solidEnds
    · exact fun c first => proper.solid c (List.mem_of_mem_head? first)
    · exact fun c last => proper.solid c (List.mem_of_mem_getLast? last)
  simp only [entryOf]
  rw [if_neg (not_or.mpr ⟨some_, plain⟩), trimmed, splitOnce_append _ _ _ proper.equals]
  simp [same]

theorem trim_newLine : trim (newLine key value) = newLine key value := by
  have first : ∀ c ∈ (newLine key value).head?, isWhitespace c = false := by
    intro c first
    cases key with
    | nil => exact absurd rfl proper.some_
    | cons d more =>
        obtain rfl : d = c := by simpa [newLine] using first
        exact proper.solid d (by simp)
  apply trim_solidEnds _ first
  intro c last
  simp only [newLine, List.getLast?_append, List.getLast?_cons, Option.some_or, Option.mem_some]
    at last
  subst last
  unfold encoded
  split
  · rw [getLast?_quoted]
    exact by decide
  · rename_i plain
    simp only [not_or, not_not] at plain
    cases last : value.getLast? with
    | none => exact by decide
    | some d => exact (solidEnds_of_trim value plain.1).2 d last

theorem given_newLine : given key (newLine key value) = some value := by
  have entry := entryOf_trim proper (newLine key value) (encoded value)
    (trim_newLine proper value)
  simp [given, entry, unquote_encoded]

/-- A line of one key is no line of another. -/
theorem given_other (other line rest : Str) (apart : other ≠ key)
    (trimmed : trim line = key ++ '=' :: rest) : given other line = none := by
  have entry := entryOf_trim proper line rest trimmed
  simp [given, entry, Ne.symm apart]

theorem given_other_newLine (other : Str) (apart : other ≠ key) :
    given other (newLine key value) = none :=
  given_other proper other _ (encoded value) apart (trim_newLine proper value)

theorem given_other_setsKey (other line : Str) (apart : other ≠ key)
    (sets : setsKey key line = true) : given other line = none := by
  obtain ⟨rest, shape⟩ := List.isPrefixOf_iff_prefix.mp sets
  apply given_other proper other line rest apart
  rw [← shape]
  simp [lineStart]

end Writing

section Files

/-- The lines below the first one that writing the key would replace. -/
def later (key : Str) (lines : List Str) : List Str :=
  (lines.dropWhile fun line => !setsKey key line).drop 1

/-- The lines with the value of the key written. -/
def writtenLines (key value : Str) (old : List Str) : List Str :=
  let replaced := replaceFirst key (newLine key value) old
  if replaced.2 then replaced.1 else appended old (newLine key value)

theorem replaceFirst_found (key line : Str) (old : List Str)
    (found : (replaceFirst key line old).2 = true) :
    ∃ front first, setsKey key first = true ∧ old = front ++ first :: later key old ∧
      (replaceFirst key line old).1 = front ++ line :: later key old := by
  induction old with
  | nil => simp [replaceFirst] at found
  | cons head rest ih =>
      by_cases sets : setsKey key head = true
      · exact ⟨[], head, sets, by simp [later, sets], by simp [replaceFirst, later, sets]⟩
      · simp only [replaceFirst, sets, Bool.false_eq_true, if_false] at found
        obtain ⟨front, first, first_sets, shape, result⟩ := ih found
        have same : later key (head :: rest) = later key rest := by simp [later, sets]
        refine ⟨head :: front, first, first_sets, ?_, ?_⟩
        · rw [same, List.cons_append, ← shape]
        · rw [same]
          simp [replaceFirst, sets, result]

theorem replaceFirst_missing (key line : Str) (old : List Str)
    (missing : (replaceFirst key line old).2 = false) : later key old = [] := by
  induction old with
  | nil => rfl
  | cons head rest ih =>
      by_cases sets : setsKey key head = true
      · simp [replaceFirst, sets] at missing
      · simp only [replaceFirst, sets, Bool.false_eq_true, if_false] at missing
        simpa [later, sets] using ih missing

theorem values_appended (key line : Str) (old : List Str) :
    values key (appended old line) = values key old ++ values key [line] := by
  have blank : given key [] = none := given_blank key [] rfl
  unfold appended
  split
  · rw [values_append]
  · rw [values_append]
    simp [values, blank]

theorem mem_appended (line : Str) (old : List Str) (other : Str)
    (member : other ∈ appended old line) : other ∈ old ∨ other = [] ∨ other = line := by
  unfold appended at member
  split at member
  · simp only [List.mem_append, List.mem_singleton] at member
    exact member.imp_right Or.inr
  · simpa using member

variable {key : Str} (proper : ProperKey key) (value : Str) (old : List Str)

include proper

/-- Writing a key puts its value behind what the lines above gave it, and before what the lines
below give it. -/
theorem values_writtenLines :
    ∃ front, values key (writtenLines key value old) =
      front ++ value :: values key (later key old) := by
  have line : values key [newLine key value] = [value] := by
    simp [values, given_newLine proper]
  cases found : (replaceFirst key (newLine key value) old).2 with
  | true =>
      obtain ⟨front, first, -, -, result⟩ := replaceFirst_found key _ old found
      refine ⟨values key front, ?_⟩
      rw [writtenLines, if_pos found, result, values_append]
      simp [values, given_newLine proper]
  | false =>
      refine ⟨values key old, ?_⟩
      rw [writtenLines, if_neg (by simp [found]), values_appended, line,
        replaceFirst_missing key _ old found]
      rfl

theorem values_writtenLines_other (other : Str) (apart : other ≠ key) :
    values other (writtenLines key value old) = values other old := by
  have line := given_other_newLine proper value other apart
  cases found : (replaceFirst key (newLine key value) old).2 with
  | true =>
      obtain ⟨front, first, sets, shape, result⟩ := replaceFirst_found key _ old found
      have dropped := given_other_setsKey proper other first apart sets
      calc
        values other (writtenLines key value old)
            = values other (front ++ newLine key value :: later key old) := by
              rw [writtenLines, if_pos found, result]
        _ = values other (front ++ first :: later key old) := by
              simp [values, line, dropped]
        _ = values other old := by rw [← shape]
  | false =>
      rw [writtenLines, if_neg (by simp [found]), values_appended]
      simp [values, line]

omit proper in
theorem writtenLines_whole (key_whole : '\n' ∉ key) (single : oneLine value = true)
    (whole : ∀ line ∈ old, '\n' ∉ line) :
    ∀ line ∈ writtenLines key value old, '\n' ∉ line := by
  have value_whole : '\n' ∉ value := by
    intro inside
    simpa using List.all_eq_true.mp single '\n' inside
  have line_whole : '\n' ∉ newLine key value := by
    unfold newLine encoded
    split <;> simp [key_whole, value_whole]
  cases found : (replaceFirst key (newLine key value) old).2 with
  | true =>
      obtain ⟨front, first, -, shape, result⟩ := replaceFirst_found key _ old found
      intro line member
      rw [writtenLines, if_pos found, result, List.mem_append, List.mem_cons] at member
      rcases member with above | rfl | below
      · exact whole line (by rw [shape]; simp [above])
      · exact line_whole
      · exact whole line (by rw [shape]; simp [below])
  | false =>
      rw [writtenLines, if_neg (by simp [found])]
      intro line member
      rcases mem_appended _ old line member with above | rfl | rfl
      · exact whole line above
      · simp
      · exact line_whole

omit proper in
theorem values_filter (other : Str) (drops : Str → Bool)
    (unread : ∀ line, drops line = true → given other line = none) :
    values other (old.filter fun line => !drops line) = values other old := by
  unfold values
  rw [List.filterMap_filter]
  apply List.filterMap_congr
  intro line _
  cases dropped : drops line with
  | true => simp [unread line dropped]
  | false => simp

end Files

section Trips

def fileLines (file : Option Str) : List Str := (file.map lines).getD []

theorem loadEnv_eq (file : Option Str) (key : Str) :
    loadEnv file key = (values key (fileLines file)).getLast? := by
  cases file with
  | none => rfl
  | some content => exact loadEnv_some key content

theorem fileLines_whole (file : Option Str) : ∀ line ∈ fileLines file, '\n' ∉ line := by
  cases file with
  | none => simp [fileLines]
  | some content => exact lines_whole content

/-- Written and loaded again, the key has the value and every other key what it had. -/
def SetReads (file : Option Str) (key value : Str) : Prop :=
  ∀ content, setEnvValue file key value = .ok content →
    loadEnv (some content) = Function.update (loadEnv file) key (some value)

/-- Taken out, the key has no value and every other key what it had. -/
def RemoveForgets (file : Option Str) (key : Str) : Prop :=
  loadEnv (removeEnvValue file key) = Function.update (loadEnv file) key none

variable {key : Str} (proper : ProperKey key)

include proper

theorem loadEnv_set (file : Option Str) (value content other : Str)
    (set_ : setEnvValue file key value = .ok content) :
    loadEnv (some content) other =
      (values other (writtenLines key value (fileLines file))).getLast? := by
  have single : oneLine value = true := by
    by_contra bad
    rw [setEnvValue, if_pos (by simpa using bad)] at set_
    exact absurd set_ (by simp)
  have key_whole : '\n' ∉ key := by
    intro inside
    exact absurd (proper.solid '\n' inside) (by decide)
  have shape : content = joined (writtenLines key value (fileLines file)) := by
    simp only [setEnvValue, single, Bool.true_eq_false, if_false, Except.ok.injEq] at set_
    exact set_.symm
  rw [shape, loadEnv_some, values_joined]
  exact writtenLines_whole value (fileLines file) key_whole single (fileLines_whole file)

theorem set_other (file : Option Str) (value content other : Str) (apart : other ≠ key)
    (set_ : setEnvValue file key value = .ok content) :
    loadEnv (some content) other = loadEnv file other := by
  rw [loadEnv_set proper file value content other set_,
    values_writtenLines_other proper value _ other apart, loadEnv_eq]

/-- A line that taking the key out drops is no line of another key. -/
theorem given_other_dropped (other line : Str) (apart : other ≠ key)
    (drops : (lineStart key).isPrefixOf (trimStart line) = true) : given other line = none := by
  obtain ⟨back, shape⟩ := List.isPrefixOf_iff_prefix.mp drops
  have starts : trimStart line = key ++ '=' :: back := by
    rw [← shape]
    simp [lineStart]
  obtain ⟨rest, trimmed⟩ := trim_of_trimStart line key back '=' (by decide) starts
  exact given_other proper other line rest apart trimmed

omit proper in
theorem loadEnv_remove (file : Option Str) (other : Str) :
    loadEnv (removeEnvValue file key) other = (values other ((fileLines file).filter fun line =>
      !(lineStart key).isPrefixOf (trimStart line))).getLast? := by
  cases file with
  | none => rfl
  | some content =>
      rw [removeEnvValue, Option.map_some, loadEnv_some, values_joined]
      · rfl
      · intro line member
        exact lines_whole content line (List.mem_of_mem_filter member)

theorem remove_other (file : Option Str) (other : Str) (apart : other ≠ key) :
    loadEnv (removeEnvValue file key) other = loadEnv file other := by
  rw [loadEnv_remove, loadEnv_eq]
  congr 1
  apply values_filter
  intro line drops
  exact given_other_dropped proper other line apart drops

theorem setReads_iff (file : Option Str) (value : Str) (single : oneLine value = true) :
    SetReads file key value ↔
      ∀ last ∈ (values key (later key (fileLines file))).getLast?, last = value := by
  have set_ : setEnvValue file key value =
      .ok (joined (writtenLines key value (fileLines file))) := by
    rw [setEnvValue, if_neg (by simp [single])]
    rfl
  obtain ⟨front, shape⟩ := values_writtenLines proper value (fileLines file)
  have read : loadEnv (some (joined (writtenLines key value (fileLines file)))) key =
      some ((values key (later key (fileLines file))).getLast?.getD value) := by
    rw [loadEnv_set proper file value _ key set_, shape, List.getLast?_append, List.getLast?_cons]
    rfl
  constructor
  · intro reads last below
    have same := congrFun (reads _ set_) key
    rw [read, Function.update_self, Option.mem_def.mp below] at same
    simpa using same
  · intro below content result
    rw [set_, Except.ok.injEq] at result
    subst result
    funext other
    by_cases same : other = key
    · subst same
      rw [read, Function.update_self]
      cases last : (values other (later other (fileLines file))).getLast? with
      | none => rfl
      | some found => rw [Option.getD_some, below found last]
    · rw [Function.update_of_ne same]
      exact set_other proper file value _ other same set_

theorem removeForgets_iff (file : Option Str) :
    RemoveForgets file key ↔ ∀ line ∈ fileLines file, (given key line).isSome →
      (lineStart key).isPrefixOf (trimStart line) = true := by
  have read : loadEnv (removeEnvValue file key) key = (values key ((fileLines file).filter fun line =>
      !(lineStart key).isPrefixOf (trimStart line))).getLast? := loadEnv_remove file key
  constructor
  · intro forgets line member gives
    have gone := congrFun forgets key
    rw [read, Function.update_self, List.getLast?_eq_none_iff, values,
      List.filterMap_eq_nil_iff] at gone
    by_contra kept
    have nothing := gone line (List.mem_filter.mpr ⟨member, by rw [eq_false_of_ne_true kept]; rfl⟩)
    simp [nothing] at gives
  · intro dropped
    funext other
    by_cases same : other = key
    · subst same
      rw [read, Function.update_self, List.getLast?_eq_none_iff, values, List.filterMap_eq_nil_iff]
      intro line member
      obtain ⟨inside, kept⟩ := List.mem_filter.mp member
      by_contra gives
      have drops := dropped line inside (Option.isSome_iff_ne_none.mpr gives)
      simp [drops] at kept
    · rw [Function.update_of_ne same]
      exact remove_other proper file other same

end Trips

/-- A value comes back exactly when no line below the one written gives the key another, and a key
goes exactly when each line read for it has the equals sign right behind it. -/
theorem env_round_trip (file : Option Str) (key value : Str) (proper : ProperKey key)
    (single : oneLine value = true) :
    (SetReads file key value ↔
      ∀ last ∈ (values key (later key (fileLines file))).getLast?, last = value) ∧
    (RemoveForgets file key ↔ ∀ line ∈ fileLines file, (given key line).isSome →
      (lineStart key).isPrefixOf (trimStart line) = true) :=
  ⟨setReads_iff proper file value single, removeForgets_iff proper file⟩

def twiceSet : Str := "A=1\nA=2\n".toList

def spacedOut : Str := "A = 1\n".toList

def keyA : Str := "A".toList

theorem keyA_proper : ProperKey keyA where
  some_ := by decide
  solid := by simp [keyA, isWhitespace]
  equals := by decide
  hash := by decide

theorem env_round_trip_twiceSet :
    (SetReads (some twiceSet) keyA "2".toList ↔ ∀ last ∈ (values keyA
      (later keyA (fileLines (some twiceSet)))).getLast?, last = "2".toList) ∧
    (RemoveForgets (some twiceSet) keyA ↔ ∀ line ∈ fileLines (some twiceSet),
      (given keyA line).isSome → (lineStart keyA).isPrefixOf (trimStart line) = true) :=
  env_round_trip (some twiceSet) keyA "2".toList keyA_proper rfl

theorem set_reads_older_value :
    ¬SetReads (some twiceSet) keyA "3".toList ∧ ¬RemoveForgets (some spacedOut) keyA := by
  constructor
  · intro reads
    have same := congrFun (reads "A=3\nA=2\n".toList (by decide +kernel)) keyA
    exact absurd same (by decide +kernel)
  · intro forgets
    exact absurd (congrFun forgets keyA) (by decide +kernel)

end Repartee.Config.Env
