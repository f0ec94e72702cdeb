import Repartee.Lib.Escape
import Repartee.Lib.Prog
import Repartee.Fields
import Repartee.Irc.NetworkRuns
import Repartee.Irc.Scram

/-!
The commands that change a bouncer's networks, from the text the user gives, and what the client's
own reader makes of the attributes they spell.
-/

namespace Repartee.Irc

open Text Lib

inductive MutationError where
  | invalidText
  | unclosedQuote
  | unknownOperation
  | idRequired
  | invalidId
  | deleteUsage
  | noValue
  | unsupported
  | invalidPasswordKey
  | missingPassword
  | inlinePassword
  | controlCharacter
  | duplicate
  | noAttributes
  | hostRequired
  | tooLong
  deriving DecidableEq

def MutationError.text : MutationError → Str
  | .invalidText => "Invalid command text".toList
  | .unclosedQuote => "Unclosed quote or invalid escaping".toList
  | .unknownOperation => "Unknown network operation".toList
  | .idRequired => "A network ID is required".toList
  | .invalidId => BindingError.invalidId.text
  | .deleteUsage => "Usage: /bouncer delete ID".toList
  | .noValue => "Use attribute=value arguments".toList
  | .unsupported => "Unsupported network attribute".toList
  | .invalidPasswordKey => "Invalid password environment key".toList
  | .missingPassword => "Password key is not present in the credentials file".toList
  | .inlinePassword =>
      "Use pass-env=KEY from the credentials file, or pass= to clear".toList
  | .controlCharacter => "Control characters are not allowed in attributes".toList
  | .duplicate => "Duplicate network attribute".toList
  | .noAttributes => "At least one network attribute is required".toList
  | .hostRequired => "A host attribute is required".toList
  | .tooLong => "Network operation exceeds the IRC line limit".toList

structure Mutation where
  operation : Str
  networkId : Option Str
  command : Command
  deriving DecidableEq

def addAction : Str := "add".toList
def changeAction : Str := "change".toList
def deleteAction : Str := "delete".toList

def hostKey : Str := "host".toList
def passKey : Str := "pass".toList
def passEnvKey : Str := "pass-env".toList

def mutationKeys : List Str :=
  [hostKey, "port".toList, "tls".toList, "name".toList, "nickname".toList, "username".toList,
    "realname".toList, passEnvKey, passKey]

def bouncerCommand : Str := "BOUNCER".toList

def operationOf (action : Str) : Except MutationError Str :=
  if action = addAction then .ok "ADDNETWORK".toList
  else if action = changeAction then .ok "CHANGENETWORK".toList
  else if action = deleteAction then .ok "DELNETWORK".toList
  else .error .unknownOperation

namespace Mutation

def nul : Char := Char.ofNat 0

section Parse

variable (shellWords : Str → Option (List Str)) (secret : Str → Option Str)
  (print : Message → Str)

/-- The arguments of the command. The word splitter would take `#` for the start of a comment. -/
def words (tail : Str) : Except MutationError (List Str) :=
  if nul ∈ tail then .error .invalidText
  else match shellWords (tail.map fun c => if c = '#' then nul else c) with
    | none => .error .unclosedQuote
    | some words => .ok (words.map fun word => word.map fun c => if c = nul then '#' else c)

/-- The attribute an argument is for. A password is named, and kept with the credentials. -/
def attributeOf (key value : Str) : Except MutationError (Str × Str) :=
  if key = passEnvKey then
    if value = [] ∨ value.all (fun c => c.isAlphanum || decide (c = '_')) = false then
      .error .invalidPasswordKey
    else match secret value with
      | none => .error .missingPassword
      | some found => .ok (passKey, found)
  else if key = passKey ∧ value ≠ [] then .error .inlinePassword
  else .ok (key, value)

def addAttribute (values : Map Str Str) (word : Str) : Except MutationError (Map Str Str) :=
  match splitOnce '=' word with
  | none => .error .noValue
  | some (key, value) =>
      if key ∉ mutationKeys then .error .unsupported
      else do
        let entry ← attributeOf secret key value
        if entry.2.any isControl then .error .controlCharacter
        else if (values.get? entry.1).isSome then .error .duplicate
        else .ok (values.insert entry.1 entry.2)

def escape (value : Str) : Str :=
  replaceChar ' ' "\\s".toList (replaceChar ';' "\\:".toList (replaceChar '\\' "\\\\".toList value))

def spellAttribute (entry : Str × Str) : Str := entry.1 ++ '=' :: escape entry.2

/-- The attributes in the order of their keys. -/
def attributesText (values : Map Str Str) : Str :=
  [';'].intercalate
    ((values.rows.insertionSort fun a b => a.1 ≤ b.1).map spellAttribute)

def target (action : Str) (words : List Str) :
    Except MutationError (Option Str × List Str) :=
  if action = addAction then .ok (none, words)
  else match words with
    | [] => .error .idRequired
    | id :: attributes => match normalizeNetworkId id with
        | none => .error .invalidId
        | some id => .ok (some id, attributes)

/-- What the command says after the network it is about. -/
def attributeParams (action : Str) (attributes : List Str) : Except MutationError (List Str) :=
  if action = deleteAction then
    if attributes ≠ [] then .error .deleteUsage else .ok []
  else do
    let values ← attributes.foldlM (addAttribute secret) Table.empty
    if values.rows = [] then .error .noAttributes
    else if action = addAction ∧ (values.get? hostKey).all (fun host => decide (host = [])) then
      .error .hostRequired
    else .ok [attributesText values]

def parse (action tail : Str) : Except MutationError Mutation := do
  let given ← words shellWords tail
  let operation ← operationOf action
  let aimed ← target action given
  let attributes ← attributeParams secret action aimed.2
  let command := Command.raw bouncerCommand (operation :: aimed.1.toList ++ attributes)
  if 512 < utf8Length (print (Message.ofCommand command)) then .error .tooLong
  else .ok ⟨operation, aimed.1, command⟩

end Parse

/-! ### Message tags -/

/-- How a tag's value is escaped. -/
def tagEscapes : Escapes Char where
  mark := '\\'
  code c :=
    if c = '\\' then some '\\' else if c = ';' then some ':' else if c = ' ' then some 's' else none
  meaning c :=
    if c = ':' then ';' else if c = 's' then ' ' else if c = 'r' then '\r'
    else if c = 'n' then '\n' else c
  marked := rfl
  inverse c d coded := by
    split at coded
    · cases coded
      subst c
      rfl
    · split at coded
      · cases coded
        subst c
        rfl
      · split at coded
        · cases coded
          subst c
          rfl
        · cases coded

def readTag (tag : Str) : Str × Str :=
  match splitOnce '=' tag with
  | some (key, value) => (key, tagEscapes.unescape value)
  | none => (tag, [])

/-- A key with a value that holds nothing a tag's value may not hold. -/
def TagText (tag : Str) : Prop :=
  ∃ key value, tag = key ++ '=' :: value ∧ key ≠ [] ∧ (∀ c ∈ key, c.isAlphanum = true) ∧
    ∀ c ∈ value, c ≠ nul ∧ c ≠ '\r' ∧ c ≠ '\n' ∧ c ≠ ';' ∧ c ≠ ' '

/-- The reader splits and unescapes tags as their specification says. A tag with an empty value is
one without a value. -/
def ReadsTags (readTags : TagReader) : Prop :=
  ∀ text, (∀ tag ∈ text.splitOn ';', TagText tag) → ∃ tags, readTags text = some tags ∧
    tags.map (fun tag => (tag.1, tag.2.getD [])) = (text.splitOn ';').map readTag

/-! ### Lines -/

def crlf : Str := "\r\n".toList

/-- A parameter that is not the last may not be empty, hold a space or start with a colon. -/
def MiddleParam (param : Str) : Prop := param ≠ [] ∧ ' ' ∉ param ∧ param.head? ≠ some ':'

/-- Parameters without spaces are written one after the other. -/
def PrintsRaw (print : Message → Str) : Prop :=
  ∀ command params, (∀ param ∈ params, MiddleParam param) →
    print (Message.ofCommand (.raw command params)) =
      [' '].intercalate (command :: params) ++ crlf

/-- Nothing but the end of the line is a control character. -/
def OneLine (line : Str) : Prop := ∃ body, line = body ++ crlf ∧ ∀ c ∈ body, isControl c = false

/-! ### What was asked for -/

/-- The argument asks for the value of the attribute; a password is found under its name. -/
def Sets (secret : Str → Option Str) (word key value : Str) : Prop :=
  ∃ name text, word = name ++ '=' :: text ∧ '=' ∉ name ∧
    ((name ≠ passEnvKey ∧ key = name ∧ value = text) ∨
      (name = passEnvKey ∧ key = passKey ∧ secret text = some value))

def Wanted (secret : Str → Option Str) (words : List Str) (key value : Str) : Prop :=
  ∃ word ∈ words, Sets secret word key value

/-- The arguments that ask for attributes. -/
def attributeWords (action : Str) (words : List Str) : List Str :=
  if action = addAction then words else words.tail

def networkSub : Str := "NETWORK".toList

/-- A notification with the text tells of the attributes that were asked for and of no others. One
that is asked for with an empty value is cleared. -/
def ReadsBack (readTags : TagReader) (spelled id text : Str) (wanted : Str → Str → Prop) : Prop :=
  ∃ attributes, parseUpdate readTags [networkSub, spelled, text] = some (id, some attributes) ∧
    ∀ key value, wanted key value ↔
      (attributes.get? key).map (fun given => given.getD []) = some value

/-- The only white space in the values is the space. -/
def PlainSpaces (wanted : Str → Str → Prop) : Prop :=
  ∀ key value, wanted key value → ∀ c ∈ value, isWhitespace c = true → c = ' '

/-! ### The spelling of an attribute -/

section Spelling

theorem escape_cons (c : Char) (rest : Str) :
    escape (c :: rest) = tagEscapes.letter c ++ escape rest := by
  have parts : escape (c :: rest) = escape [c] ++ escape rest := by
    simp only [escape, replaceChar, List.flatMap_cons, List.flatMap_nil, List.append_nil,
      List.flatMap_append]
  rw [parts]
  congr 1
  by_cases back : c = '\\'
  · subst c
    rfl
  · by_cases semicolon : c = ';'
    · subst c
      rfl
    · by_cases space : c = ' '
      · subst c
        rfl
      · have plain : tagEscapes.code c = none := by
          simp only [tagEscapes, if_neg back, if_neg semicolon, if_neg space]
        rw [tagEscapes.letter_plain plain]
        simp only [escape, replaceChar, List.flatMap_cons, List.flatMap_nil, List.append_nil,
          if_neg back, if_neg semicolon, if_neg space]

/-- The replacements one after the other are the escaping of tags. -/
theorem escape_eq (value : Str) : escape value = tagEscapes.escape value := by
  induction value with
  | nil => rfl
  | cons c rest ih => rw [escape_cons, ih, Escapes.escape_cons]

theorem code_plain {c : Char} (back : c ≠ '\\') (semicolon : c ≠ ';') (space : c ≠ ' ') :
    tagEscapes.code c = none := by
  simp only [tagEscapes, if_neg back, if_neg semicolon, if_neg space]

/-- The letters of an escaped value. -/
theorem mem_escape {c : Char} {value : Str} (member : c ∈ escape value) :
    c = '\\' ∨ c = ':' ∨ c = 's' ∨ (c ∈ value ∧ c ≠ ';' ∧ c ≠ ' ') := by
  rw [escape_eq] at member
  rcases tagEscapes.mem_escape member with mark | ⟨x, -, coded⟩ | ⟨inside, plain⟩
  · exact .inl mark
  · simp only [tagEscapes] at coded
    split at coded
    · exact .inl (Option.some.inj coded).symm
    · split at coded
      · exact .inr (.inl (Option.some.inj coded).symm)
      · split at coded
        · exact .inr (.inr (.inl (Option.some.inj coded).symm))
        · cases coded
  · refine .inr (.inr (.inr ⟨inside, ?_, ?_⟩))
    · rintro rfl
      cases plain
    · rintro rfl
      cases plain

/-- White space other than the space is left as it is. -/
theorem mem_escape_space {c : Char} {value : Str} (blank : isWhitespace c = true) (other : c ≠ ' ')
    (inside : c ∈ value) : c ∈ escape value := by
  rw [escape_eq]
  have back : c ≠ '\\' := by
    rintro rfl
    revert blank
    decide
  have semicolon : c ≠ ';' := by
    rintro rfl
    revert blank
    decide
  refine List.mem_flatMap.mpr ⟨c, inside, ?_⟩
  rw [tagEscapes.letter_plain (code_plain back semicolon other)]
  exact List.mem_singleton_self c

/-- An attribute the commands can set, with a value they take. -/
structure Clean (entry : Str × Str) : Prop where
  filled : entry.1 ≠ []
  letters : ∀ c ∈ entry.1, c.isAlpha = true
  value : ∀ c ∈ entry.2, isControl c = false

theorem alpha_plain {c : Char} (alpha : c.isAlpha = true) :
    c ≠ '=' ∧ c ≠ ';' ∧ c ≠ ' ' ∧ c ≠ ':' ∧ c ≠ '*' ∧ isControl c = false ∧
      isWhitespace c = false := by
  have range : (65 ≤ c.toNat ∧ c.toNat ≤ 90) ∨ (97 ≤ c.toNat ∧ c.toNat ≤ 122) := by
    simp only [Char.isAlpha, Char.isUpper, Char.isLower, Bool.or_eq_true, Bool.and_eq_true,
      decide_eq_true_eq] at alpha
    rcases alpha with ⟨low, high⟩ | ⟨low, high⟩
    · exact .inl ⟨low, high⟩
    · exact .inr ⟨low, high⟩
  have apart : ∀ d : Char, d.toNat < 65 → c ≠ d := by
    rintro d small rfl
    omega
  refine ⟨apart _ (by decide), apart _ (by decide), apart _ (by decide), apart _ (by decide),
    apart _ (by decide), ?_, ?_⟩
  · simp only [isControl]
    grind
  · simp only [isWhitespace]
    grind

variable {entry : Str × Str}

theorem Clean.keyed (clean : Clean entry) : '=' ∉ entry.1 := fun member =>
  (alpha_plain (clean.letters _ member)).1 rfl

theorem readTag_spell (clean : Clean entry) : readTag (spellAttribute entry) = entry := by
  rw [readTag, spellAttribute, splitOnce_append _ _ _ clean.keyed]
  simp only [escape_eq, Escapes.unescape_escape]

/-- The letters an attribute is spelled with. -/
theorem Clean.spelled (clean : Clean entry) {c : Char} (member : c ∈ spellAttribute entry) :
    c ≠ ';' ∧ c ≠ ' ' ∧ isControl c = false ∧ (isWhitespace c = true → c ∈ entry.2) := by
  rw [spellAttribute, List.mem_append, List.mem_cons] at member
  rcases member with key | rfl | value
  · have plain := alpha_plain (clean.letters c key)
    refine ⟨plain.2.1, plain.2.2.1, plain.2.2.2.2.2.1, fun blank => ?_⟩
    rw [plain.2.2.2.2.2.2] at blank
    cases blank
  · exact ⟨by decide, by decide, by decide, fun blank => absurd blank (by decide)⟩
  · rcases mem_escape value with rfl | rfl | rfl | ⟨inside, semicolon, space⟩
    · exact ⟨by decide, by decide, by decide, fun blank => absurd blank (by decide)⟩
    · exact ⟨by decide, by decide, by decide, fun blank => absurd blank (by decide)⟩
    · exact ⟨by decide, by decide, by decide, fun blank => absurd blank (by decide)⟩
    · exact ⟨semicolon, space, clean.value c inside, fun _ => inside⟩

theorem tagText_spell (clean : Clean entry) : TagText (spellAttribute entry) := by
  refine ⟨entry.1, escape entry.2, rfl, clean.filled, ?_, ?_⟩
  · intro c member
    simp only [Char.isAlphanum, clean.letters c member, Bool.true_or]
  · intro c member
    have spelled := clean.spelled
      (List.mem_append_right entry.1 (List.mem_cons_of_mem '=' member))
    have control : ∀ d : Char, isControl d = true → c ≠ d := by
      rintro d is_ rfl
      rw [spelled.2.2.1] at is_
      cases is_
    exact ⟨control _ (by decide), control _ (by decide), control _ (by decide), spelled.1,
      spelled.2.1⟩

end Spelling

/-! ### The text of the attributes -/

section Texts

theorem mem_intercalate_iff {separator c : Char} (other : c ≠ separator) (parts : List Str) :
    c ∈ [separator].intercalate parts ↔ ∃ part ∈ parts, c ∈ part := by
  induction parts with
  | nil => simp
  | cons part rest ih =>
      cases rest with
      | nil => simp
      | cons next others =>
          rw [List.intercalate_cons_cons, List.append_assoc, List.mem_append, List.mem_append, ih]
          simp [other]

variable {values : Map Str Str}

/-- The attributes in the order they are spelled in. -/
def ordered (values : Map Str Str) : List (Str × Str) :=
  values.rows.insertionSort fun a b => a.1 ≤ b.1

theorem mem_ordered (values : Map Str Str) (entry : Str × Str) :
    entry ∈ ordered values ↔ entry ∈ values.rows :=
  (List.perm_insertionSort _ _).mem_iff

theorem ordered_distinct (values : Map Str Str) : ((ordered values).map Prod.fst).Nodup :=
  (((List.perm_insertionSort _ _).map Prod.fst).nodup_iff).mpr values.unique

variable (clean : ∀ entry ∈ values.rows, Clean entry)
include clean

theorem splitOn_attributesText (some_ : values.rows ≠ []) :
    (attributesText values).splitOn ';' = (ordered values).map spellAttribute := by
  apply List.splitOn_intercalate
  · intro tag member semicolon
    obtain ⟨entry, inside, rfl⟩ := List.mem_map.mp member
    exact ((clean entry ((mem_ordered values entry).mp inside)).spelled semicolon).1 rfl
  · intro none_
    apply some_
    have empty : ordered values = [] := List.map_eq_nil_iff.mp none_
    exact List.eq_nil_iff_forall_not_mem.mpr fun entry inside => by
      have listed := (mem_ordered values entry).mpr inside
      rw [empty] at listed
      cases listed

theorem readTags_attributesText :
    ((ordered values).map spellAttribute).map readTag = ordered values := by
  rw [List.map_map]
  calc (ordered values).map (readTag ∘ spellAttribute)
      = (ordered values).map id := by
        apply List.map_congr_left
        intro entry inside
        exact readTag_spell (clean entry ((mem_ordered values entry).mp inside))
    _ = ordered values := List.map_id _

/-- The letters of the text. -/
theorem mem_attributesText {c : Char} (member : c ∈ attributesText values) :
    c ≠ ' ' ∧ isControl c = false ∧
      (isWhitespace c = true → ∃ entry ∈ values.rows, c ∈ entry.2) := by
  by_cases semicolon : c = ';'
  · subst c
    exact ⟨by decide, by decide, fun blank => absurd blank (by decide)⟩
  · obtain ⟨tag, inside, here⟩ := (mem_intercalate_iff semicolon _).mp member
    obtain ⟨entry, listed, rfl⟩ := List.mem_map.mp inside
    have held := (mem_ordered values entry).mp listed
    obtain ⟨-, space, control, blank⟩ := (clean entry held).spelled here
    exact ⟨space, control, fun white => ⟨entry, held, blank white⟩⟩

/-- The text is plain when no value has white space other than spaces. -/
theorem plainText_iff : PlainText (attributesText values) ↔
    ∀ entry ∈ values.rows, ∀ c ∈ entry.2, isWhitespace c = true → c = ' ' := by
  unfold PlainText
  rw [List.any_eq_false]
  constructor
  · intro plain entry held c inside blank
    by_contra other
    have semicolon : c ≠ ';' := by
      rintro rfl
      revert blank
      decide
    have written : c ∈ attributesText values := by
      refine (mem_intercalate_iff semicolon _).mpr ⟨spellAttribute entry, ?_, ?_⟩
      · exact List.mem_map_of_mem ((mem_ordered values entry).mpr held)
      · exact List.mem_append_right _ (List.mem_cons_of_mem _ (mem_escape_space blank other inside))
    have white := plain c written
    rw [blank] at white
    exact white rfl
  · intro spaces c member
    obtain ⟨space, control, blank⟩ := mem_attributesText clean member
    rw [control, Bool.or_false]
    intro white
    obtain ⟨entry, held, inside⟩ := blank white
    exact space (spaces entry held c inside white)

theorem attributesText_start (some_ : values.rows ≠ []) :
    attributesText values ≠ [] ∧ attributesText values ≠ "*".toList ∧
      (attributesText values).head? ≠ some ':' := by
  cases listed : ordered values with
  | nil =>
      obtain ⟨entry, rest, rows⟩ := List.exists_cons_of_ne_nil some_
      have held := (mem_ordered values entry).mpr (by rw [rows]; exact List.mem_cons_self)
      rw [listed] at held
      cases held
  | cons entry rest =>
      have held := (mem_ordered values entry).mp (by rw [listed]; exact List.mem_cons_self)
      have good := clean entry held
      obtain ⟨first, letters, key⟩ := List.exists_cons_of_ne_nil good.filled
      have alpha := alpha_plain (good.letters first (by rw [key]; exact List.mem_cons_self))
      have starts : ∃ more, attributesText values = first :: more := by
        rw [attributesText, show values.rows.insertionSort _ = ordered values from rfl, listed,
          List.map_cons]
        cases rest with
        | nil =>
            rw [List.map_nil, List.intercalate_singleton, spellAttribute, key]
            exact ⟨_, rfl⟩
        | cons next others =>
            rw [List.map_cons, List.intercalate_cons_cons, spellAttribute, key]
            exact ⟨_, rfl⟩
      obtain ⟨more, text⟩ := starts
      rw [text]
      refine ⟨List.cons_ne_nil _ _, ?_, ?_⟩
      · intro star
        exact alpha.2.2.2.2.1 (List.head_eq_of_cons_eq star)
      · intro colon
        exact alpha.2.2.2.1 (Option.some.inj colon)

end Texts

/-! ### What parsing takes -/

section Parsing

variable {shellWords : Str → Option (List Str)} {secret : Str → Option Str} {print : Message → Str}

theorem mutationKeys_letters : ∀ key ∈ mutationKeys, key ≠ passEnvKey →
    key ≠ [] ∧ ∀ c ∈ key, c.isAlpha = true := by
  have all : mutationKeys.all (fun key =>
      decide (key = passEnvKey) || (!key.isEmpty && key.all Char.isAlpha)) = true := by
    decide +kernel
  intro key known other
  have letters := List.all_eq_true.mp all key known
  rw [decide_eq_false other, Bool.false_or, Bool.and_eq_true, List.all_eq_true] at letters
  exact ⟨by simpa using letters.1, letters.2⟩

theorem passKey_known : passKey ∈ mutationKeys ∧ passKey ≠ passEnvKey := by
  decide

/-- The attribute an argument sets is one the commands can set. -/
theorem attributeOf_spec {key value : Str} {entry : Str × Str} (known : key ∈ mutationKeys)
    (taken : attributeOf secret key value = .ok entry) :
    (entry.1 ∈ mutationKeys ∧ entry.1 ≠ passEnvKey) ∧
      ((key ≠ passEnvKey ∧ entry = (key, value)) ∨
        (key = passEnvKey ∧ entry.1 = passKey ∧ secret value = some entry.2)) := by
  unfold attributeOf at taken
  by_cases env : key = passEnvKey
  · rw [if_pos env] at taken
    split at taken
    · cases taken
    · cases found : secret value with
      | none =>
          rw [found] at taken
          cases taken
      | some text =>
          rw [found] at taken
          cases taken
          exact ⟨passKey_known, .inr ⟨env, rfl, rfl⟩⟩
  · rw [if_neg env] at taken
    split at taken
    · cases taken
    · cases taken
      exact ⟨⟨known, env⟩, .inl ⟨env, rfl⟩⟩

/-- An argument that is taken sets an attribute that had no value before, to a clean one. -/
theorem addAttribute_spec {values values' : Map Str Str} {word : Str}
    (taken : addAttribute secret values word = .ok values') :
    ∃ key value, (∀ k v, Sets secret word k v ↔ k = key ∧ v = value) ∧ Clean (key, value) ∧
      values.get? key = none ∧ values' = values.insert key value := by
  unfold addAttribute at taken
  cases parts : splitOnce '=' word with
  | none =>
      rw [parts] at taken
      cases taken
  | some pair =>
      obtain ⟨name, text⟩ := pair
      rw [parts] at taken
      simp only at taken
      split at taken
      · cases taken
      · rename_i known
        obtain ⟨entry, read, stored⟩ := (bind_eq_ok _ _ _).mp taken
        obtain ⟨listed, kinds⟩ := attributeOf_spec (not_not.mp known) read
        obtain ⟨spelled, plain⟩ := (splitOnce_eq_some '=' word name text).mp parts
        split at stored
        · cases stored
        · rename_i control
          split at stored
          · cases stored
          · rename_i fresh
            cases stored
            have letters := mutationKeys_letters entry.1 listed.1 listed.2
            refine ⟨entry.1, entry.2, ?_, ⟨letters.1, letters.2, ?_⟩, by simpa using fresh, rfl⟩
            · intro k v
              constructor
              · rintro ⟨name', text', spelled', plain', cases_⟩
                have again := (splitOnce_eq_some '=' word name' text').mpr ⟨spelled', plain'⟩
                rw [parts] at again
                cases again
                rcases kinds with ⟨other, rfl⟩ | ⟨env, pass, found⟩
                · rcases cases_ with ⟨-, rfl, rfl⟩ | ⟨env, -, -⟩
                  · exact ⟨rfl, rfl⟩
                  · exact absurd env other
                · rcases cases_ with ⟨other, -, -⟩ | ⟨-, rfl, found'⟩
                  · exact absurd env other
                  · rw [found] at found'
                    exact ⟨pass.symm, (Option.some.inj found').symm⟩
              · rintro ⟨rfl, rfl⟩
                refine ⟨name, text, spelled, plain, ?_⟩
                rcases kinds with ⟨other, rfl⟩ | ⟨env, pass, found⟩
                · exact .inl ⟨other, rfl, rfl⟩
                · exact .inr ⟨env, pass, found⟩
            · intro c member
              have none_ := List.any_eq_false.mp (Bool.not_eq_true _ ▸ control) c member
              simpa using none_

/-- The values that were collected are those the arguments ask for. -/
structure Collected (secret : Str → Option Str) (words : List Str) (values : Map Str Str) :
    Prop where
  wanted : ∀ key value, Wanted secret words key value ↔ values.get? key = some value
  clean : ∀ entry ∈ values.rows, Clean entry

theorem Collected.nil (secret : Str → Option Str) : Collected secret [] Table.empty where
  wanted key value := by
    constructor
    · rintro ⟨word, member, -⟩
      cases member
    · intro found
      cases found
  clean entry member := by cases member

theorem Collected.snoc {words : List Str} {values values' : Map Str Str} {word : Str}
    (collected : Collected secret words values)
    (taken : addAttribute secret values word = .ok values') :
    Collected secret (words ++ [word]) values' := by
  obtain ⟨key, value, sets, good, fresh, rfl⟩ := addAttribute_spec taken
  constructor
  · intro k v
    rw [Map.get?_insert]
    constructor
    · rintro ⟨other, member, asks⟩
      rcases List.mem_append.mp member with before | last
      · have held := (collected.wanted k v).mp ⟨other, before, asks⟩
        by_cases same : key = k
        · rw [← same, fresh] at held
          cases held
        · rw [if_neg same]
          exact held
      · cases List.mem_singleton.mp last
        obtain ⟨rfl, rfl⟩ := (sets k v).mp asks
        rw [if_pos rfl]
    · intro held
      by_cases same : key = k
      · rw [if_pos same] at held
        cases held
        exact ⟨word, List.mem_append_right _ (List.mem_singleton_self _),
          (sets k value).mpr ⟨same.symm, rfl⟩⟩
      · rw [if_neg same] at held
        obtain ⟨other, member, asks⟩ := (collected.wanted k v).mpr held
        exact ⟨other, List.mem_append_left _ member, asks⟩
  · intro entry member
    rcases List.mem_append.mp member with old | new
    · exact collected.clean entry (List.mem_filter.mp old).1
    · cases List.mem_singleton.mp new
      exact good

theorem collected_foldlM {words before : List Str} {values values' : Map Str Str}
    (collected : Collected secret before values)
    (taken : words.foldlM (addAttribute secret) values = .ok values') :
    Collected secret (before ++ words) values' := by
  induction words generalizing before values with
  | nil =>
      cases taken
      rwa [List.append_nil]
  | cons word rest ih =>
      rw [List.foldlM_cons] at taken
      obtain ⟨next, first, later⟩ := (bind_eq_ok _ _ _).mp taken
      have all := ih (collected.snoc first) later
      rwa [List.append_assoc] at all

/-- What a mutation of attributes was built from. -/
theorem parse_spec {action tail : Str} {mutation : Mutation}
    (kind : action = addAction ∨ action = changeAction)
    (parsed : parse shellWords secret print action tail = .ok mutation) :
    ∃ given values, words shellWords tail = .ok given ∧
      Collected secret (attributeWords action given) values ∧ values.rows ≠ [] ∧
      operationOf action = .ok mutation.operation ∧
      (∀ id ∈ mutation.networkId, ∃ spelled, normalizeNetworkId spelled = some id) ∧
      mutation.command = .raw bouncerCommand
        (mutation.operation :: mutation.networkId.toList ++ [attributesText values]) ∧
      utf8Length (print (Message.ofCommand mutation.command)) ≤ 512 := by
  unfold parse at parsed
  obtain ⟨given, split_, parsed⟩ := (bind_eq_ok _ _ _).mp parsed
  obtain ⟨operation, named, parsed⟩ := (bind_eq_ok _ _ _).mp parsed
  obtain ⟨aimed, aims, parsed⟩ := (bind_eq_ok _ _ _).mp parsed
  obtain ⟨attributes, spelled, parsed⟩ := (bind_eq_ok _ _ _).mp parsed
  have kept : action ≠ deleteAction := by
    rcases kind with rfl | rfl <;> decide
  have target_ : aimed.2 = attributeWords action given ∧
      ∀ id ∈ aimed.1, ∃ spelled, normalizeNetworkId spelled = some id := by
    unfold target at aims
    unfold attributeWords
    split at aims
    · rename_i add
      cases aims
      exact ⟨(if_pos add).symm, by simp⟩
    · rename_i other
      rw [if_neg other]
      cases given with
      | nil => cases aims
      | cons id rest =>
          cases normal : normalizeNetworkId id with
          | none =>
              simp only [normal] at aims
              cases aims
          | some network =>
              simp only [normal] at aims
              cases aims
              exact ⟨rfl, fun x member => ⟨id, normal.trans member⟩⟩
  unfold attributeParams at spelled
  rw [if_neg kept] at spelled
  obtain ⟨values, folded, checked⟩ := (bind_eq_ok _ _ _).mp spelled
  split at checked
  · cases checked
  · rename_i filled
    split at checked
    · cases checked
    · cases checked
      simp only at parsed
      split at parsed
      · cases parsed
      · rename_i short
        cases parsed
        refine ⟨given, values, split_, ?_, filled, named, target_.2, rfl, Nat.not_lt.mp short⟩
        have collected := collected_foldlM (Collected.nil secret) folded
        rwa [List.nil_append, target_.1] at collected

end Parsing

/-! ### The line and its reading -/

section Lines

/-- A parameter that holds no control character. -/
def Printable (param : Str) : Prop := MiddleParam param ∧ ∀ c ∈ param, isControl c = false

theorem printable_letters {param : Str} (filled : param ≠ [])
    (letters : param.all Char.isAlpha = true) : Printable param := by
  have all := fun c member => alpha_plain (List.all_eq_true.mp letters c member)
  refine ⟨⟨filled, fun space => (all _ space).2.2.1 rfl, ?_⟩, fun c member => (all c member).2.2.2.2.2.1⟩
  intro colon
  exact (all _ (List.mem_of_mem_head? colon)).2.2.2.1 rfl

theorem digit_printable {c : Char} (digit : c.isDigit = true) :
    c ≠ ' ' ∧ c ≠ ':' ∧ isControl c = false := by
  have range : 48 ≤ c.toNat ∧ c.toNat ≤ 57 := by
    simp only [Char.isDigit, Bool.and_eq_true, decide_eq_true_eq] at digit
    exact digit
  have apart : ∀ d : Char, d.toNat < 48 ∨ 57 < d.toNat → c ≠ d := by
    rintro d outside rfl
    omega
  refine ⟨apart _ (by decide), apart _ (by decide), ?_⟩
  simp only [isControl]
  grind

theorem printable_id {spelled id : Str} (normal : normalizeNetworkId spelled = some id) :
    Printable id := by
  have digits : ∃ n, id = natText n := by
    unfold normalizeNetworkId at normal
    split at normal
    · split at normal
      · split at normal
        · rename_i t _ positive
          cases t with
          | ofNat n => exact ⟨n, (Option.some.inj normal).symm⟩
          | negSucc n => exact absurd positive (by omega)
        · cases normal
      · cases normal
    · cases normal
  obtain ⟨n, rfl⟩ := digits
  have all := fun c member => digit_printable (natText_digits n c member)
  refine ⟨⟨natText_ne_nil n, fun space => (all _ space).1 rfl, ?_⟩, fun c member => (all c member).2.2⟩
  obtain ⟨c, rest, text, digit⟩ := natText_head n
  rw [text]
  intro colon
  exact (digit_printable digit).2.1 (Option.some.inj colon)

theorem printable_operation {action operation : Str}
    (kind : action = addAction ∨ action = changeAction)
    (named : operationOf action = .ok operation) : Printable operation := by
  have spelled : operation = "ADDNETWORK".toList ∨ operation = "CHANGENETWORK".toList := by
    rcases kind with rfl | rfl
    · exact .inl (Except.ok.inj named).symm
    · exact .inr (Except.ok.inj named).symm
  rcases spelled with rfl | rfl
  · exact printable_letters (by decide) (by decide +kernel)
  · exact printable_letters (by decide) (by decide +kernel)

theorem printable_text {values : Map Str Str} (clean : ∀ entry ∈ values.rows, Clean entry)
    (some_ : values.rows ≠ []) : Printable (attributesText values) := by
  obtain ⟨filled, -, start⟩ := attributesText_start clean some_
  refine ⟨⟨filled, fun space => (mem_attributesText clean space).1 rfl, start⟩, ?_⟩
  exact fun c member => (mem_attributesText clean member).2.1

/-- Printable parameters make one line. -/
theorem oneLine_print {print : Message → Str} (prints : PrintsRaw print) {params : List Str}
    (printable : ∀ param ∈ params, Printable param) :
    OneLine (print (Message.ofCommand (.raw bouncerCommand params))) := by
  refine ⟨_, prints bouncerCommand params fun param member => (printable param member).1, ?_⟩
  intro c member
  by_cases space : c = ' '
  · subst c
    decide
  · obtain ⟨part, inside, here⟩ := (mem_intercalate_iff space _).mp member
    have command : Printable bouncerCommand :=
      printable_letters (by decide) (by decide +kernel)
    rcases List.mem_cons.mp inside with rfl | given
    · exact command.2 c here
    · exact (printable part given).2 c here

end Lines

section Reading

variable {readTags : TagReader} {values : Map Str Str} {spelled id : Str}

/-- Where no key comes twice, the last value of a key is its value. -/
theorem lastValue_distinct {tags : List (Str × Option Str)} (distinct : (tags.map Prod.fst).Nodup)
    (key value : Str) :
    (lastValue key tags).map (fun given => given.getD []) = some value ↔
      (key, value) ∈ tags.map fun tag => (tag.1, tag.2.getD []) := by
  induction tags generalizing value with
  | nil => simp [lastValue]
  | cons tag rest ih =>
      rw [List.map_cons, List.nodup_cons] at distinct
      rw [lastValue, List.map_cons, List.mem_cons, ← ih distinct.2]
      by_cases here : tag.1 = key
      · have gone : lastValue key rest = none := by
          cases later : lastValue key rest with
          | none => rfl
          | some given =>
              have listed := (ih distinct.2 (given.getD [])).mp (by rw [later]; rfl)
              obtain ⟨other, inside, same⟩ := List.mem_map.mp listed
              have again : tag.1 = other.1 := here.trans (Prod.mk.inj same).1.symm
              exact absurd (again ▸ List.mem_map_of_mem inside) distinct.1
        simp [gone, here, eq_comm]
      · simp [here, Ne.symm here]

/-- The client reads the text it spelled, unless it holds white space the reader refuses. -/
theorem readsBack_iff (tagged : ReadsTags readTags) (clean : ∀ entry ∈ values.rows, Clean entry)
    (some_ : values.rows ≠ []) (normal : normalizeNetworkId spelled = some id) :
    ReadsBack readTags spelled id (attributesText values)
        (fun key value => values.get? key = some value) ↔
      PlainText (attributesText values) := by
  obtain ⟨filled, star, -⟩ := attributesText_start clean some_
  constructor
  · rintro ⟨attributes, read, -⟩
    by_contra blank
    simp only [parseUpdate, normal, if_neg star] at read
    rw [if_pos (.inr (Bool.not_eq_false _ ▸ blank))] at read
    cases read
  · intro plain
    have parts := splitOn_attributesText clean some_
    obtain ⟨tags, read, given⟩ := tagged (attributesText values) (by
      intro tag member
      rw [parts] at member
      obtain ⟨entry, inside, rfl⟩ := List.mem_map.mp member
      exact tagText_spell (clean entry ((mem_ordered values entry).mp inside)))
    rw [parts, readTags_attributesText clean] at given
    have distinct : (tags.map Prod.fst).Nodup := by
      have same : tags.map Prod.fst = (ordered values).map Prod.fst := by
        rw [← given, List.map_map]
        rfl
      rw [same]
      exact ordered_distinct values
    refine ⟨attributesOf tags, parseUpdate_plain networkSub normal filled star plain read, ?_⟩
    intro key value
    rw [get?_attributesOf, lastValue_distinct distinct, given, mem_ordered]
    exact Map.get?_eq_some values key value

/-- A mutation is one short line, and the client reads the attributes in it as they were asked for
exactly when no value holds white space other than spaces. -/
theorem attributes_round_trip {shellWords : Str → Option (List Str)} {secret : Str → Option Str}
    {print : Message → Str} (tagged : ReadsTags readTags) (prints : PrintsRaw print)
    {action tail : Str} {mutation : Mutation} (kind : action = addAction ∨ action = changeAction)
    (parsed : parse shellWords secret print action tail = .ok mutation) :
    ∃ given text, words shellWords tail = .ok given ∧
      mutation.command =
        .raw bouncerCommand (mutation.operation :: mutation.networkId.toList ++ [text]) ∧
      OneLine (print (Message.ofCommand mutation.command)) ∧
      utf8Length (print (Message.ofCommand mutation.command)) ≤ 512 ∧
      ∀ spelled id, normalizeNetworkId spelled = some id →
        (ReadsBack readTags spelled id text (Wanted secret (attributeWords action given)) ↔
          PlainSpaces (Wanted secret (attributeWords action given))) := by
  obtain ⟨given, values, split_, collected, some_, named, ids, command, short⟩ :=
    parse_spec kind parsed
  have wanted : Wanted secret (attributeWords action given) =
      fun key value => values.get? key = some value := by
    funext key value
    exact propext (collected.wanted key value)
  refine ⟨given, attributesText values, split_, command, ?_, short, ?_⟩
  · rw [command]
    apply oneLine_print prints
    intro param member
    simp only [List.cons_append, List.mem_cons, List.mem_append, Option.mem_toList,
      List.not_mem_nil, or_false] at member
    rcases member with rfl | id | rfl
    · exact printable_operation kind named
    · obtain ⟨spelled, normal⟩ := ids param id
      exact printable_id normal
    · exact printable_text collected.clean some_
  · intro spelled id normal
    rw [wanted]
    calc ReadsBack readTags spelled id (attributesText values)
          (fun key value => values.get? key = some value)
        ↔ PlainText (attributesText values) :=
          readsBack_iff tagged collected.clean some_ normal
      _ ↔ ∀ entry ∈ values.rows, ∀ c ∈ entry.2, isWhitespace c = true → c = ' ' :=
          plainText_iff collected.clean
      _ ↔ PlainSpaces fun key value => values.get? key = some value := by
          constructor
          · intro spaces key value held
            exact spaces (key, value) ((Map.get?_eq_some values key value).mp held)
          · intro spaces entry held
            exact spaces entry.1 entry.2 ((Map.get?_eq_some values _ _).mpr held)

end Reading

section Texts

/-- The splitter where nothing is quoted. -/
def spaceWords (tail : Str) : Option (List Str) := some (tail.splitOn ' ')

def plainPrint (message : Message) : Str :=
  match message.command with
  | .raw command params => [' '].intercalate (command :: params) ++ crlf
  | _ => crlf

def plainTags : TagReader := fun text =>
  some ((text.splitOn ';').map fun tag => ((readTag tag).1, some (readTag tag).2))

theorem plainPrint_prints : PrintsRaw plainPrint := fun _ _ _ => rfl

theorem plainTags_reads : ReadsTags plainTags := by
  intro text _
  refine ⟨_, rfl, ?_⟩
  rw [List.map_map]
  rfl

def groupTail : Str := "host=irc.example name=Work;Group#1".toList

def groupMutation : Mutation where
  operation := "ADDNETWORK".toList
  networkId := none
  command := .raw bouncerCommand
    ["ADDNETWORK".toList, "host=irc.example;name=Work\\:Group#1".toList]

theorem attributes_round_trip_group :
    ∃ given text, words spaceWords groupTail = .ok given ∧
      groupMutation.command =
        .raw bouncerCommand (groupMutation.operation :: groupMutation.networkId.toList ++ [text]) ∧
      OneLine (plainPrint (Message.ofCommand groupMutation.command)) ∧
      utf8Length (plainPrint (Message.ofCommand groupMutation.command)) ≤ 512 ∧
      ∀ spelled id, normalizeNetworkId spelled = some id →
        (ReadsBack plainTags spelled id text
            (Wanted (fun _ => none) (attributeWords addAction given)) ↔
          PlainSpaces (Wanted (fun _ => none) (attributeWords addAction given))) :=
  attributes_round_trip plainTags_reads plainPrint_prints (.inl rfl) (by decide +kernel)

/-- A no-break space is no control character, and the reader takes no white space. -/
def wideTail : Str := "host=irc.example name=Work\u00a0Group".toList

def wideText : Str := "host=irc.example;name=Work\u00a0Group".toList

def wideMutation : Mutation where
  operation := "ADDNETWORK".toList
  networkId := none
  command := .raw bouncerCommand ["ADDNETWORK".toList, wideText]

theorem wide_space_unread :
    parse spaceWords (fun _ => none) plainPrint addAction wideTail = .ok wideMutation ∧
      ¬ReadsBack plainTags "1".toList "1".toList wideText
        (Wanted (fun _ => none) (wideTail.splitOn ' ')) := by
  constructor
  · decide +kernel
  · rintro ⟨attributes, read, -⟩
    have refused : parseUpdate plainTags [networkSub, "1".toList, wideText] = none := by
      decide +kernel
    rw [refused] at read
    cases read

end Texts

end Mutation

end Repartee.Irc
