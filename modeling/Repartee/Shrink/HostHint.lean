import Mathlib.Data.List.DropRight
import Repartee.Fields

/-!
The links found in a message, the host shown after a shortened one, and the host a browser reads
from the same text.
-/

namespace Repartee.Shrink

open Text

def https : Str := "https://".toList
def http : Str := "http://".toList

/-- The characters of a link after its scheme. -/
def urlChar (c : Char) : Bool := !isWhitespace c && !"<>\"'()[]".toList.contains c

/-- The longest match of the pattern at the front of a text. -/
def matchUrl (text : Str) : Option Str :=
  [https, http].findSome? fun scheme =>
    (stripPrefix scheme text).bind fun rest =>
      let body := rest.takeWhile urlChar
      if body.isEmpty then none else some (scheme ++ body)

/-- The matches from left to right; the first argument counts the characters a match still covers. -/
def findUrls : Nat → Str → List Str
  | _, [] => []
  | covered + 1, _ :: rest => findUrls covered rest
  | 0, c :: rest =>
      match matchUrl (c :: rest) with
      | some url => url :: findUrls (url.length - 1) rest
      | none => findUrls 0 rest

def trailingTrim (c : Char) : Bool := ".,;:".toList.contains c

def findLongUrls (text : Str) (minLength : Nat) : List Str :=
  (findUrls 0 text).foldl
    (fun out found =>
      let url := found.rdropWhile trailingTrim
      if utf8Length url < minLength then out else if url ∈ out then out else out ++ [url]) []

/-- The text before and after the last occurrence of the separator. -/
def rsplitOnce (separator : Char) (s : Str) : Option (Str × Str) :=
  (splitOnce separator s.reverse).map fun parts => (parts.2.reverse, parts.1.reverse)

def endsHost (c : Char) : Bool := c = '/' || c = '?' || c = '#'

def hostOf (url : Str) : Option Str :=
  ((stripPrefix https url).or (stripPrefix http url)).bind fun rest =>
    let host := rest.takeWhile fun c => !endsHost c
    if host.isEmpty then none
    else
      let host := (rsplitOnce '@' host).elim host Prod.snd
      if host.isEmpty then none
      else
        let host :=
          if host.head? = some '[' then (splitOnce ']' host).elim host fun parts => parts.1 ++ [']']
          else (rsplitOnce ':' host).elim host Prod.fst
        some (asciiLower ((stripPrefix "www.".toList host).getD host))

/-- The C0 controls and the space, which a browser drops at both ends of an address. -/
def strips (c : Char) : Bool := c.toNat ≤ 0x20

def isSlash (c : Char) : Bool := c = '/' || c = '\\'

def endsAuthority (c : Char) : Bool := c = '/' || c = '\\' || c = '?' || c = '#'

/-- What a browser reads after the colon of the scheme. -/
def browserRest (url : Str) : Option Str :=
  let url := ((url.dropWhile strips).rdropWhile strips).filter fun c =>
    !(c = '\t' || c = '\n' || c = '\r')
  (["https:".toList, "http:".toList].find? fun scheme =>
    decide (asciiLower (url.take scheme.length) = scheme)).map fun scheme => url.drop scheme.length

/-- The host up to the colon of a port, and what follows it; brackets hide a colon. -/
def hostAndPort : Bool → Str → Str × Str
  | _, [] => ([], [])
  | inside, c :: rest =>
      if c = ':' ∧ inside = false then ([], c :: rest)
      else
        let later := hostAndPort (if c = '[' then true else if c = ']' then false else inside) rest
        (c :: later.1, later.2)

def portAllowed (digits : Str) : Bool :=
  digits.all Char.isDigit && decide (digits.foldl (fun n c => 10 * n + (c.toNat - 48)) 0 < 2 ^ 16)

/-- The text a browser passes over before the host, and the host: any number of slashes of either
kind, then all up to the last `@` of the authority. -/
def browserParts (rest : Str) : Option (Str × Str) :=
  let slashes := rest.takeWhile isSlash
  let authority := (rest.dropWhile isSlash).takeWhile fun c => !endsAuthority c
  let info := (rsplitOnce '@' authority).elim [] fun parts => parts.1 ++ ['@']
  let split := hostAndPort false ((rsplitOnce '@' authority).elim authority Prod.snd)
  if split.1.isEmpty || !portAllowed split.2.tail then none else some (slashes ++ info, split.1)

/-- The host a browser visits; the parser of hosts decodes, maps and checks the text it is given. -/
def browserHost (parseHost : Str → Option Str) (url : Str) : Option Str :=
  ((browserRest url).bind browserParts).bind fun parts => parseHost parts.2

/-- The same host up to the case of ASCII letters and a leading `www.` that is not shown. -/
def SameHost (shown host : Str) : Prop :=
  asciiLower host = asciiLower shown ∨ asciiLower host = "www.".toList ++ asciiLower shown

instance (shown host : Str) : Decidable (SameHost shown host) :=
  inferInstanceAs (Decidable (_ ∨ _))

example : findLongUrls "see https://Example.com/a, or http://b.org: https://Example.com/a".toList 10 =
    ["https://Example.com/a".toList, "http://b.org".toList] := by decide +kernel

example : hostOf "https://u:p@www.Example.com:8443/x@y".toList = some "example.com".toList := by
  decide +kernel

section Found

theorem rdropWhile_append {α : Type} (p : α → Bool) (front back : List α) (last : α)
    (kept : p last = false) :
    (front ++ [last] ++ back).rdropWhile p = front ++ [last] ++ back.rdropWhile p := by
  unfold List.rdropWhile
  rw [List.reverse_append, List.dropWhile_append]
  split
  · rename_i nothing
    rw [List.isEmpty_iff] at nothing
    rw [nothing, List.reverse_append, List.reverse_singleton, List.singleton_append,
      List.dropWhile_cons_of_neg (by simp [kept])]
    simp
  · rw [List.reverse_append, List.reverse_reverse]

/-- A link: one of the two schemes, then characters that a link may have. -/
def IsLink (scheme rest : Str) : Prop := scheme ∈ [https, http] ∧ ∀ c ∈ rest, urlChar c = true

theorem matchUrl_link {text url : Str} (matched : matchUrl text = some url) :
    ∃ scheme rest, IsLink scheme rest ∧ url = scheme ++ rest := by
  obtain ⟨before, scheme, after, schemes, found, -⟩ := List.findSome?_eq_some_iff.mp matched
  have member : scheme ∈ [https, http] := by
    rw [schemes]
    simp
  obtain ⟨rest, -, found⟩ := Option.bind_eq_some_iff.mp found
  simp only at found
  split at found
  · cases found
  · cases found
    exact ⟨scheme, _, ⟨member, fun c inside => List.mem_takeWhile_imp inside⟩, rfl⟩

theorem findUrls_link (covered : Nat) (text : Str) :
    ∀ url ∈ findUrls covered text, ∃ scheme rest, IsLink scheme rest ∧ url = scheme ++ rest := by
  induction text generalizing covered with
  | nil => simp [findUrls]
  | cons c text ih =>
      cases covered with
      | succ covered => exact ih covered
      | zero =>
          rw [findUrls]
          cases matched : matchUrl (c :: text) with
          | none => exact ih 0
          | some first =>
              intro url member
              rcases List.mem_cons.mp member with rfl | member
              · exact matchUrl_link matched
              · exact ih _ url member

theorem scheme_ends {scheme : Str} (member : scheme ∈ [https, http]) :
    ∃ front, scheme = front ++ ['/'] := by
  simp only [List.mem_cons, List.not_mem_nil, or_false] at member
  rcases member with rfl | rfl
  · exact ⟨"https:/".toList, by decide +kernel⟩
  · exact ⟨"http:/".toList, by decide +kernel⟩

/-- Dropping characters at the end of a link leaves a link. -/
theorem IsLink.rdropWhile {scheme rest : Str} (link : IsLink scheme rest) (p : Char → Bool)
    (kept : p '/' = false) :
    IsLink scheme (rest.rdropWhile p) ∧
      (scheme ++ rest).rdropWhile p = scheme ++ rest.rdropWhile p := by
  obtain ⟨front, rfl⟩ := scheme_ends link.1
  refine ⟨⟨link.1, ?_⟩, rdropWhile_append p front rest '/' kept⟩
  intro c member
  have leading := List.rdropWhile_prefix p rest
  exact link.2 c (leading.subset member)

theorem findLongUrls_link (text : Str) (minLength : Nat) :
    ∀ url ∈ findLongUrls text minLength, ∃ scheme rest, IsLink scheme rest ∧ url = scheme ++ rest := by
  have keep (found out : List Str)
      (links : ∀ url ∈ found, ∃ scheme rest, IsLink scheme rest ∧ url = scheme ++ rest)
      (start : ∀ url ∈ out, ∃ scheme rest, IsLink scheme rest ∧ url = scheme ++ rest) :
      ∀ url ∈ found.foldl
        (fun out found =>
          let url := found.rdropWhile trailingTrim
          if utf8Length url < minLength then out else if url ∈ out then out else out ++ [url]) out,
        ∃ scheme rest, IsLink scheme rest ∧ url = scheme ++ rest := by
    induction found generalizing out with
    | nil => exact start
    | cons first found ih =>
        apply ih _ fun url member => links url (List.mem_cons_of_mem first member)
        obtain ⟨scheme, rest, link, rfl⟩ := links first (by simp)
        obtain ⟨trimmed, shape⟩ := link.rdropWhile trailingTrim (by decide +kernel)
        simp only
        split
        · exact start
        · split
          · exact start
          · intro url member
            rcases List.mem_append.mp member with earlier | last
            · exact start url earlier
            · rw [List.mem_singleton.mp last]
              exact ⟨scheme, _, trimmed, shape⟩
  exact keep (findUrls 0 text) [] (findUrls_link 0 text) (by simp)

end Found

section Separators

variable (separator : Char) (s front back : Str)

theorem rsplitOnce_eq_none : rsplitOnce separator s = none ↔ separator ∉ s := by
  rw [rsplitOnce, Option.map_eq_none_iff, splitOnce_eq_none, List.mem_reverse]

theorem rsplitOnce_append (clean : separator ∉ back) :
    rsplitOnce separator (front ++ separator :: back) = some (front, back) := by
  have shape : (front ++ separator :: back).reverse =
      back.reverse ++ separator :: front.reverse := by
    simp
  have clean : separator ∉ back.reverse := by rwa [List.mem_reverse]
  rw [rsplitOnce, shape, splitOnce_append separator _ _ clean]
  simp

theorem rsplitOnce_eq_some (split_ : rsplitOnce separator s = some (front, back)) :
    s = front ++ separator :: back ∧ separator ∉ back := by
  obtain ⟨⟨left, right⟩, found, same⟩ := Option.map_eq_some_iff.mp split_
  obtain ⟨rfl, rfl⟩ := Prod.mk.inj same
  obtain ⟨shape, clean⟩ := (splitOnce_eq_some separator s.reverse left right).mp found
  refine ⟨?_, by rwa [List.mem_reverse]⟩
  rw [← List.reverse_reverse s, shape]
  simp

/-- What stands after the last of a separator, or all. -/
theorem rsplitOnce_back : ∃ front back, s = front ++ back ∧ separator ∉ back ∧
    (front = [] ∨ front.getLast? = some separator) ∧
    (rsplitOnce separator s).elim s Prod.snd = back ∧
    (rsplitOnce separator s).elim [] (fun parts => parts.1 ++ [separator]) = front := by
  cases split_ : rsplitOnce separator s with
  | none => exact ⟨[], s, rfl, (rsplitOnce_eq_none separator s).mp split_, Or.inl rfl, rfl, rfl⟩
  | some parts =>
      obtain ⟨shape, clean⟩ := rsplitOnce_eq_some separator s parts.1 parts.2 split_
      refine ⟨parts.1 ++ [separator], parts.2, ?_, clean, Or.inr (by simp), rfl, rfl⟩
      rw [List.append_assoc]
      exact shape

end Separators

section Browser

theorem urlChar_plain {c : Char} (plain : urlChar c = true) :
    c ≠ '\t' ∧ c ≠ '\n' ∧ c ≠ '\r' ∧ c ≠ '[' ∧ c ≠ ']' := by
  refine ⟨?_, ?_, ?_, ?_, ?_⟩ <;>
  · rintro rfl
    revert plain
    decide +kernel

/-- Of a link a browser drops the control characters at its end and reads on after the scheme. -/
theorem browserRest_link {scheme rest : Str} (link : IsLink scheme rest) :
    browserRest (scheme ++ rest) = some ('/' :: '/' :: rest.rdropWhile strips) := by
  obtain ⟨trimmed, shape⟩ := link.rdropWhile strips (by decide +kernel)
  have plain : ∀ c ∈ rest.rdropWhile strips, (!(c = '\t' || c = '\n' || c = '\r')) = true := by
    intro c member
    obtain ⟨tab, line, feed, -⟩ := urlChar_plain (trimmed.2 c member)
    simp [tab, line, feed]
  have kept := List.filter_eq_self.mpr plain
  have front : (scheme ++ rest).dropWhile strips = scheme ++ rest := by
    have member := link.1
    simp only [List.mem_cons, List.not_mem_nil, or_false] at member
    rcases member with rfl | rfl <;> rfl
  have member := link.1
  simp only [List.mem_cons, List.not_mem_nil, or_false] at member
  unfold browserRest
  simp only [front, shape, List.filter_append, kept]
  generalize rest.rdropWhile strips = trimmed
  rcases member with rfl | rfl <;> rfl

/-- The colon of a port is the first of an authority without brackets. -/
theorem hostAndPort_plain (s : Str) (plain : '[' ∉ s) :
    hostAndPort false s = (s.takeWhile fun c => c ≠ ':', s.dropWhile fun c => c ≠ ':') := by
  induction s with
  | nil => rfl
  | cons c rest ih =>
      simp only [List.mem_cons, not_or] at plain
      by_cases colon : c = ':'
      · simp [hostAndPort, colon]
      · simp [hostAndPort, colon, Ne.symm plain.1, ih plain.2]

/-- A browser reads a text as slashes, user info and a host, and stops there. -/
structure BrowserReads (rest slashes info host tail : Str) : Prop where
  shape : rest = slashes ++ (info ++ (host ++ tail))
  slashes : slashes = rest.takeWhile isSlash
  authority : ∀ c ∈ info ++ host, endsAuthority c = false
  info : info = [] ∨ info.getLast? = some '@'
  host : host ≠ [] ∧ '@' ∉ host ∧ ':' ∉ host
  stops : ∀ c ∈ tail.head?, c = ':' ∨ endsAuthority c = true

theorem browserParts_reads {rest front host : Str} (plain : '[' ∉ rest)
    (parts : browserParts rest = some (front, host)) :
    ∃ slashes info tail, front = slashes ++ info ∧ BrowserReads rest slashes info host tail := by
  unfold browserParts at parts
  have rest_shape := List.takeWhile_append_dropWhile (p := isSlash) (l := rest)
  have cut := List.takeWhile_append_dropWhile (p := fun c => !endsAuthority c)
    (l := rest.dropWhile isSlash)
  have clean : ∀ c ∈ (rest.dropWhile isSlash).takeWhile (fun c => !endsAuthority c),
      endsAuthority c = false := by
    intro c member
    simpa using List.mem_takeWhile_imp member
  have beyond : ∀ c ∈ ((rest.dropWhile isSlash).dropWhile fun c => !endsAuthority c).head?,
      endsAuthority c = true := by
    intro c member
    have stop := List.head?_dropWhile_not (fun c => !endsAuthority c) (rest.dropWhile isSlash)
    rw [Option.mem_def.mp member] at stop
    simpa using stop
  generalize (rest.dropWhile isSlash).dropWhile (fun c => !endsAuthority c) = remainder at cut beyond
  generalize (rest.dropWhile isSlash).takeWhile (fun c => !endsAuthority c) = authority at *
  obtain ⟨info, back, authority_shape, single, info_ends, back_eq, info_eq⟩ :=
    rsplitOnce_back '@' authority
  simp only [back_eq, info_eq] at parts
  have back_plain : '[' ∉ back := by
    intro member
    apply plain
    rw [← rest_shape, ← cut, authority_shape]
    simp [member]
  rw [hostAndPort_plain back back_plain] at parts
  have back_shape := List.takeWhile_append_dropWhile (p := fun c => decide (c ≠ ':')) (l := back)
  split at parts
  · cases parts
  · rename_i accepted
    cases parts
    refine ⟨_, info, back.dropWhile (fun c => c ≠ ':') ++ remainder, rfl, ?_, rfl, ?_, info_ends,
      ⟨?_, ?_, ?_⟩, ?_⟩
    · conv_lhs => rw [← rest_shape, ← cut, authority_shape, ← back_shape]
      simp only [List.append_assoc]
    · intro c member
      apply clean
      rw [authority_shape, ← back_shape, ← List.append_assoc]
      exact List.mem_append_left _ member
    · intro (nothing : List.takeWhile (fun c => decide (c ≠ ':')) back = [])
      apply accepted
      simp only [nothing, List.isEmpty_nil, Bool.true_or]
    · exact fun member => single (List.takeWhile_subset _ member)
    · intro member
      simpa using List.mem_takeWhile_imp member
    · intro c member
      cases port : back.dropWhile fun c => decide (c ≠ ':') with
      | nil =>
          rw [port, List.nil_append] at member
          exact Or.inr (beyond c member)
      | cons colon digits =>
          rw [port] at member
          have stop := List.head?_dropWhile_not (fun c => decide (c ≠ ':')) back
          rw [port] at stop
          simp at stop member
          exact Or.inl (member ▸ stop)

end Browser

section Hint

/-- The part of a link that is taken for its authority: up to the first `/`, `?` or `#`. -/
def written (rest : Str) : Str := rest.takeWhile fun c => !endsHost c

/-- The text the host of a link is taken from, or nothing. -/
def shownText (authority : Str) : Str :=
  let back := (rsplitOnce '@' authority).elim authority Prod.snd
  (rsplitOnce ':' back).elim back Prod.fst

/-- A text shown, less a leading `www.`, names a host. -/
def Names (text host : Str) : Prop :=
  SameHost ((stripPrefix "www.".toList text).getD text) host

/-- Whether nothing is shown for a link. -/
def ShowsNothing (rest : Str) : Prop := written rest = [] ∨ (written rest).getLast? = some '@'

instance (rest : Str) : Decidable (ShowsNothing rest) := inferInstanceAs (Decidable (_ ∨ _))

theorem stripScheme_link {scheme rest : Str} (link : IsLink scheme rest) :
    (stripPrefix https (scheme ++ rest)).or (stripPrefix http (scheme ++ rest)) = some rest := by
  have member := link.1
  simp only [List.mem_cons, List.not_mem_nil, or_false] at member
  rcases member with rfl | rfl
  · rw [stripPrefix_append, Option.some_or]
  · have other : stripPrefix https (http ++ rest) = none := rfl
    rw [other, stripPrefix_append, Option.none_or]

/-- Nothing is shown where nothing stands after the last `@`. -/
theorem showsNothing_iff {rest front back : Str} (shape : written rest = front ++ back)
    (clean : '@' ∉ back) (ends : front = [] ∨ front.getLast? = some '@') :
    ShowsNothing rest ↔ back = [] := by
  unfold ShowsNothing
  rw [shape]
  constructor
  · rintro (empty | last)
    · exact (List.append_eq_nil_iff.mp empty).2
    · by_contra some_
      rw [List.getLast?_append_of_ne_nil _ some_] at last
      exact clean (List.mem_of_getLast? last)
  · rintro rfl
    rw [List.append_nil]
    exact ends

theorem hostOf_link {scheme rest : Str} (link : IsLink scheme rest) :
    hostOf (scheme ++ rest) = if ShowsNothing rest then none
      else some (asciiLower ((stripPrefix "www.".toList (shownText (written rest))).getD
        (shownText (written rest)))) := by
  obtain ⟨front, back, shape, clean, ends, back_eq, -⟩ := rsplitOnce_back '@' (written rest)
  have plain : ¬back.head? = some '[' := by
    intro bracket
    have member : '[' ∈ written rest := by
      rw [shape]
      exact List.mem_append_right _ (List.mem_of_head? bracket)
    exact (urlChar_plain (link.2 '[' (List.takeWhile_subset _ member))).2.2.2.1 rfl
  have nothing := showsNothing_iff shape clean ends
  have unfolded : hostOf (scheme ++ rest) =
      if (written rest).isEmpty then none else if back.isEmpty then none
      else some (asciiLower ((stripPrefix "www.".toList (shownText (written rest))).getD
        (shownText (written rest)))) := by
    rw [hostOf, stripScheme_link link, Option.bind_some]
    have read : (rest.takeWhile fun c => !endsHost c) = written rest := rfl
    unfold shownText
    simp only [read, back_eq, plain, if_false]
  rw [unfolded]
  by_cases empty : back = []
  · simp [nothing, empty]
  · have some_ : written rest ≠ [] := by
      rw [shape]
      simp [empty]
    simp [nothing, empty, some_]

theorem shownText_after (front back : Str) (clean : '@' ∉ back)
    (ends : front = [] ∨ front.getLast? = some '@') :
    shownText (front ++ back) = (rsplitOnce ':' back).elim back Prod.fst := by
  unfold shownText
  rcases ends with rfl | last
  · rw [List.nil_append, (rsplitOnce_eq_none '@' back).mpr clean]
    rfl
  · have shape : front ++ back = front.dropLast ++ '@' :: back := by
      conv_lhs => rw [← List.dropLast_append_getLast? '@' last]
      simp
    rw [shape, rsplitOnce_append '@' _ back clean]
    rfl

/-- What a port is taken for: nothing, or what follows the last colon. -/
def PortOf (host port : Str) : Prop :=
  port = [] ∧ ':' ∉ host ∨ ∃ digits, port = ':' :: digits ∧ ':' ∉ digits

theorem rsplitOnce_port {host port : Str} (cut : PortOf host port) :
    (rsplitOnce ':' (host ++ port)).elim (host ++ port) Prod.fst = host := by
  rcases cut with ⟨rfl, clean⟩ | ⟨digits, rfl, clean⟩
  · rw [List.append_nil, (rsplitOnce_eq_none ':' host).mpr clean]
    rfl
  · rw [rsplitOnce_append ':' host digits clean]
    rfl

theorem exists_portOf (back : Str) : ∃ host port, back = host ++ port ∧ PortOf host port := by
  cases split_ : rsplitOnce ':' back with
  | none =>
      exact ⟨back, [], by simp, Or.inl ⟨rfl, (rsplitOnce_eq_none ':' back).mp split_⟩⟩
  | some parts =>
      obtain ⟨shape, clean⟩ := rsplitOnce_eq_some ':' back parts.1 parts.2 split_
      exact ⟨parts.1, ':' :: parts.2, shape, Or.inr ⟨parts.2, rfl, clean⟩⟩

/-- Characters that no host has. -/
def Forbidden (c : Char) : Prop := c = '\\' ∨ c = ':' ∨ strips c = true

theorem Forbidden.not_letter {c : Char} (forbidden : Forbidden c) :
    c.toNat < 97 ∧ c ≠ 'w' ∧ c ≠ '.' ∧ ¬('A' ≤ c ∧ c ≤ 'Z') := by
  rcases forbidden with rfl | rfl | control
  · decide +kernel
  · decide +kernel
  · have small : c.toNat ≤ 32 := by simpa [strips] using control
    refine ⟨by omega, ?_, ?_, ?_⟩
    · rintro rfl
      revert small
      decide
    · rintro rfl
      revert small
      decide
    · rintro ⟨least, -⟩
      rw [Char.le_def, UInt32.le_iff_toNat_le] at least
      have upper : ('A' : Char).val.toNat = 65 := rfl
      have value : c.toNat = c.val.toNat := rfl
      omega

theorem mem_asciiLower {c : Char} (forbidden : Forbidden c) (s : Str) :
    c ∈ asciiLower s ↔ c ∈ s := by
  obtain ⟨small, -, -, not_upper⟩ := forbidden.not_letter
  unfold asciiLower
  rw [List.mem_map]
  constructor
  · rintro ⟨d, member, rfl⟩
    by_cases upper : 'A' ≤ d ∧ d ≤ 'Z'
    · have bounds := upper
      simp only [Char.le_def, UInt32.le_iff_toNat_le] at bounds
      have ends : ('A' : Char).val.toNat = 65 ∧ ('Z' : Char).val.toNat = 90 := ⟨rfl, rfl⟩
      have value : d.toNat = d.val.toNat := rfl
      have valid : (d.toNat + 32).isValidChar := Or.inl (by omega)
      rw [toAsciiLowercase, if_pos upper, Char.toNat_ofNat, if_pos valid] at small
      omega
    · rwa [toAsciiLowercase, if_neg upper]
  · intro member
    exact ⟨c, member, if_neg not_upper⟩

/-- A text with a character no host has names none. -/
theorem not_names {c : Char} {text host : Str} (forbidden : Forbidden c) (member : c ∈ text)
    (clean : c ∉ host) : ¬Names text host := by
  have shown : c ∈ (stripPrefix "www.".toList text).getD text := by
    unfold stripPrefix
    split
    · rename_i start
      obtain ⟨rest, rfl⟩ := List.isPrefixOf_iff_prefix.mp start
      obtain ⟨-, letter, dot, -⟩ := forbidden.not_letter
      have apart : c ∉ "www.".toList := by
        have letters : "www.".toList = ['w', 'w', 'w', '.'] := rfl
        simp [letters, letter, dot]
      rw [List.drop_left, Option.getD_some]
      exact (List.mem_append.mp member).resolve_left apart
    · exact member
  intro same
  apply clean
  rw [← mem_asciiLower forbidden]
  rcases same with same | same
  · rwa [same, mem_asciiLower forbidden]
  · rw [same]
    exact List.mem_append_right _ ((mem_asciiLower forbidden _).mpr shown)

/-- Where the text shown begins with the host a browser reads it names that host if and only if
nothing follows the host but one port. -/
theorem names_hostAndMore {host more name : Str} (colons : ':' ∉ host)
    (first : ∀ c ∈ more.head?, Forbidden c) (clean : ∀ c ∈ name, ¬Forbidden c) :
    Names ((rsplitOnce ':' (host ++ more)).elim (host ++ more) Prod.fst) name ↔
      PortOf host more ∧ Names host name := by
  obtain ⟨back, port, more_shape, cut⟩ := exists_portOf more
  subst more_shape
  have whole : PortOf (host ++ back) port := by
    rcases cut with ⟨rfl, none_⟩ | port
    · exact Or.inl ⟨rfl, by simp [colons, none_]⟩
    · exact Or.inr port
  rw [← List.append_assoc, rsplitOnce_port whole]
  cases back with
  | nil =>
      have direct : PortOf host port := cut.imp_left fun nothing => ⟨nothing.1, colons⟩
      simp [direct]
  | cons c back =>
      have forbidden := first c rfl
      have wrong : ¬Names (host ++ c :: back) name :=
        not_names forbidden (by simp) fun member => clean c member forbidden
      have several : ¬PortOf host (c :: back ++ port) := by
        rintro (⟨nothing, -⟩ | ⟨digits, shape, none_⟩)
        · cases nothing
        · obtain ⟨rfl, rfl⟩ := List.cons.inj shape
          rcases cut with ⟨-, none_here⟩ | ⟨digits, rfl, -⟩
          · exact none_here (by simp)
          · exact none_ (by simp)
      exact iff_of_false wrong fun both => several both.1

/-- A host is written again after the last `@` of a text. -/
def WrittenAgain (more name : Str) : Prop :=
  ∃ before again port, more = before ++ '@' :: (again ++ port) ∧ '@' ∉ again ++ port ∧
    PortOf again port ∧ Names again name

/-- What a browser reads before the host, and what stands between the host and the first `/`, `?` or
`#`, leave the host to be shown. -/
def LeavesHost (front host more name : Str) : Prop :=
  if '@' ∈ more then WrittenAgain more name
  else ('\\' ∉ front ∨ '@' ∈ front) ∧ PortOf host more ∧ Names host name

theorem names_again (front more name : Str) (again : '@' ∈ more) :
    Names (shownText (front ++ more)) name ↔ WrittenAgain more name := by
  constructor
  · intro names
    cases split_ : rsplitOnce '@' more with
    | none => exact absurd again ((rsplitOnce_eq_none '@' more).mp split_)
    | some parts =>
        obtain ⟨shape, clean⟩ := rsplitOnce_eq_some '@' more parts.1 parts.2 split_
        obtain ⟨host, port, back_shape, cut⟩ := exists_portOf parts.2
        have whole : front ++ more = (front ++ parts.1 ++ ['@']) ++ parts.2 := by
          rw [shape]
          simp
        rw [whole, shownText_after _ _ clean (Or.inr (by simp)), back_shape,
          rsplitOnce_port cut] at names
        exact ⟨parts.1, host, port, back_shape ▸ shape, back_shape ▸ clean, cut, names⟩
  · rintro ⟨before, host, port, rfl, clean, cut, names⟩
    have whole : front ++ (before ++ '@' :: (host ++ port)) =
        (front ++ before ++ ['@']) ++ (host ++ port) := by
      simp
    rw [whole, shownText_after _ _ clean (Or.inr (by simp)), rsplitOnce_port cut]
    exact names

/-- A text that begins with a backslash names no host, unless an `@` follows. -/
theorem not_names_backslash {s name : Str} (single : '@' ∉ s) (clean : ∀ c ∈ name, ¬Forbidden c) :
    ¬Names (shownText ('\\' :: s)) name := by
  have plain : '@' ∉ '\\' :: s := by simp [single]
  have shown := shownText_after [] ('\\' :: s) plain (Or.inl rfl)
  obtain ⟨host, port, shape, cut⟩ := exists_portOf ('\\' :: s)
  rw [List.nil_append, shape, rsplitOnce_port cut, ← shape] at shown
  have member : '\\' ∈ host := by
    cases host with
    | nil => rcases cut with ⟨rfl, -⟩ | ⟨digits, rfl, -⟩ <;> simp at shape
    | cons c host =>
        rw [← (List.cons.inj shape).1]
        simp
  rw [shown]
  exact not_names (Or.inl rfl) member fun inside => clean _ inside (Or.inl rfl)

section Read

variable {rest slashes info host tail name : Str}

theorem backslash_of_isSlash {c : Char} (slash : isSlash c = true) (other : c ≠ '/') : c = '\\' := by
  simp only [isSlash, Bool.or_eq_true, decide_eq_true_eq] at slash
  exact slash.resolve_left other

theorem endsHost_eq_false {c : Char} (inside : endsAuthority c = false) : endsHost c = false := by
  simp only [endsAuthority, endsHost, Bool.or_eq_false_iff] at inside ⊢
  exact ⟨⟨inside.1.1.1, inside.1.2⟩, inside.2⟩

/-- The authority that is written, where every slash a browser passes over is a backslash. -/
theorem written_reads
    (reads : BrowserReads ('/' :: '/' :: rest.rdropWhile strips) slashes info host tail)
    (backward : '/' ∉ (rest.rdropWhile strips).takeWhile isSlash) :
    ∃ more,
      written rest = (rest.rdropWhile strips).takeWhile isSlash ++ (info ++ (host ++ more)) ∧
      ∀ c ∈ more.head?, Forbidden c := by
  have slashes_shape : slashes = '/' :: '/' :: (rest.rdropWhile strips).takeWhile isSlash :=
    reads.slashes
  have shape := reads.shape
  have slash : ∀ c ∈ (rest.rdropWhile strips).takeWhile isSlash, isSlash c = true := fun c member =>
    List.mem_takeWhile_imp member
  have cut := List.rdropWhile_append_rtakeWhile (p := strips) (l := rest)
  have controls : ∀ c ∈ rest.rtakeWhile strips, strips c = true := fun c member =>
    List.mem_rtakeWhile_imp member
  rw [slashes_shape, List.cons_append, List.cons_append] at shape
  have body := (List.cons.inj (List.cons.inj shape).2).2
  generalize (rest.rdropWhile strips).takeWhile isSlash = skipped at *
  generalize rest.rtakeWhile strips = dropped at cut controls
  have skipped_inside : ∀ c ∈ skipped, (!endsHost c) = true := by
    intro c member
    rw [backslash_of_isSlash (slash c member) fun same => backward (same ▸ member)]
    decide
  have authority_inside : ∀ c ∈ info ++ host, (!endsHost c) = true := by
    intro c member
    rw [endsHost_eq_false (reads.authority c member)]
    rfl
  refine ⟨(tail ++ dropped).takeWhile fun c => !endsHost c, ?_, ?_⟩
  · have whole : rest = skipped ++ ((info ++ host) ++ (tail ++ dropped)) := by
      rw [← cut, body]
      simp only [List.append_assoc]
    rw [written, whole, List.takeWhile_append_of_pos skipped_inside,
      List.takeWhile_append_of_pos authority_inside, List.append_assoc]
  · intro c member
    have inside := List.mem_takeWhile_imp (p := fun c => !endsHost c)
      (List.mem_of_head? (Option.mem_def.mp member))
    have first : c ∈ (tail ++ dropped).head? := by
      rw [List.head?_takeWhile] at member
      exact (Option.filter_eq_some_iff.mp member).1
    cases tail with
    | nil => exact Or.inr (Or.inr (controls c (List.mem_of_head? (Option.mem_def.mp first))))
    | cons d others =>
        obtain rfl : d = c := by simpa using first
        rcases reads.stops d rfl with colon | ends
        · exact Or.inr (Or.inl colon)
        · left
          simp only [endsHost, endsAuthority, Bool.not_eq_true', Bool.or_eq_false_iff,
            Bool.or_eq_true, decide_eq_true_eq, decide_eq_false_iff_not] at inside ends
          tauto

/-- Where a browser passes over a forward slash only backslashes are written. -/
theorem written_backslashes (forward : '/' ∈ (rest.rdropWhile strips).takeWhile isSlash) :
    ∀ c ∈ written rest, c = '\\' := by
  have slash : ∀ c ∈ (rest.rdropWhile strips).takeWhile isSlash, isSlash c = true := fun c member =>
    List.mem_takeWhile_imp member
  have cut := List.rdropWhile_append_rtakeWhile (p := strips) (l := rest)
  have parts := List.takeWhile_append_dropWhile (p := isSlash) (l := rest.rdropWhile strips)
  generalize (rest.rdropWhile strips).takeWhile isSlash = skipped at *
  obtain ⟨front, back, rfl⟩ := List.append_of_mem forward
  intro c member
  have whole : rest = front ++ '/' :: (back ++ ((rest.rdropWhile strips).dropWhile isSlash ++
      rest.rtakeWhile strips)) := by
    conv_lhs => rw [← cut, ← parts]
    simp
  have inside := List.mem_takeWhile_imp (p := fun c => !endsHost c) member
  have early : c ∈ front := by
    rw [written, whole, List.takeWhile_append] at member
    split at member
    · simpa [endsHost] using member
    · exact List.takeWhile_subset _ member
  apply backslash_of_isSlash (slash c (List.mem_append_left _ early))
  rintro rfl
  simp [endsHost] at inside

/-- The authority that is written names the host in it if and only if the text around leaves that
host to be shown. -/
theorem names_shown {skipped more all : Str} (backward : ∀ c ∈ skipped, c = '\\')
    (reads : BrowserReads all slashes info host tail) (first : ∀ c ∈ more.head?, Forbidden c)
    (clean : ∀ c ∈ name, ¬Forbidden c) :
    Names (shownText (skipped ++ (info ++ (host ++ more)))) name ↔
      LeavesHost ('/' :: '/' :: skipped ++ info) host more name := by
  rw [LeavesHost]
  split
  · rename_i again
    simp only [← List.append_assoc]
    exact names_again _ more name again
  · rename_i once
    have single : '@' ∉ host ++ more := by
      simp [reads.host.2.1, once]
    have direct := names_hostAndMore reads.host.2.2 first clean
    rcases reads.info with rfl | last
    · cases skipped with
      | nil =>
          have shown := shownText_after [] (host ++ more) single (Or.inl rfl)
          simp only [List.nil_append] at shown ⊢
          rw [shown, direct]
          simp
      | cons c others =>
          obtain rfl := backward c (by simp)
          have blank : '@' ∉ others := fun member => absurd (backward '@' (by simp [member]))
            (by decide)
          apply iff_of_false
          · exact not_names_backslash (by simpa [blank] using single) clean
          · rintro ⟨none_ | some_, -⟩
            · exact none_ (by simp)
            · simp [blank] at some_
    · have shown := shownText_after (skipped ++ info) (host ++ more) single
        (Or.inr (by rw [List.getLast?_append, last]; rfl))
      have has : '@' ∈ '/' :: '/' :: skipped ++ info :=
        List.mem_append_right _ (List.mem_of_getLast? last)
      rw [← List.append_assoc, shown, direct]
      simp only [has, or_true, true_and]

/-- What is shown for a link names the host a browser reads if and only if the text around that host
leaves it to be shown. -/
theorem names_iff_leaves
    (reads : BrowserReads ('/' :: '/' :: rest.rdropWhile strips) slashes info host tail)
    (shows_ : ¬ShowsNothing rest) (clean : ∀ c ∈ name, ¬Forbidden c) :
    Names (shownText (written rest)) name ↔
      ∃ more, '/' :: '/' :: written rest = (slashes ++ info) ++ (host ++ more) ∧
        LeavesHost (slashes ++ info) host more name := by
  have slashes_shape : slashes = '/' :: '/' :: (rest.rdropWhile strips).takeWhile isSlash :=
    reads.slashes
  by_cases forward : '/' ∈ (rest.rdropWhile strips).takeWhile isSlash
  · have back := written_backslashes forward
    apply iff_of_false
    · cases shape : written rest with
      | nil => exact absurd (Or.inl shape) shows_
      | cons c others =>
          obtain rfl := back c (by simp [shape])
          exact not_names_backslash
            (fun member => absurd (back '@' (by simp [shape, member])) (by decide)) clean
    · rintro ⟨more, equal, -⟩
      rw [slashes_shape, List.append_assoc, List.cons_append, List.cons_append] at equal
      have body := (List.cons.inj (List.cons.inj equal).2).2
      have member : '/' ∈ written rest := by
        rw [body]
        exact List.mem_append_left _ forward
      exact absurd (back '/' member) (by decide)
  · obtain ⟨more, shape, first⟩ := written_reads reads forward
    have backward : ∀ c ∈ (rest.rdropWhile strips).takeWhile isSlash, c = '\\' := fun c member =>
      backslash_of_isSlash (List.mem_takeWhile_imp (p := isSlash) member) fun same =>
        forward (same ▸ member)
    generalize (rest.rdropWhile strips).takeWhile isSlash = skipped at *
    have cancel : (∃ more, '/' :: '/' :: written rest = (slashes ++ info) ++ (host ++ more) ∧
        LeavesHost (slashes ++ info) host more name) ↔
        LeavesHost (slashes ++ info) host more name := by
      constructor
      · rintro ⟨other, equal, leaves⟩
        rw [shape, slashes_shape] at equal
        simp only [List.cons_append, List.append_assoc, List.cons.injEq, true_and,
          List.append_cancel_left_eq] at equal
        rwa [equal]
      · intro leaves
        refine ⟨more, ?_, leaves⟩
        rw [shape, slashes_shape]
        simp
    rw [cancel, shape, slashes_shape]
    exact names_shown backward reads first clean

end Read

end Hint

section Links

variable (parseHost : Str → Option Str) (url : Str)

def afterScheme (url : Str) : Str := ((stripPrefix https url).or (stripPrefix http url)).getD []

/-- The host shown for a link is the one a browser visits, if it visits any. -/
def HintHolds : Prop :=
  ∀ shown host, hostOf url = some shown → browserHost parseHost url = some host →
    SameHost shown host

/-- A browser visits a host whenever one is shown, and it is the one shown. -/
def HintVisited : Prop :=
  ∀ shown, hostOf url = some shown →
    ∃ host, browserHost parseHost url = some host ∧ SameHost shown host

/-- Nothing is shown for a link, or the text around the host a browser reads leaves it to be shown. -/
def HintRight : Prop :=
  ShowsNothing (afterScheme url) ∨ ∀ front host name,
    (browserRest url).bind browserParts = some (front, host) → parseHost host = some name →
      ∃ more, '/' :: '/' :: written (afterScheme url) = front ++ (host ++ more) ∧
        LeavesHost front host more name

theorem sameHost_lower (text host : Str) : SameHost (asciiLower text) host ↔ SameHost text host := by
  simp only [SameHost, asciiLower_asciiLower]

theorem hintHolds_iff (clean : ∀ text host, parseHost text = some host → ∀ c ∈ host, ¬Forbidden c)
    {scheme rest : Str} (link : IsLink scheme rest) :
    HintHolds parseHost (scheme ++ rest) ↔ HintRight parseHost (scheme ++ rest) := by
  have after : afterScheme (scheme ++ rest) = rest := by
    rw [afterScheme, stripScheme_link link, Option.getD_some]
  have plain : '[' ∉ '/' :: '/' :: rest.rdropWhile strips := by
    simp only [List.mem_cons, not_or]
    refine ⟨by decide, by decide, fun member => ?_⟩
    have leading := List.rdropWhile_prefix strips rest
    have inside := link.2 '[' (leading.subset member)
    exact (urlChar_plain inside).2.2.2.1 rfl
  unfold HintHolds HintRight browserHost
  rw [hostOf_link link, after, browserRest_link link, Option.bind_some]
  by_cases shows_ : ShowsNothing rest
  · simp [shows_]
  · simp only [shows_, if_false, false_or, Option.some.injEq]
    constructor
    · intro holds front host name parts parsed
      obtain ⟨slashes, info, tail, rfl, reads⟩ := browserParts_reads plain parts
      apply (names_iff_leaves reads shows_ (clean host name parsed)).mp
      have same := holds _ name rfl (by rw [parts, Option.bind_some, parsed])
      exact (sameHost_lower _ name).mp same
    · rintro right shown name rfl visited
      obtain ⟨⟨front, host⟩, parts, parsed⟩ := Option.bind_eq_some_iff.mp visited
      obtain ⟨slashes, info, tail, rfl, reads⟩ := browserParts_reads plain parts
      have leaves := right _ host name parts parsed
      have names := (names_iff_leaves reads shows_ (clean host name parsed)).mpr leaves
      exact (sameHost_lower _ name).mpr names

/-- For every link that is found the host shown is the one a browser visits if and only if the text
around the host a browser reads leaves it to be shown; and a browser visits it if and only if, beyond
that, it accepts the address. The parser of hosts never gives a host with a backslash, a colon or a
control character. -/
theorem host_hint (clean : ∀ text host, parseHost text = some host → ∀ c ∈ host, ¬Forbidden c)
    (text : Str) (minLength : Nat) : ∀ url ∈ findLongUrls text minLength,
      (HintHolds parseHost url ↔ HintRight parseHost url) ∧
        (HintVisited parseHost url ↔ HintRight parseHost url ∧
          (ShowsNothing (afterScheme url) ∨ (browserHost parseHost url).isSome)) := by
  intro url member
  obtain ⟨scheme, rest, link, rfl⟩ := findLongUrls_link text minLength url member
  have holds := hintHolds_iff parseHost clean link
  refine ⟨holds, ?_⟩
  have after : afterScheme (scheme ++ rest) = rest := by
    rw [afterScheme, stripScheme_link link, Option.getD_some]
  have nothing : hostOf (scheme ++ rest) = none ↔ ShowsNothing rest := by
    rw [hostOf_link link]
    split <;> simp [*]
  rw [← holds, after, ← nothing]
  unfold HintVisited HintHolds
  constructor
  · intro visited
    constructor
    · intro shown host shows_ visits
      obtain ⟨other, same_host, same⟩ := visited shown shows_
      rw [visits] at same_host
      exact Option.some.inj same_host ▸ same
    · cases shows_ : hostOf (scheme ++ rest) with
      | none => exact Or.inl rfl
      | some shown =>
          obtain ⟨host, visits, -⟩ := visited shown shows_
          rw [visits]
          exact Or.inr rfl
  · rintro ⟨same, accepted⟩ shown shows_
    rcases accepted with none_ | some_
    · rw [none_] at shows_
      cases shows_
    · obtain ⟨host, visits⟩ := Option.isSome_iff_exists.mp some_
      exact ⟨host, visits, same shown host shows_ visits⟩

end Links

/-- The parser of hosts on a domain of ASCII letters, digits, hyphens and dots. -/
def plainHost (text : Str) : Option Str :=
  let host := asciiLower text
  if host.all fun c => ('a' ≤ c && c ≤ 'z') || c.isDigit || c = '-' || c = '.' then some host
  else none

theorem plainHost_clean (text host : Str) (parsed : plainHost text = some host) :
    ∀ c ∈ host, ¬Forbidden c := by
  unfold plainHost at parsed
  simp only at parsed
  split at parsed
  · rename_i plain
    cases parsed
    intro c member forbidden
    have allowed := List.all_eq_true.mp plain c member
    rcases forbidden with rfl | rfl | control
    · revert allowed
      decide
    · revert allowed
      decide
    · have small : c.toNat ≤ 32 := by simpa [strips] using control
      have value : c.toNat = c.val.toNat := rfl
      have letter : ('a' : Char).val.toNat = 97 := rfl
      simp only [Bool.or_eq_true, Bool.and_eq_true, decide_eq_true_eq, Char.isDigit, Char.le_def,
        UInt32.le_iff_toNat_le] at allowed
      rcases allowed with ((⟨least, -⟩ | digit) | rfl) | rfl
      · omega
      · have zero : ('0' : Char).val.toNat = 48 := rfl
        have least := digit.1
        omega
      · revert small
        decide
      · revert small
        decide
  · cases parsed

theorem host_hint_port : HintVisited plainHost "https://user@Example.com:8443/path".toList := by
  have found : "https://user@Example.com:8443/path".toList ∈
      findLongUrls "see https://user@Example.com:8443/path".toList 20 := by
    decide +kernel
  have parts : (browserRest "https://user@Example.com:8443/path".toList).bind browserParts =
      some ("//user@".toList, "Example.com".toList) := by
    decide +kernel
  apply (host_hint plainHost plainHost_clean _ 20 _ found).2.mpr
  refine ⟨Or.inr ?_, Or.inr (by decide +kernel)⟩
  intro front host name read parsed
  rw [parts] at read
  obtain ⟨rfl, rfl⟩ := Prod.mk.inj (Option.some.inj read)
  have plain : plainHost "Example.com".toList = some "example.com".toList := by decide +kernel
  rw [plain] at parsed
  obtain rfl := Option.some.inj parsed
  refine ⟨":8443".toList, by decide +kernel, ?_⟩
  rw [LeavesHost, if_neg (by decide +kernel)]
  exact ⟨Or.inl (by decide +kernel), Or.inr ⟨"8443".toList, by decide +kernel, by decide +kernel⟩,
    Or.inl (by decide +kernel)⟩

/-- Behind a backslash a browser reads no authority, but the host is shown from there. -/
theorem backslash_hint :
    ¬∀ url ∈ findLongUrls "https://evil.com\\@trusted.com/path".toList 20,
      HintHolds plainHost url := by
  intro holds
  have found : "https://evil.com\\@trusted.com/path".toList ∈
      findLongUrls "https://evil.com\\@trusted.com/path".toList 20 := by
    decide +kernel
  have same := holds _ found "trusted.com".toList "evil.com".toList (by decide +kernel)
    (by decide +kernel)
  revert same
  decide +kernel

end Repartee.Shrink
