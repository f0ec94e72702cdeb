import Repartee.Theme.Visible

/-!
Stripping a text of its formatting, and where that leaves other text than what is shown. The codes
are ASCII, and all else is taken a character at a time.
-/

namespace Repartee.Irc

open Repartee.Text
open Repartee.Lib
open Repartee.Theme

/-! ### The scanner -/

def toggleCodes : Str := ['\x02', '\x1D', '\x1F', '\x1E', '\x16', '\x0F']

/-- Skips at most so many characters that have the property. -/
def dropUpTo (p : Nat → Bool) : Nat → Str → Str
  | 0, s => s
  | _ + 1, [] => []
  | n + 1, c :: rest => if p c.toNat then dropUpTo p n rest else c :: rest

/-- Skips an operand, and behind a comma a second one if it begins there. -/
def stripOperands (p : Nat → Bool) (n : Nat) (s : Str) : Str :=
  match dropUpTo p n s with
  | comma :: d :: rest =>
      if comma = ',' ∧ p d.toNat = true then dropUpTo p n (d :: rest) else comma :: d :: rest
  | short => short

def readStripped (c : Char) (rest : Str) : Str × Str :=
  if c ∈ toggleCodes then ([], rest)
  else if c = '\x03' then ([], stripOperands digitCode 2 rest)
  else if c = '\x04' then ([], stripOperands hexCode 6 rest)
  else ([c], rest)

def stripIrcFormatting (text : Str) : Str := (scan readStripped text).flatten

/-! ### What is shown -/

def readShown (c : Char) (rest : Str) : Str × Str :=
  if c = '\x03' then ([], skipOperands skipDigits rest)
  else if c = '\x04' then ([], skipOperands skipHex6 rest)
  else if c ∈ controlCodes then ([], rest)
  else ([c], rest)

def shownText (text : Str) : Str := (scan readShown text).flatten

theorem readShown_advances : Advancing readShown := by
  intro c rest
  unfold readShown
  split
  · exact skipOperands_le skipDigits_shorter rest
  · split
    · exact skipOperands_le skipHex6_shorter rest
    · split
      · exact le_rfl
      · exact le_rfl

theorem shownText_cons (c : Char) (rest : Str) :
    shownText (c :: rest) = (readShown c rest).1 ++ shownText (readShown c rest).2 := by
  rw [shownText, scan_cons readShown_advances, List.flatten_cons]
  rfl

@[simp] theorem doublePercent_nil : doublePercent [] = [] := rfl

theorem doublePercent_cons (c : Char) (rest : Str) (plain : c ≠ '%') :
    doublePercent (c :: rest) = c :: doublePercent rest := by
  simp [doublePercent, plain]

theorem doublePercent_percent (rest : Str) :
    doublePercent ('%' :: rest) = '%' :: '%' :: doublePercent rest := by
  simp [doublePercent]

/-- A property that the percent sign lacks reads the doubled text as it reads the text. -/
theorem double_run (p : Nat → Bool) (lacks : p 37 = false) (n : Nat) (s : Str) :
    ((n ≤ (doublePercent s).length ∧ ((doublePercent s).take n).all (fun c => p c.toNat) = true) ↔
        n ≤ s.length ∧ (s.take n).all (fun c => p c.toNat) = true) ∧
      (n ≤ s.length → (s.take n).all (fun c => p c.toNat) = true →
        (doublePercent s).drop n = doublePercent (s.drop n)) := by
  induction n generalizing s with
  | zero => simp
  | succ n ih =>
      cases s with
      | nil => simp
      | cons c rest =>
          by_cases percent : c = '%'
          · subst percent
            rw [doublePercent_percent]
            simp [lacks]
          · have later := ih rest
            rw [doublePercent_cons c rest percent]
            simp only [List.length_cons, List.take_succ_cons, List.all_cons, List.drop_succ_cons,
              Nat.add_le_add_iff_right, Bool.and_eq_true]
            constructor
            · constructor
              · rintro ⟨long, here, all⟩
                have back := later.1.mp ⟨long, all⟩
                exact ⟨back.1, here, back.2⟩
              · rintro ⟨long, here, all⟩
                have forth := later.1.mpr ⟨long, all⟩
                exact ⟨forth.1, here, forth.2⟩
            · rintro long ⟨_, all⟩
              exact later.2 long all

theorem skipHex6_double (s : Str) : skipHex6 (doublePercent s) = (skipHex6 s).map doublePercent := by
  have run := double_run hexCode (by decide) 6 s
  unfold skipHex6
  by_cases here : 6 ≤ s.length ∧ (s.take 6).all (fun c => hexCode c.toNat) = true
  · rw [if_pos here, if_pos (run.1.mpr here), run.2 here.1 here.2]
    rfl
  · rw [if_neg here, if_neg (mt run.1.mp here)]
    rfl

theorem skipDigits_double (s : Str) :
    skipDigits (doublePercent s) = (skipDigits s).map doublePercent := by
  have percent : digitCode 37 = false := by decide
  cases s with
  | nil => rfl
  | cons a rest =>
      by_cases first : a = '%'
      · subst first
        rw [doublePercent_percent]
        simp [skipDigits, percent]
      · rw [doublePercent_cons a rest first]
        by_cases digit : digitCode a.toNat = true
        · cases rest with
          | nil => simp [skipDigits, digit]
          | cons b more =>
              by_cases second : b = '%'
              · subst second
                rw [doublePercent_percent]
                simp [skipDigits, digit, percent, doublePercent_percent]
              · rw [doublePercent_cons b more second]
                by_cases digit' : digitCode b.toNat = true
                · simp [skipDigits, digit, digit']
                · simp [skipDigits, digit, digit', doublePercent_cons b more second]
        · simp [skipDigits, digit]

theorem skipOperands_double {operand : Str → Option Str}
    (same : ∀ s, operand (doublePercent s) = (operand s).map doublePercent) (s : Str) :
    skipOperands operand (doublePercent s) = doublePercent (skipOperands operand s) := by
  unfold skipOperands
  rw [same]
  cases operand s with
  | none => rfl
  | some after =>
      cases after with
      | nil => rfl
      | cons c more =>
          by_cases percent : c = '%'
          · subst percent
            simp [doublePercent_percent]
          · simp only [Option.map_some, doublePercent_cons c more percent]
            by_cases comma : c = ','
            · rw [if_pos comma, if_pos comma, same]
              cases operand more with
              | none => simp [doublePercent_cons c more percent]
              | some rest => rfl
            · rw [if_neg comma, if_neg comma, doublePercent_cons c more percent]

/-- Doubled, a text has no code but its control sequences: the parser shows it without them. -/
theorem double_clean (s : Str) :
    Clean (doublePercent s) ∧ visible (doublePercent s) = shownText s := by
  induction s using scan_induction readShown_advances with
  | nil => exact ⟨by simp [Clean], rfl⟩
  | round c rest ih =>
      by_cases percent : c = '%'
      · subst percent
        have code : codeAt '%' ('%' :: doublePercent rest) = some (['%'], doublePercent rest) := by
          simp [codeAt, formatCode]
        have front : cleanAt '%' ('%' :: doublePercent rest) = true := by
          simp [cleanAt, formatCode]
        have read : readShown '%' rest = (['%'], rest) := by
          simp [readShown, percent_not_control]
        rw [read] at ih
        rw [doublePercent_percent, clean_cons, visible_code code, shownText_cons, readVisible, code, read]
        exact ⟨⟨front, ih.1⟩, by rw [ih.2]⟩
      · have front : cleanAt c (doublePercent rest) = true := by simp [cleanAt, percent]
        rw [doublePercent_cons c rest percent, clean_cons, visible_cons, shownText_cons]
        have read : readVisible c (doublePercent rest) =
            ((readShown c rest).1, doublePercent (readShown c rest).2) := by
          unfold readVisible readShown codeAt
          rw [if_neg percent, skipOperands_double skipDigits_double, skipOperands_double skipHex6_double]
          split
          · rfl
          · split
            · rfl
            · split
              · rfl
              · rfl
        rw [read]
        exact ⟨⟨front, ih.1⟩, by rw [ih.2]⟩

/-- What is shown of a text is the text without its control sequences. -/
theorem parseIrcText_shown (text : Str) :
    ∃ spans, parseIrcText text = .ok spans ∧ spans.flatMap StyledSpan.text = shownText text := by
  have clean := double_clean text
  rcases (parse_faithful_iff (doublePercent text)).mpr clean.1 with ⟨spans, parsed, shown⟩
  exact ⟨spans, parsed, by rw [shown, clean.2]⟩

/-! ### Where the two agree -/

/-- How many of the first `n` characters have the property, before one that has not. -/
def front (p : Nat → Bool) : Nat → Str → Nat
  | 0, _ => 0
  | _ + 1, [] => 0
  | n + 1, c :: rest => if p c.toNat then front p n rest + 1 else 0

/-- No background without a foreground. -/
def ColorComplete (s : Str) : Prop := ∀ more, s = ',' :: more → front digitCode 2 more = 0

/-- Six digits or none, and behind a comma six again if there are any. -/
def HexComplete (s : Str) : Prop :=
  (front hexCode 6 s = 0 ∨ front hexCode 6 s = 6) ∧
    ∀ more, s.drop (front hexCode 6 s) = ',' :: more →
      front hexCode 6 more = 0 ∨ (front hexCode 6 s = 6 ∧ front hexCode 6 more = 6)

def agreeAt (c : Char) (rest : Str) : Prop :=
  c ≠ '\x11' ∧ (c = '\x03' → ColorComplete rest) ∧ (c = '\x04' → HexComplete rest)

/-- No monospace code, and every color code is complete. -/
def Agree : Str → Prop
  | [] => True
  | c :: rest => agreeAt c rest ∧ Agree rest

section Operands

variable {p : Nat → Bool} {n : Nat} {s : Str}

theorem dropUpTo_eq (p : Nat → Bool) (n : Nat) (s : Str) : dropUpTo p n s = s.drop (front p n s) := by
  induction n generalizing s with
  | zero => rfl
  | succ n ih =>
      cases s with
      | nil => rfl
      | cons c rest =>
          by_cases held : p c.toNat = true
          · simp [dropUpTo, front, held, ih]
          · simp [dropUpTo, front, held]

theorem front_le (p : Nat → Bool) (n : Nat) (s : Str) : front p n s ≤ n ∧ front p n s ≤ s.length := by
  induction n generalizing s with
  | zero => simp [front]
  | succ n ih =>
      cases s with
      | nil => simp [front]
      | cons c rest =>
          have later := ih rest
          simp only [front, List.length_cons]
          split
          · omega
          · omega

theorem front_all (p : Nat → Bool) (n : Nat) (s : Str) : ∀ c ∈ s.take (front p n s), p c.toNat = true := by
  induction n generalizing s with
  | zero => simp [front]
  | succ n ih =>
      cases s with
      | nil => simp
      | cons c rest =>
          by_cases held : p c.toNat = true
          · simpa [front, held] using ih rest
          · simp [front, held]

theorem front_full (p : Nat → Bool) (n : Nat) (s : Str) :
    front p n s = n ↔ n ≤ s.length ∧ (s.take n).all (fun c => p c.toNat) = true := by
  induction n generalizing s with
  | zero => simp [front]
  | succ n ih =>
      cases s with
      | nil => simp [front]
      | cons c rest =>
          by_cases held : p c.toNat = true
          · simpa [front, held] using ih rest
          · simp [front, held]

theorem skipHex6_eq (s : Str) : skipHex6 s = if front hexCode 6 s = 6 then some (s.drop 6) else none := by
  simp only [skipHex6, front_full]

theorem skipDigits_eq (s : Str) : skipDigits s =
    if front digitCode 2 s = 0 then none else some (s.drop (front digitCode 2 s)) := by
  cases s with
  | nil => rfl
  | cons a rest =>
      by_cases first : digitCode a.toNat = true
      · cases rest with
        | nil => simp [skipDigits, front, first]
        | cons b more =>
            by_cases second : digitCode b.toNat = true
            · simp [skipDigits, front, first, second]
            · simp [skipDigits, front, first, second]
      · simp [skipDigits, front, first]

theorem front_cons_pos (p : Nat → Bool) (n : Nat) (c : Char) (rest : Str) :
    front p (n + 1) (c :: rest) = 0 ↔ ¬p c.toNat = true := by
  by_cases held : p c.toNat = true
  · simp [front, held]
  · simp [front, held]

/-- What follows a second operand, if one begins behind a comma. -/
def afterSecond (p : Nat → Bool) (n : Nat) : Str → Str
  | [] => []
  | c :: more =>
      if c = ',' ∧ front p (n + 1) more ≠ 0 then more.drop (front p (n + 1) more) else c :: more

def secondTaken (p : Nat → Bool) (n : Nat) : Str → Str
  | [] => []
  | c :: more =>
      if c = ',' ∧ front p (n + 1) more ≠ 0 then c :: more.take (front p (n + 1) more) else []

theorem stripOperands_eq (p : Nat → Bool) (n : Nat) (s : Str) :
    stripOperands p (n + 1) s = afterSecond p n (s.drop (front p (n + 1) s)) := by
  unfold stripOperands
  rw [dropUpTo_eq]
  cases s.drop (front p (n + 1) s) with
  | nil => rfl
  | cons c more =>
      cases more with
      | nil => simp [afterSecond, front]
      | cons d rest =>
          have begins := front_cons_pos p n d rest
          by_cases comma : c = ',' ∧ p d.toNat = true
          · have some_ : front p (n + 1) (d :: rest) ≠ 0 := fun none_ => begins.mp none_ comma.2
            simp only [afterSecond, if_pos comma, if_pos (And.intro comma.1 some_), dropUpTo_eq]
          · have none_ : ¬(c = ',' ∧ front p (n + 1) (d :: rest) ≠ 0) := fun both =>
              comma ⟨both.1, not_not.mp (mt begins.mpr both.2)⟩
            simp only [afterSecond, if_neg comma, if_neg none_]

theorem secondTaken_append (p : Nat → Bool) (n : Nat) (s : Str) :
    secondTaken p n s ++ afterSecond p n s = s := by
  cases s with
  | nil => rfl
  | cons c more =>
      by_cases second : c = ',' ∧ front p (n + 1) more ≠ 0
      · simp [secondTaken, afterSecond, second]
      · simp only [secondTaken, afterSecond, if_neg second, List.nil_append]

theorem secondTaken_eq_nil (p : Nat → Bool) (n : Nat) (s : Str) :
    secondTaken p n s = [] ↔ ∀ more, s = ',' :: more → front p (n + 1) more = 0 := by
  cases s with
  | nil => simp [secondTaken]
  | cons c more =>
      by_cases second : c = ',' ∧ front p (n + 1) more ≠ 0
      · rw [secondTaken, if_pos second]
        constructor
        · intro none_
          cases none_
        · intro all
          exact absurd (all more (by rw [second.1])) second.2
      · rw [secondTaken, if_neg second]
        constructor
        · intro _ rest shape
          rw [List.cons.injEq] at shape
          by_contra some_
          exact second ⟨shape.1, shape.2 ▸ some_⟩
        · intro _
          rfl

/-- No control character is among them. -/
def Plain (s : Str) : Prop := ∀ c ∈ s, c ∉ controlCodes

theorem Plain.append {s t : Str} (first : Plain s) (second : Plain t) : Plain (s ++ t) := by
  intro c member
  rcases List.mem_append.mp member with here | there
  · exact first c here
  · exact second c there

/-- Digits are no control characters. -/
theorem plain_of_all (above : ∀ m, p m = true → 0x20 ≤ m) (s : Str)
    (all : ∀ c ∈ s, p c.toNat = true) : Plain s := by
  intro c member control
  have high := above c.toNat (all c member)
  simp only [controlCodes, List.mem_cons, List.not_mem_nil, or_false] at control
  rcases control with rfl | rfl | rfl | rfl | rfl | rfl | rfl | rfl | rfl
  all_goals exact absurd high (by decide)

theorem digitCode_above (m : Nat) (digit : digitCode m = true) : 0x20 ≤ m := by
  simp only [digitCode, decide_eq_true_eq] at digit
  omega

theorem hexCode_above (m : Nat) (hex : hexCode m = true) : 0x20 ≤ m := by
  simp only [hexCode, decide_eq_true_eq] at hex
  omega

theorem secondTaken_plain (above : ∀ m, p m = true → 0x20 ≤ m) (n : Nat) (s : Str) :
    Plain (secondTaken p n s) := by
  cases s with
  | nil => simp [secondTaken, Plain]
  | cons c more =>
      by_cases second : c = ',' ∧ front p (n + 1) more ≠ 0
      · rw [secondTaken, if_pos second, second.1]
        have comma : Plain [','] := by
          intro c member control
          rw [List.mem_singleton.mp member] at control
          revert control
          decide
        exact comma.append (plain_of_all above _ (front_all p (n + 1) more))
      · rw [secondTaken, if_neg second]
        simp [Plain]

/-- The operands that are skipped are plain. -/
theorem stripOperands_taken (above : ∀ m, p m = true → 0x20 ≤ m) (n : Nat) (s : Str) :
    s = (s.take (front p (n + 1) s) ++ secondTaken p n (s.drop (front p (n + 1) s))) ++
        stripOperands p (n + 1) s ∧
      Plain (s.take (front p (n + 1) s) ++ secondTaken p n (s.drop (front p (n + 1) s))) := by
  constructor
  · rw [stripOperands_eq, List.append_assoc, secondTaken_append, List.take_append_drop]
  · exact (plain_of_all above _ (front_all p (n + 1) s)).append (secondTaken_plain above n _)

/-- What is shown of a color code's operands although it is stripped. -/
theorem color_extra (s : Str) : ∃ extra,
    skipOperands skipDigits s = extra ++ stripOperands digitCode 2 s ∧ Plain extra ∧
      (extra = [] ↔ ColorComplete s) := by
  by_cases none_ : front digitCode 2 s = 0
  · have skipped : skipOperands skipDigits s = s := by
      rw [skipOperands, skipDigits_eq, if_pos none_]
    refine ⟨secondTaken digitCode 1 s, ?_, secondTaken_plain digitCode_above 1 s, ?_⟩
    · rw [skipped, stripOperands_eq, none_, List.drop_zero, secondTaken_append]
    · exact secondTaken_eq_nil digitCode 1 s
  · refine ⟨[], ?_, by simp [Plain], ?_⟩
    · rw [stripOperands_eq, skipOperands, skipDigits_eq, if_neg none_, List.nil_append]
      cases s.drop (front digitCode 2 s) with
      | nil => rfl
      | cons c more =>
          by_cases comma : c = ','
          · by_cases empty_ : front digitCode 2 more = 0
            · simp [afterSecond, comma, skipDigits_eq, empty_]
            · simp [afterSecond, comma, skipDigits_eq, empty_]
          · simp [afterSecond, comma]
    · refine iff_of_true rfl ?_
      intro more shape
      rw [shape] at none_
      exact absurd (by simp [front, digitCode]) none_

theorem hex_extra (s : Str) : ∃ extra,
    skipOperands skipHex6 s = extra ++ stripOperands hexCode 6 s ∧ Plain extra ∧
      (extra = [] ↔ HexComplete s) := by
  by_cases full : front hexCode 6 s = 6
  · by_cases both : ∃ more, s.drop 6 = ',' :: more ∧ front hexCode 6 more = 6
    · rcases both with ⟨more, shape, full'⟩
      refine ⟨[], ?_, by simp [Plain], ?_⟩
      · rw [stripOperands_eq, skipOperands, skipHex6_eq, if_pos full, full, List.nil_append]
        simp [shape, afterSecond, skipHex6_eq, full']
      · refine iff_of_true rfl ⟨Or.inr full, ?_⟩
        intro rest shape'
        rw [full, shape, List.cons.injEq] at shape'
        exact Or.inr ⟨full, shape'.2 ▸ full'⟩
    · refine ⟨secondTaken hexCode 5 (s.drop 6), ?_, secondTaken_plain hexCode_above 5 _, ?_⟩
      · have skipped : skipOperands skipHex6 s = s.drop 6 := by
          rw [skipOperands, skipHex6_eq, if_pos full]
          cases shape : s.drop 6 with
          | nil => rfl
          | cons c more =>
              by_cases comma : c = ','
              · have short : front hexCode 6 more ≠ 6 := fun full' =>
                  both ⟨more, by rw [shape, comma], full'⟩
                simp [comma, skipHex6_eq, short]
              · simp [comma]
        rw [skipped, stripOperands_eq, full, secondTaken_append]
      · rw [secondTaken_eq_nil, HexComplete, full]
        constructor
        · intro all
          exact ⟨Or.inr rfl, fun more shape => Or.inl (all more shape)⟩
        · rintro ⟨_, all⟩ more shape
          exact (all more shape).resolve_right fun pair => both ⟨more, shape, pair.2⟩
  · have skipped : skipOperands skipHex6 s = s := by
      rw [skipOperands, skipHex6_eq, if_neg full]
    have taken := stripOperands_taken hexCode_above 5 s
    refine ⟨_, skipped.trans taken.1, taken.2, ?_⟩
    rw [List.append_eq_nil_iff, secondTaken_eq_nil, HexComplete]
    have short := front_le hexCode 6 s
    have nothing : s.take (front hexCode 6 s) = [] ↔ front hexCode 6 s = 0 := by
      rw [← List.length_eq_zero_iff, List.length_take]
      omega
    rw [nothing]
    constructor
    · rintro ⟨zero, all⟩
      exact ⟨Or.inl zero, fun more shape => Or.inl (all more shape)⟩
    · rintro ⟨either, all⟩
      refine ⟨either.resolve_right full, ?_⟩
      intro more shape
      exact (all more shape).resolve_right fun pair => full pair.1

end Operands

section Compare

/-- What a round skips is plain. -/
theorem readStripped_dropped (c : Char) (rest : Str) :
    ∃ dropped, rest = dropped ++ (readStripped c rest).2 ∧ Plain dropped := by
  have none_ : ∃ dropped, rest = dropped ++ rest ∧ Plain dropped := ⟨[], rfl, by simp [Plain]⟩
  unfold readStripped
  split
  · exact none_
  · split
    · exact ⟨_, stripOperands_taken digitCode_above 1 rest⟩
    · split
      · exact ⟨_, stripOperands_taken hexCode_above 5 rest⟩
      · exact none_

theorem readStripped_advances : Advancing readStripped := by
  intro c rest
  rcases readStripped_dropped c rest with ⟨dropped, whole, _⟩
  calc
    (readStripped c rest).2.length ≤ dropped.length + (readStripped c rest).2.length := by omega
    _ = rest.length := by
      conv_rhs => rw [whole]
      rw [List.length_append]

theorem strip_cons (c : Char) (rest : Str) : stripIrcFormatting (c :: rest) =
    (readStripped c rest).1 ++ stripIrcFormatting (readStripped c rest).2 := by
  rw [stripIrcFormatting, scan_cons readStripped_advances, List.flatten_cons]
  rfl

theorem agree_plain (plain s : Str) (clean : Plain plain) : Agree (plain ++ s) ↔ Agree s := by
  induction plain with
  | nil => rfl
  | cons c rest ih =>
      have away (d : Char) (control : d ∈ controlCodes) : c ≠ d := by
        rintro rfl
        exact clean c List.mem_cons_self control
      have front : agreeAt c (rest ++ s) := by
        refine ⟨away '\x11' (by decide), ?_, ?_⟩
        · intro color
          exact absurd color (away '\x03' (by decide))
        · intro hex
          exact absurd hex (away '\x04' (by decide))
      rw [List.cons_append, Agree, ih fun d member => clean d (List.mem_cons_of_mem c member)]
      exact and_iff_right front

theorem agree_cons (c : Char) (rest : Str) :
    Agree (c :: rest) ↔ agreeAt c rest ∧ Agree (readStripped c rest).2 := by
  rcases readStripped_dropped c rest with ⟨dropped, whole, plain⟩
  have later : Agree rest ↔ Agree (readStripped c rest).2 := by
    conv_lhs => rw [whole]
    exact agree_plain dropped _ plain
  rw [Agree, later]

theorem shownText_plain (plain s : Str) (clean : Plain plain) :
    shownText (plain ++ s) = plain ++ shownText s := by
  induction plain with
  | nil => rfl
  | cons c rest ih =>
      have other := clean c List.mem_cons_self
      have away (d : Char) (control : d ∈ controlCodes) : c ≠ d := by
        rintro rfl
        exact other control
      have read : readShown c (rest ++ s) = ([c], rest ++ s) := by
        rw [readShown, if_neg (away '\x03' (by decide)), if_neg (away '\x04' (by decide)),
          if_neg other]
      rw [List.cons_append, shownText_cons, read, ih fun d member =>
        clean d (List.mem_cons_of_mem c member)]
      rfl

/-- One round of each: what is shown is what is stripped with some of the operands in front, none
exactly when the code is complete. -/
theorem round_compare (c : Char) (rest : Str) (shown : c ≠ '\x11') :
    ∃ extra, (readShown c rest).1 = (readStripped c rest).1 ∧
      (readShown c rest).2 = extra ++ (readStripped c rest).2 ∧ Plain extra ∧
        (extra = [] ↔ agreeAt c rest) := by
  by_cases color : c = '\x03'
  · subst color
    rcases color_extra rest with ⟨extra, same, plain, complete⟩
    refine ⟨extra, rfl, same, plain, complete.trans ?_⟩
    simp [agreeAt]
  · by_cases hex : c = '\x04'
    · subst hex
      rcases hex_extra rest with ⟨extra, same, plain, complete⟩
      refine ⟨extra, rfl, same, plain, complete.trans ?_⟩
      simp [agreeAt]
    · have complete : agreeAt c rest := by simp [agreeAt, shown, color, hex]
      have codes : c ∈ controlCodes ↔ c ∈ toggleCodes := by
        simp only [controlCodes, toggleCodes, List.mem_cons, List.not_mem_nil, or_false, color, hex,
          shown, false_or]
        tauto
      refine ⟨[], ?_, ?_, by simp [Plain], iff_of_true rfl complete⟩
      · simp only [readShown, readStripped, if_neg color, if_neg hex, codes]
      · simp only [readShown, readStripped, if_neg color, if_neg hex, codes, List.nil_append]

/-- Complete codes are stripped as they are shown. -/
theorem strip_of_agree (s : Str) (agree : Agree s) : stripIrcFormatting s = shownText s := by
  induction s using scan_induction readStripped_advances with
  | nil => rfl
  | round c rest ih =>
      have both := (agree_cons c rest).mp agree
      rcases round_compare c rest both.1.1 with ⟨extra, kept, left_, _, complete⟩
      rw [complete.mpr both.1, List.nil_append] at left_
      rw [strip_cons, shownText_cons, kept, left_, ih both.2]

/-- Without monospace codes no more is shown than stripping leaves only where all codes are
complete. -/
theorem strip_shorter (s : Str) (shown : '\x11' ∉ s) :
    (stripIrcFormatting s).length ≤ (shownText s).length ∧
      (¬Agree s → (stripIrcFormatting s).length < (shownText s).length) := by
  induction s using scan_induction readStripped_advances with
  | nil => exact ⟨le_rfl, fun broken => absurd trivial broken⟩
  | round c rest ih =>
      rw [List.mem_cons, not_or] at shown
      rcases readStripped_dropped c rest with ⟨dropped, whole, _⟩
      have later := ih (by
        intro member
        rw [whole] at shown
        exact shown.2 (List.mem_append_right _ member))
      rcases round_compare c rest (Ne.symm shown.1) with ⟨extra, kept, left_, plain, complete⟩
      have size : (shownText (c :: rest)).length =
          (readStripped c rest).1.length + (extra.length + (shownText (readStripped c rest).2).length) := by
        rw [shownText_cons, kept, left_, shownText_plain extra _ plain, List.length_append,
          List.length_append]
      rw [size, strip_cons, List.length_append]
      constructor
      · have := later.1
        omega
      · intro broken
        rw [agree_cons, not_and_or] at broken
        rcases broken with here | there
        · have some_ := List.length_pos_iff.mpr (mt complete.mp here)
          have := later.1
          omega
        · have := later.2 there
          omega

/-- Stripping keeps a monospace code. -/
theorem monospace_kept (s : Str) (member : '\x11' ∈ s) : '\x11' ∈ stripIrcFormatting s := by
  induction s using scan_induction readStripped_advances with
  | nil => cases member
  | round c rest ih =>
      rw [strip_cons, List.mem_append]
      rcases List.mem_cons.mp member with here | there
      · left
        have kept : readStripped '\x11' rest = (['\x11'], rest) := by
          simp [readStripped, toggleCodes]
        rw [← here, kept]
        exact List.mem_singleton_self _
      · right
        rcases readStripped_dropped c rest with ⟨dropped, whole, plain⟩
        rw [whole] at there
        rcases List.mem_append.mp there with gone | still
        · exact absurd (by decide) (plain _ gone)
        · exact ih still

theorem strip_eq_shown (s : Str) : stripIrcFormatting s = shownText s ↔ Agree s := by
  constructor
  · intro same
    by_cases mono_ : '\x11' ∈ s
    · have kept := monospace_kept s mono_
      rw [same, ← (double_clean s).2] at kept
      exact absurd (by decide) (visible_unmarked _ _ kept)
    · by_contra broken
      have less := (strip_shorter s mono_).2 broken
      rw [same] at less
      omega
  · exact strip_of_agree s

end Compare

/-- Stripping leaves what is shown. -/
def StripsAsShown (text : Str) : Prop :=
  ∃ spans, parseIrcText text = .ok spans ∧ spans.flatMap StyledSpan.text = stripIrcFormatting text

/-- Stripping leaves what is shown exactly when the text has no monospace code and each of its color
codes is complete: a background only behind a foreground, and six hexadecimal digits or none. -/
theorem strip_shown_iff (text : Str) : StripsAsShown text ↔ Agree text := by
  rw [← strip_eq_shown]
  rcases parseIrcText_shown text with ⟨spans, parsed, shown⟩
  constructor
  · rintro ⟨other, parsed', stripped⟩
    rw [parsed, Except.ok.injEq] at parsed'
    rw [← stripped, ← parsed', shown]
  · intro same
    exact ⟨spans, parsed, by rw [shown, same]⟩

/-- A background without a foreground is shown, but stripped. -/
theorem background_stripped :
    stripIrcFormatting "\x03,5 points".toList = " points".toList ∧
      (parseIrcText "\x03,5 points".toList).toOption.map
        (fun spans => spans.flatMap StyledSpan.text) = some ",5 points".toList ∧
      ¬StripsAsShown "\x03,5 points".toList := by
  refine ⟨by decide +kernel, by decide +kernel, ?_⟩
  rw [strip_shown_iff]
  rintro ⟨⟨_, color, _⟩, _⟩
  exact absurd (color rfl "5 points".toList rfl) (by decide)

end Repartee.Irc
