import Repartee.Fields
import Repartee.Irc.ChannelModes

/-!
The numbers a listing of the bans prints, one reply at a time while the stored list changes, and
what such a number selects afterwards.
-/

namespace Repartee.ChannelModes

open Text Lib

def entriesOf (buf : Buffer) : List ListEntry := (buf.listModes.get? banKey).getD []

def masksOf (buf : Buffer) : List Str := (entriesOf buf).map ListEntry.mask

/-- The number the stored entry of a mask has after it was stored or refreshed. -/
def upsertIndex (buf : Buffer) (mask : Str) : Nat :=
  match (entriesOf buf).findIdx? fun entry => eqNocase entry.mask mask with
  | some position => position + 1
  | none => min ((entriesOf buf).length + 1) maxListModeEntries

/-- One reply of a listing: the list after it and the line that is printed, a number and a mask. -/
def receiveBanList (silent : Bool) (buf : Option Buffer) (args : List Str) :
    Option Buffer × Option (Nat × Str) :=
  match args with
  | _ :: _ :: mask :: more =>
      let setBy := more.head?.getD []
      let setAt := ((more[1]?.map parseI64).bind Except.toOption).getD 0
      let index := (buf.map fun buf => upsertIndex buf mask).getD 0
      (buf.map fun buf => upsertListModeEntry buf banKey mask setBy setAt,
        if silent then none else some (index, mask))
  | _ => (buf, none)

/-- The replies of a listing in turn. -/
def receiveListing (silent : Bool) : Option Buffer → List (List Str) →
    Option Buffer × List (Nat × Str)
  | buf, [] => (buf, [])
  | buf, args :: rest =>
      let received := receiveBanList silent buf args
      let later := receiveListing silent received.1 rest
      (later.1, received.2.toList ++ later.2)

def parseUsize : Str → Except Str Nat := parseUnsigned (2 ^ 64 - 1)

/-- The masks one argument of the command selects: a number, a pattern, or a mask as it is. -/
def selectMasks (isMatch : Str → Str → Bool) (entries : List ListEntry) (arg : Str) : List Str :=
  match parseUsize arg with
  | .ok num =>
      if 1 ≤ num ∧ num ≤ entries.length then (entries[num - 1]?.map ListEntry.mask).toList else []
  | .error _ =>
      if '*' ∈ arg ∨ '?' ∈ arg then
        (entries.filter fun entry => isMatch arg entry.mask).map ListEntry.mask
      else [arg]

section Masks

/-- What storing or refreshing a mask does to the masks of a list. -/
def upsertMask (masks : List Str) (mask : Str) : List Str :=
  if masks.any fun stored => eqNocase stored mask then masks
  else (masks ++ [mask]).drop (masks.length + 1 - maxListModeEntries)

/-- A list as it is kept: no mask twice, up to the case of ASCII letters, and no more than fit. -/
structure Kept (masks : List Str) : Prop where
  distinct : (masks.map asciiLower).Nodup
  bound : masks.length ≤ maxListModeEntries

variable {masks : List Str} {mask : Str}

theorem eqNocase_iff (a b : Str) : eqNocase a b = true ↔ asciiLower a = asciiLower b := by
  simp [eqNocase]

theorem any_eqNocase (masks : List Str) (mask : Str) :
    (masks.any fun stored => eqNocase stored mask) = true ↔
      asciiLower mask ∈ masks.map asciiLower := by
  simp only [List.any_eq_true, eqNocase_iff, List.mem_map]

theorem upsertMask_stored (stored : asciiLower mask ∈ masks.map asciiLower) :
    upsertMask masks mask = masks := if_pos ((any_eqNocase masks mask).mpr stored)

theorem upsertMask_fresh (fresh : asciiLower mask ∉ masks.map asciiLower) :
    upsertMask masks mask = (masks ++ [mask]).drop (masks.length + 1 - maxListModeEntries) :=
  if_neg fun stored => fresh ((any_eqNocase masks mask).mp stored)

theorem upsertMask_room (fresh : asciiLower mask ∉ masks.map asciiLower)
    (room : masks.length < maxListModeEntries) : upsertMask masks mask = masks ++ [mask] := by
  rw [upsertMask_fresh fresh, Nat.sub_eq_zero_of_le room, List.drop_zero]

theorem Kept.upsert (kept : Kept masks) (mask : Str) : Kept (upsertMask masks mask) := by
  by_cases stored : asciiLower mask ∈ masks.map asciiLower
  · rw [upsertMask_stored stored]
    exact kept
  · rw [upsertMask_fresh stored]
    constructor
    · rw [List.map_drop, List.map_append]
      apply List.Nodup.sublist (List.drop_sublist _ _)
      rw [List.nodup_append']
      exact ⟨kept.distinct, by simp, by simpa using stored⟩
    · rw [List.length_drop, List.length_append, List.length_singleton]
      omega

theorem Kept.filter (kept : Kept masks) (keep : Str → Bool) : Kept (masks.filter keep) where
  distinct := kept.distinct.sublist (List.filter_sublist.map asciiLower)
  bound := (List.length_filter_le _ _).trans kept.bound

/-- A mask that was just stored or refreshed is in the list, up to case, at its number. -/
theorem upsertMask_holds (kept : Kept masks) (mask : Str) :
    asciiLower mask ∈ (upsertMask masks mask).map asciiLower := by
  by_cases stored : asciiLower mask ∈ masks.map asciiLower
  · rwa [upsertMask_stored stored]
  · have positive : 0 < maxListModeEntries := by decide
    have bound := kept.bound
    have last : mask ∈ upsertMask masks mask := by
      rw [upsertMask_fresh stored, List.drop_append_of_le_length (by omega)]
      simp
    exact List.mem_map_of_mem last

end Masks

section Buffers

variable (buf : Buffer) (mask setBy : Str) (setAt : Int)

theorem any_masksOf : ((masksOf buf).any fun stored => eqNocase stored mask) =
    (entriesOf buf).any fun entry => eqNocase entry.mask mask := by
  rw [masksOf, List.any_map]
  rfl

/-- The entry that is refreshed keeps its mask. -/
theorem masksOf_refreshed
    (stored : ((entriesOf buf).any fun entry => eqNocase entry.mask mask) = true) :
    masksOf (upsertListModeEntry buf banKey mask setBy setAt) = masksOf buf := by
  have parts := List.takeWhile_append_dropWhile
    (p := fun entry : ListEntry => !eqNocase entry.mask mask) (l := entriesOf buf)
  unfold entriesOf at stored parts
  simp only [masksOf, entriesOf, upsertListModeEntry, Map.get?_insert, if_true, Option.getD_some,
    stored, List.span_eq_takeWhile_dropWhile]
  split
  · rename_i entry rest shape
    rw [shape] at parts
    conv_rhs => rw [← parts]
    simp
  · rename_i shape
    rw [shape, List.append_nil] at parts
    rw [parts]

theorem masksOf_upsert :
    masksOf (upsertListModeEntry buf banKey mask setBy setAt) = upsertMask (masksOf buf) mask := by
  rw [upsertMask, any_masksOf]
  split
  · rename_i stored
    exact masksOf_refreshed buf mask setBy setAt stored
  · rename_i fresh
    unfold entriesOf at fresh
    simp only [masksOf, entriesOf, upsertListModeEntry, Map.get?_insert, if_true, Option.getD_some,
      if_neg fresh, List.map_drop, List.map_append, List.map_singleton, List.length_append,
      List.length_singleton, List.length_map]

/-- The number a mask has in a list of masks after it was stored or refreshed. -/
def upsertNumber (masks : List Str) (mask : Str) : Nat :=
  match masks.findIdx? fun stored => eqNocase stored mask with
  | some position => position + 1
  | none => min (masks.length + 1) maxListModeEntries

theorem upsertIndex_eq : upsertIndex buf mask = upsertNumber (masksOf buf) mask := by
  rw [upsertIndex, upsertNumber, masksOf, List.findIdx?_map, List.length_map]
  rfl

/-- A line shows a number under which a list holds its mask, up to case. -/
def ShowsMask (masks : List Str) (line : Nat × Str) : Prop :=
  1 ≤ line.1 ∧ ∃ stored, masks[line.1 - 1]? = some stored ∧ asciiLower stored = asciiLower line.2

theorem upsertNumber_shows {masks : List Str} (kept : Kept masks) :
    ShowsMask (upsertMask masks mask) (upsertNumber masks mask, mask) := by
  unfold upsertNumber
  cases found : masks.findIdx? fun stored => eqNocase stored mask with
  | some position =>
      obtain ⟨inside, same, -⟩ := List.findIdx?_eq_some_iff_getElem.mp found
      have stored : asciiLower mask ∈ masks.map asciiLower := by
        rw [← (eqNocase_iff _ _).mp same]
        exact List.mem_map_of_mem (List.getElem_mem inside)
      rw [upsertMask_stored stored]
      exact ⟨by simp, _, List.getElem?_eq_getElem inside, (eqNocase_iff _ _).mp same⟩
  | none =>
      have fresh : asciiLower mask ∉ masks.map asciiLower := by
        rw [← any_eqNocase, List.any_eq_true]
        rintro ⟨stored, member, same⟩
        exact absurd (List.findIdx?_eq_none_iff.mp found stored member) (by simp [same])
      have bound := kept.bound
      have positive : 0 < maxListModeEntries := by decide
      rw [upsertMask_fresh fresh]
      refine ⟨by simp only; omega, mask, ?_, rfl⟩
      simp only [List.getElem?_drop]
      have place : masks.length + 1 - maxListModeEntries +
          (min (masks.length + 1) maxListModeEntries - 1) = masks.length := by
        omega
      rw [place, List.getElem?_concat_length]

theorem selectMasks_number (same isMatch : Str → Str → Bool) (entries : List ListEntry)
    (line : Nat × Str) (small : line.1 < 2 ^ 64) :
    (∃ picked, selectMasks isMatch entries (natText line.1) = [picked] ∧
        same picked line.2 = true) ↔
      1 ≤ line.1 ∧ ∃ stored, (entries.map ListEntry.mask)[line.1 - 1]? = some stored ∧
        same stored line.2 = true := by
  have parsed : parseUsize (natText line.1) = .ok line.1 :=
    parseUnsigned_natText (2 ^ 64 - 1) line.1 (by omega)
  simp only [selectMasks, parsed, List.getElem?_map]
  by_cases inside : 1 ≤ line.1 ∧ line.1 ≤ entries.length
  · have entry : entries[line.1 - 1]? = some entries[line.1 - 1] :=
      List.getElem?_eq_getElem (by omega)
    simp [inside, entry]
  · rw [if_neg inside]
    constructor
    · rintro ⟨picked, nothing, -⟩
      simp at nothing
    · rintro ⟨least, stored, held, -⟩
      obtain ⟨entry, held, -⟩ := Option.map_eq_some_iff.mp held
      obtain ⟨bound, -⟩ := List.getElem?_eq_some_iff.mp held
      exact absurd ⟨least, by omega⟩ inside

theorem upsertNumber_le {masks : List Str} (kept : Kept masks) :
    upsertNumber masks mask ≤ maxListModeEntries := by
  unfold upsertNumber
  cases found : masks.findIdx? fun stored => eqNocase stored mask with
  | some position =>
      obtain ⟨inside, -, -⟩ := List.findIdx?_eq_some_iff_getElem.mp found
      exact Nat.lt_of_lt_of_le inside kept.bound
  | none => exact Nat.min_le_right _ _

end Buffers

section Listing

/-- The lines a listing of these masks prints. -/
def printedLines : List Str → List Str → List (Nat × Str)
  | _, [] => []
  | masks, mask :: rest =>
      (upsertNumber masks mask, mask) :: printedLines (upsertMask masks mask) rest

def finalMasks (masks listed : List Str) : List Str := listed.foldl upsertMask masks

/-- What is stored and what is still to be listed fit the list together, up to case. -/
def RoomFor (masks listed : List Str) : Prop :=
  ((masks ++ listed).map asciiLower).toFinset.card ≤ maxListModeEntries

instance (masks listed : List Str) : Decidable (RoomFor masks listed) :=
  inferInstanceAs (Decidable (_ ≤ _))

variable {masks : List Str} {mask : Str} {rest : List Str}

theorem roomFor_stored (stored : asciiLower mask ∈ masks.map asciiLower) :
    RoomFor masks (mask :: rest) ↔ RoomFor masks rest := by
  unfold RoomFor
  have same : ((masks ++ mask :: rest).map asciiLower).toFinset =
      ((masks ++ rest).map asciiLower).toFinset := by
    ext text
    simp only [List.map_append, List.map_cons, List.mem_toFinset, List.mem_append, List.mem_cons]
    constructor
    · rintro (inside | rfl | inside)
      · exact Or.inl inside
      · exact Or.inl stored
      · exact Or.inr inside
    · rintro (inside | inside)
      · exact Or.inl inside
      · exact Or.inr (Or.inr inside)
  rw [same]

theorem roomFor_appended : RoomFor masks (mask :: rest) ↔ RoomFor (masks ++ [mask]) rest := by
  rw [RoomFor, RoomFor, List.append_assoc, List.singleton_append]

theorem Kept.fresh_nodup (kept : Kept masks) (fresh : asciiLower mask ∉ masks.map asciiLower) :
    ((masks ++ [mask]).map asciiLower).Nodup := by
  rw [List.map_append, List.nodup_append']
  exact ⟨kept.distinct, by simp, by simpa using fresh⟩

/-- Where there is room a new mask does not push another out. -/
theorem roomFor_fresh (kept : Kept masks) (fresh : asciiLower mask ∉ masks.map asciiLower)
    (room : RoomFor masks (mask :: rest)) : masks.length < maxListModeEntries := by
  have subset : ((masks ++ [mask]).map asciiLower).toFinset ⊆
      ((masks ++ mask :: rest).map asciiLower).toFinset := by
    intro text inside
    simp only [List.map_append, List.map_cons, List.mem_toFinset, List.mem_append, List.mem_cons,
      List.map_nil, List.not_mem_nil, or_false] at inside ⊢
    exact inside.imp_right Or.inl
  have size := Finset.card_le_card subset
  rw [List.toFinset_card_of_nodup (kept.fresh_nodup fresh), List.length_map, List.length_append,
    List.length_singleton] at size
  unfold RoomFor at room
  omega

/-- With room the list grows at its end only. -/
theorem upsertMask_grows (kept : Kept masks) (room : RoomFor masks (mask :: rest)) :
    (∃ more, upsertMask masks mask = masks ++ more) ∧ RoomFor (upsertMask masks mask) rest := by
  by_cases stored : asciiLower mask ∈ masks.map asciiLower
  · rw [upsertMask_stored stored]
    exact ⟨⟨[], by simp⟩, (roomFor_stored stored).mp room⟩
  · rw [upsertMask_room stored (roomFor_fresh kept stored room)]
    exact ⟨⟨[mask], rfl⟩, roomFor_appended.mp room⟩

theorem finalMasks_grows (listed : List Str) (kept : Kept masks) (room : RoomFor masks listed) :
    ∃ more, finalMasks masks listed = masks ++ more := by
  induction listed generalizing masks with
  | nil => exact ⟨[], by simp [finalMasks]⟩
  | cons mask rest ih =>
      obtain ⟨⟨more, grown⟩, later⟩ := upsertMask_grows kept room
      obtain ⟨others, final⟩ := ih (kept.upsert mask) later
      refine ⟨more ++ others, ?_⟩
      rw [← List.append_assoc, ← grown]
      exact final

theorem kept_finalMasks (listed : List Str) (kept : Kept masks) : Kept (finalMasks masks listed) := by
  induction listed generalizing masks with
  | nil => exact kept
  | cons mask rest ih => exact ih (kept.upsert mask)

theorem ShowsMask.grow {line : Nat × Str} (shows_ : ShowsMask masks line) (more : List Str) :
    ShowsMask (masks ++ more) line := by
  obtain ⟨least, stored, held, same⟩ := shows_
  obtain ⟨bound, -⟩ := List.getElem?_eq_some_iff.mp held
  exact ⟨least, stored, by rw [List.getElem?_append_left bound, held], same⟩

theorem printedLines_shown (listed : List Str) (kept : Kept masks) (room : RoomFor masks listed) :
    ∀ line ∈ printedLines masks listed, ShowsMask (finalMasks masks listed) line := by
  induction listed generalizing masks with
  | nil => simp [printedLines]
  | cons mask rest ih =>
      obtain ⟨-, later⟩ := upsertMask_grows kept room
      intro line member
      rcases List.mem_cons.mp member with rfl | member
      · obtain ⟨more, final⟩ := finalMasks_grows rest (kept.upsert mask) later
        have shown := (upsertNumber_shows mask kept).grow more
        rwa [← final] at shown
      · exact ih (kept.upsert mask) later line member

/-- A mask that pushes another out moves every line printed before it off its number. -/
theorem pushed_out (kept : Kept masks) (fresh : asciiLower mask ∉ masks.map asciiLower)
    (full : masks.length = maxListModeEntries) {line : Nat × Str} (shown : ShowsMask masks line) :
    ¬ShowsMask (upsertMask masks mask) line := by
  rintro ⟨-, other, other_held, other_same⟩
  obtain ⟨least, stored, held, same⟩ := shown
  obtain ⟨bound, stored_eq⟩ := List.getElem?_eq_some_iff.mp held
  have one : masks.length + 1 - maxListModeEntries = 1 := by omega
  rw [upsertMask_fresh fresh, one, List.getElem?_drop, Nat.add_sub_cancel' least] at other_held
  have here : (masks ++ [mask])[line.1 - 1]? = some stored := by
    rw [List.getElem?_append_left bound, held]
  have distinct := kept.fresh_nodup fresh
  have first : ((masks ++ [mask]).map asciiLower)[line.1 - 1]? = some (asciiLower line.2) := by
    rw [List.getElem?_map, here, Option.map_some, same]
  have second : ((masks ++ [mask]).map asciiLower)[line.1]? = some (asciiLower line.2) := by
    rw [List.getElem?_map, other_held, Option.map_some, other_same]
  obtain ⟨first_bound, -⟩ := List.getElem?_eq_some_iff.mp first
  have clash := (List.getElem?_inj first_bound distinct).mp (first.trans second.symm)
  omega

/-- Without room a line that was printed already ends up wrong, or one of the later ones. -/
theorem printedLines_wrong (listed : List Str) (kept : Kept masks) (room : ¬RoomFor masks listed)
    {line : Nat × Str} (shown : ShowsMask masks line) :
    ¬∀ other ∈ line :: printedLines masks listed, ShowsMask (finalMasks masks listed) other := by
  induction listed generalizing masks line with
  | nil =>
      apply absurd _ room
      unfold RoomFor
      rw [List.append_nil]
      apply (List.toFinset_card_le _).trans
      rw [List.length_map]
      exact kept.bound
  | cons mask rest ih =>
      intro all
      by_cases later : RoomFor (upsertMask masks mask) rest
      · have fresh : asciiLower mask ∉ masks.map asciiLower := by
          intro stored
          rw [upsertMask_stored stored] at later
          exact room ((roomFor_stored stored).mpr later)
        have full : masks.length = maxListModeEntries := by
          have bound := kept.bound
          by_contra less
          rw [upsertMask_room fresh (by omega)] at later
          exact room (roomFor_appended.mpr later)
        have length : (upsertMask masks mask).length = maxListModeEntries := by
          rw [upsertMask_fresh fresh, List.length_drop, List.length_append,
            List.length_singleton]
          omega
        obtain ⟨more, final⟩ := finalMasks_grows rest (kept.upsert mask) later
        have bound := (kept_finalMasks rest (kept.upsert mask)).bound
        have none_ : more = [] := by
          rw [final, List.length_append] at bound
          exact List.length_eq_zero_iff.mp (by omega)
        have still : finalMasks masks (mask :: rest) = upsertMask masks mask := by
          rw [none_, List.append_nil] at final
          exact final
        have wrong := all line (by simp)
        rw [still] at wrong
        exact pushed_out kept fresh full shown wrong
      · apply ih (kept.upsert mask) later (upsertNumber_shows mask kept)
        intro other member
        exact all other (List.mem_cons_of_mem line member)

theorem printedLines_small (listed : List Str) (kept : Kept masks) :
    ∀ line ∈ printedLines masks listed, line.1 ≤ maxListModeEntries := by
  induction listed generalizing masks with
  | nil => simp [printedLines]
  | cons mask rest ih =>
      intro line member
      rcases List.mem_cons.mp member with rfl | member
      · exact upsertNumber_le mask kept
      · exact ih (kept.upsert mask) line member

/-- Each mask of a listing is printed. -/
theorem printedLines_masks (masks listed : List Str) :
    (printedLines masks listed).map Prod.snd = listed := by
  induction listed generalizing masks with
  | nil => rfl
  | cons mask rest ih => rw [printedLines, List.map_cons, ih]

theorem mem_upsertMask {text : Str} (inside : text ∈ upsertMask masks mask) :
    text ∈ masks ∨ text = mask := by
  unfold upsertMask at inside
  split at inside
  · exact Or.inl inside
  · simpa using List.mem_of_mem_drop inside

theorem mem_finalMasks (listed : List Str) {text : Str} (inside : text ∈ finalMasks masks listed) :
    text ∈ masks ∨ text ∈ listed := by
  induction listed generalizing masks with
  | nil => exact Or.inl inside
  | cons mask rest ih =>
      rcases ih inside with early | late
      · exact (mem_upsertMask early).imp_right fun same => by simp [same]
      · exact Or.inr (List.mem_cons_of_mem mask late)

/-- A listing shows each of its masks at the number printed with it if and only if no later mask
pushes one out. -/
theorem printedLines_shown_iff (kept : Kept masks) :
    (∀ line ∈ printedLines masks (mask :: rest),
        ShowsMask (finalMasks masks (mask :: rest)) line) ↔ RoomFor (upsertMask masks mask) rest := by
  constructor
  · intro shown
    by_contra full
    exact printedLines_wrong rest (kept.upsert mask) full (upsertNumber_shows mask kept) shown
  · intro room line member
    rcases List.mem_cons.mp member with rfl | member
    · obtain ⟨more, final⟩ := finalMasks_grows rest (kept.upsert mask) room
      have shown := (upsertNumber_shows mask kept).grow more
      rwa [← final] at shown
    · exact printedLines_shown rest (kept.upsert mask) room line member

/-- A line shows a number under which a list holds its mask letter for letter. -/
def ShowsExactly (masks : List Str) (line : Nat × Str) : Prop :=
  1 ≤ line.1 ∧ masks[line.1 - 1]? = some line.2

/-- Masks that are listed are spelled as the stored ones and as one another. -/
def SpelledAlike (masks listed : List Str) : Prop :=
  ∀ stored ∈ masks ++ listed, ∀ printed ∈ listed,
    asciiLower stored = asciiLower printed → stored = printed

instance (masks listed : List Str) : Decidable (SpelledAlike masks listed) :=
  inferInstanceAs (Decidable (∀ stored ∈ _, ∀ printed ∈ _, _ → _))

theorem printedLines_exactly_iff (kept : Kept masks) :
    (∀ line ∈ printedLines masks (mask :: rest),
        ShowsExactly (finalMasks masks (mask :: rest)) line) ↔
      RoomFor (upsertMask masks mask) rest ∧
        SpelledAlike (upsertMask masks mask) (mask :: rest) := by
  have final_kept := kept_finalMasks (mask :: rest) kept
  constructor
  · intro exact_
    have room : RoomFor (upsertMask masks mask) rest := by
      apply (printedLines_shown_iff kept).mp
      intro line member
      obtain ⟨least, held⟩ := exact_ line member
      exact ⟨least, line.2, held, rfl⟩
    have listed_final : ∀ text ∈ mask :: rest, text ∈ finalMasks masks (mask :: rest) := by
      intro text member
      rw [← printedLines_masks masks (mask :: rest)] at member
      obtain ⟨line, printed, rfl⟩ := List.mem_map.mp member
      exact List.mem_of_getElem? (exact_ line printed).2
    refine ⟨room, ?_⟩
    intro stored stored_in printed printed_in same
    have stored_final : stored ∈ finalMasks masks (mask :: rest) := by
      rcases List.mem_append.mp stored_in with early | late
      · obtain ⟨more, final⟩ := finalMasks_grows rest (kept.upsert mask) room
        have grown : finalMasks masks (mask :: rest) = upsertMask masks mask ++ more := final
        rw [grown]
        exact List.mem_append_left more early
      · exact listed_final stored late
    exact List.inj_on_of_nodup_map final_kept.distinct stored_final
      (listed_final printed printed_in) same
  · rintro ⟨room, alike⟩ line member
    obtain ⟨least, stored, held, same⟩ := (printedLines_shown_iff kept).mpr room line member
    have stored_in : stored ∈ upsertMask masks mask ++ mask :: rest := by
      have inside : stored ∈ finalMasks (upsertMask masks mask) rest := List.mem_of_getElem? held
      rcases mem_finalMasks rest inside with early | late
      · exact List.mem_append_left _ early
      · exact List.mem_append_right _ (List.mem_cons_of_mem mask late)
    have printed_in : line.2 ∈ mask :: rest := by
      rw [← printedLines_masks masks (mask :: rest)]
      exact List.mem_map_of_mem member
    rw [alike stored stored_in line.2 printed_in same] at held
    exact ⟨least, held⟩

end Listing

section Replies

variable (silent : Bool)

/-- The masks of a listing; a reply without one is passed over. -/
def listedMasks (replies : List (List Str)) : List Str := replies.filterMap fun args => args[2]?

theorem reply_shape {args : List Str} {mask : Str} (holds : args[2]? = some mask) :
    ∃ me channel more, args = me :: channel :: mask :: more := by
  cases args with
  | nil => simp at holds
  | cons me args =>
      cases args with
      | nil => simp at holds
      | cons channel args =>
          cases args with
          | nil => simp at holds
          | cons third more =>
              obtain rfl : third = mask := by simpa using holds
              exact ⟨me, channel, more, rfl⟩

theorem receiveBanList_some (buf : Buffer) {args : List Str} {mask : Str}
    (holds : args[2]? = some mask) : ∃ next, masksOf next = upsertMask (masksOf buf) mask ∧
      receiveBanList silent (some buf) args =
        (some next, if silent then none else some (upsertNumber (masksOf buf) mask, mask)) := by
  obtain ⟨me, channel, more, rfl⟩ := reply_shape holds
  let setBy := more.head?.getD []
  let setAt := ((more[1]?.map parseI64).bind Except.toOption).getD 0
  have masks := masksOf_upsert buf mask setBy setAt
  refine ⟨upsertListModeEntry buf banKey mask setBy setAt, masks, ?_⟩
  simp only [receiveBanList, Option.map_some, Option.getD_some, upsertIndex_eq, setBy, setAt]

theorem receiveBanList_none {args : List Str} {mask : Str} (holds : args[2]? = some mask) :
    receiveBanList silent none args = (none, if silent then none else some (0, mask)) := by
  obtain ⟨me, channel, more, rfl⟩ := reply_shape holds
  rfl

theorem receiveBanList_short (buf : Option Buffer) (args : List Str) (short : args[2]? = none) :
    receiveBanList silent buf args = (buf, none) := by
  cases args with
  | nil => rfl
  | cons me args =>
      cases args with
      | nil => rfl
      | cons channel args =>
          cases args with
          | nil => rfl
          | cons third more => simp at short

theorem receiveListing_some (buf : Buffer) (replies : List (List Str)) :
    ∃ last, masksOf last = finalMasks (masksOf buf) (listedMasks replies) ∧
      receiveListing silent (some buf) replies =
        (some last, if silent then [] else printedLines (masksOf buf) (listedMasks replies)) := by
  induction replies generalizing buf with
  | nil => exact ⟨buf, rfl, by simp [receiveListing, listedMasks, printedLines]⟩
  | cons args rest ih =>
      cases holds : args[2]? with
      | none =>
          obtain ⟨last, masks, received⟩ := ih buf
          have listed : listedMasks (args :: rest) = listedMasks rest := by
            simp [listedMasks, holds]
          refine ⟨last, by rw [masks, listed], ?_⟩
          rw [receiveListing, receiveBanList_short silent _ args holds, received, listed]
          rfl
      | some mask =>
          obtain ⟨next, next_masks, first⟩ := receiveBanList_some silent buf holds
          obtain ⟨last, masks, received⟩ := ih next
          have listed : listedMasks (args :: rest) = mask :: listedMasks rest := by
            simp [listedMasks, holds]
          refine ⟨last, ?_, ?_⟩
          · rw [masks, next_masks, listed]
            rfl
          · rw [receiveListing, first, received, listed]
            cases silent <;> simp [printedLines, next_masks]

/-- Without a buffer every line has the number nought. -/
theorem receiveListing_none (replies : List (List Str)) :
    receiveListing silent none replies =
      (none, if silent then [] else (listedMasks replies).map fun mask => (0, mask)) := by
  induction replies with
  | nil => simp [receiveListing, listedMasks]
  | cons args rest ih =>
      cases holds : args[2]? with
      | none =>
          rw [receiveListing, receiveBanList_short silent _ args holds, ih]
          simp [listedMasks, holds]
      | some mask =>
          rw [receiveListing, receiveBanList_none silent holds, ih]
          cases silent <;> simp [listedMasks, holds]

end Replies

section Runs

/-- What happens to the bans of a channel: a reply of a listing, a change, a request for the
listing, and joining the channel anew. -/
inductive BanEvent
  | reply (args : List Str)
  | change (adding : Bool) (param : Option Str) (setBy : Str) (now : Int)
  | asked
  | joined

def banEvent (buf : Buffer) : BanEvent → Buffer
  | .reply args => (receiveBanList false (some buf) args).1.getD buf
  | .change adding param setBy now => changeBans buf adding param setBy now
  | .asked => { buf with listModes := buf.listModes.erase banKey }
  | .joined => { buf with listModes := Table.empty }

/-- A channel as it is after any events since it had no bans stored. -/
def Reached (buf : Buffer) : Prop :=
  ∃ start events, masksOf start = [] ∧ List.foldl banEvent start events = buf

theorem masksOf_remove (buf : Buffer) (mask : Str) :
    masksOf (removeListModeEntry buf banKey mask) =
      (masksOf buf).filter fun stored => !eqNocase stored mask := by
  unfold removeListModeEntry masksOf entriesOf
  cases stored : buf.listModes.get? banKey with
  | none => simp [stored]
  | some entries =>
      have masks : (entries.map ListEntry.mask).filter (fun stored => !eqNocase stored mask) =
          (entries.filter fun entry => !eqNocase entry.mask mask).map ListEntry.mask := by
        rw [List.filter_map]
        rfl
      simp only [Option.getD_some, masks]
      cases kept : entries.filter fun entry => !eqNocase entry.mask mask with
      | nil => simp [Map.get?_erase]
      | cons entry rest => simp [Map.get?_insert]

theorem kept_banEvent (buf : Buffer) (event : BanEvent) (kept : Kept (masksOf buf)) :
    Kept (masksOf (banEvent buf event)) := by
  have nothing : Kept ([] : List Str) := ⟨by simp, by simp⟩
  cases event with
  | reply args =>
      cases holds : args[2]? with
      | none =>
          rw [banEvent, receiveBanList_short false _ args holds]
          exact kept
      | some mask =>
          obtain ⟨next, masks, received⟩ := receiveBanList_some false buf holds
          rw [banEvent, received]
          simp only [Option.getD_some, masks]
          exact kept.upsert mask
  | change adding param setBy now =>
      cases param with
      | none => exact kept
      | some mask =>
          cases adding with
          | true =>
              simp only [banEvent, changeBans, if_true, masksOf_upsert]
              exact kept.upsert mask
          | false =>
              simp only [banEvent, changeBans, Bool.false_eq_true, if_false, masksOf_remove]
              exact kept.filter _
  | asked =>
      simp only [banEvent, masksOf, entriesOf, Map.get?_erase, if_true]
      exact nothing
  | joined =>
      simp only [banEvent, masksOf, entriesOf]
      exact nothing

/-- However replies and changes follow one another, no two masks that are stored are equal up to
the case of ASCII letters and no more are stored than the list may hold. -/
theorem kept_reached {buf : Buffer} (reached : Reached buf) : Kept (masksOf buf) := by
  obtain ⟨start, events, empty, rfl⟩ := reached
  have kept : Kept (masksOf start) := by
    rw [empty]
    exact ⟨by simp, by simp⟩
  clear empty
  induction events generalizing start with
  | nil => exact kept
  | cons event rest ih => exact ih (banEvent start event) (kept_banEvent start event kept)

end Runs

section Numbers

variable (isMatch : Str → Str → Bool) (silent : Bool) (channel : Option Buffer)
  (replies : List (List Str))

/-- Every number a listing printed selects, afterwards, the one mask that was printed with it. -/
def NumbersSelect (same : Str → Str → Bool) : Prop :=
  let received := receiveListing silent channel replies
  ∀ line ∈ received.2, ∃ picked,
    selectMasks isMatch ((received.1.map entriesOf).getD []) (natText line.1) = [picked] ∧
      same picked line.2 = true

/-- The first mask of a listing is stored; the others find room after it. -/
def NumbersHold : Option Buffer → List Str → Prop
  | _, [] => True
  | none, _ :: _ => False
  | some buf, first :: rest => RoomFor (upsertMask (masksOf buf) first) rest

def NumbersSpelled : Option Buffer → List Str → Prop
  | _, [] => True
  | none, _ :: _ => True
  | some buf, first :: rest => SpelledAlike (upsertMask (masksOf buf) first) (first :: rest)

theorem numbersSelect_silent (same : Str → Str → Bool) :
    NumbersSelect isMatch true channel replies same := by
  intro line member
  cases channel with
  | none => simp [receiveListing_none] at member
  | some buf =>
      obtain ⟨last, -, received⟩ := receiveListing_some true buf replies
      simp [received] at member

theorem numbersSelect_none (same : Str → Str → Bool) :
    NumbersSelect isMatch false none replies same ↔ listedMasks replies = [] := by
  simp only [NumbersSelect, receiveListing_none, Bool.false_eq_true, if_false]
  cases listedMasks replies with
  | nil => simp
  | cons mask rest =>
      constructor
      · intro select
        obtain ⟨picked, selected, -⟩ := select (0, mask) (by simp)
        have least := ((selectMasks_number (fun _ _ => true) isMatch [] (0, mask)
          (by simp)).mp ⟨picked, selected, rfl⟩).1
        exact absurd least (by simp)
      · simp

theorem numbersSelect_some (same : Str → Str → Bool) (buf : Buffer) (kept : Kept (masksOf buf)) :
    NumbersSelect isMatch false (some buf) replies same ↔
      ∀ line ∈ printedLines (masksOf buf) (listedMasks replies), 1 ≤ line.1 ∧
        ∃ stored, (finalMasks (masksOf buf) (listedMasks replies))[line.1 - 1]? = some stored ∧
          same stored line.2 = true := by
  obtain ⟨last, masks, received⟩ := receiveListing_some false buf replies
  rw [← masks]
  simp only [NumbersSelect, received, Bool.false_eq_true, if_false]
  apply forall₂_congr
  intro line member
  have small := printedLines_small (listedMasks replies) kept line member
  have bound : maxListModeEntries < 2 ^ 64 := by decide
  exact selectMasks_number same isMatch _ line (by omega)

/-- A number that was printed selects the mask printed with it, up to the case of ASCII letters, if
and only if the masks fit the list from the first of the listing on; letter for letter, if and only
if they are spelled alike as well. -/
theorem printed_numbers_select (reached : ∀ buf ∈ channel, Reached buf) :
    (NumbersSelect isMatch silent channel replies eqNocase ↔
        silent = true ∨ NumbersHold channel (listedMasks replies)) ∧
      (NumbersSelect isMatch silent channel replies (fun picked mask => decide (picked = mask)) ↔
        silent = true ∨ NumbersHold channel (listedMasks replies) ∧
          NumbersSpelled channel (listedMasks replies)) ∧
      ∀ buf ∈ channel, Kept (masksOf buf) := by
  have kept : ∀ buf ∈ channel, Kept (masksOf buf) := fun buf inside =>
    kept_reached (reached buf inside)
  refine ⟨?_, ?_, kept⟩
  · cases silent with
    | true => simp [numbersSelect_silent]
    | false =>
        cases channel with
        | none =>
            rw [numbersSelect_none]
            cases listedMasks replies <;> simp [NumbersHold]
        | some buf =>
            rw [numbersSelect_some isMatch replies eqNocase buf (kept buf rfl)]
            cases listedMasks replies with
            | nil => simp [printedLines, NumbersHold]
            | cons first rest =>
                have shown : _ ↔ RoomFor (upsertMask (masksOf buf) first) rest :=
                  printedLines_shown_iff (kept buf rfl)
                simpa [NumbersHold, ShowsMask, eqNocase_iff] using shown
  · cases silent with
    | true => simp [numbersSelect_silent]
    | false =>
        cases channel with
        | none =>
            rw [numbersSelect_none]
            cases listedMasks replies <;> simp [NumbersHold, NumbersSpelled]
        | some buf =>
            rw [numbersSelect_some isMatch replies _ buf (kept buf rfl)]
            cases listedMasks replies with
            | nil => simp [printedLines, NumbersHold, NumbersSpelled]
            | cons first rest =>
                have shown : _ ↔ RoomFor (upsertMask (masksOf buf) first) rest ∧
                    SpelledAlike (upsertMask (masksOf buf) first) (first :: rest) :=
                  printedLines_exactly_iff (kept buf rfl)
                simpa [NumbersHold, NumbersSpelled, ShowsExactly] using shown

end Numbers

/-- The ban of the host of a number. -/
def hostBan (n : Nat) : Str := "*!*@host".toList ++ natText n

def banReply (mask : Str) : List Str := ["me".toList, "#room".toList, mask]

/-- A channel just joined. -/
def joinedChannel : Buffer := ⟨Table.empty, none, none, Table.empty⟩

theorem reached_joinedChannel : Reached joinedChannel := ⟨joinedChannel, [], rfl, rfl⟩

theorem toAsciiLowercase_digit {c : Char} (digit : c.isDigit = true) : toAsciiLowercase c = c := by
  simp only [Char.isDigit, Bool.and_eq_true, decide_eq_true_eq, UInt32.le_iff_toNat_le] at digit
  apply if_neg
  rintro ⟨upper, -⟩
  rw [Char.le_def, UInt32.le_iff_toNat_le] at upper
  have apart : ('A' : Char).val.toNat = 65 ∧ ('9' : Char).val.toNat = 57 := by decide
  simp only [apart] at upper
  omega

theorem hostBan_lower (n : Nat) : asciiLower (hostBan n) = hostBan n := by
  have front : asciiLower "*!*@host".toList = "*!*@host".toList := by decide +kernel
  have digits : (natText n).map toAsciiLowercase = (natText n).map id :=
    List.map_congr_left fun c member => toAsciiLowercase_digit (natText_digits n c member)
  calc asciiLower (hostBan n)
      = asciiLower "*!*@host".toList ++ (natText n).map toAsciiLowercase := by
        unfold hostBan asciiLower
        exact List.map_append
    _ = hostBan n := by
        unfold hostBan
        rw [front, digits, List.map_id]

theorem hostBans_nodup (count : Nat) :
    (((List.range count).map hostBan).map asciiLower).Nodup := by
  have same : ((List.range count).map hostBan).map asciiLower = (List.range count).map hostBan := by
    rw [List.map_map]
    exact List.map_congr_left fun n _ => hostBan_lower n
  rw [same]
  apply List.Nodup.map _ List.nodup_range
  intro m n equal
  exact natText_injective (List.append_cancel_left equal)

theorem reached_joined : ∀ buf ∈ some joinedChannel, Reached buf := by
  intro buf inside
  cases inside
  exact reached_joinedChannel

theorem printed_numbers_select_threeReplies :
    NumbersSelect (fun _ _ => false) false (some joinedChannel)
      (["*!*@Host1", "*!*@host2", "*!*@host1"].map fun mask => banReply mask.toList) eqNocase := by
  have select := (printed_numbers_select (fun _ _ => false) false (some joinedChannel)
    (["*!*@Host1", "*!*@host2", "*!*@host1"].map fun mask => banReply mask.toList)
    reached_joined).1
  have room : RoomFor ["*!*@Host1".toList] ["*!*@host2".toList, "*!*@host1".toList] := by
    decide +kernel
  exact select.mpr (Or.inr room)

/-- After a listing of one ban more than fit, a number that was printed selects another mask. -/
theorem long_listing_misnumbered :
    ¬NumbersSelect (fun _ _ => false) false (some joinedChannel)
      (((List.range 501).map hostBan).map banReply) eqNocase := by
  have listed : listedMasks (((List.range 501).map hostBan).map banReply) =
      (List.range 501).map hostBan := by
    rw [listedMasks, List.filterMap_map]
    exact List.filterMap_some
  have shape : (List.range 501).map hostBan =
      hostBan 0 :: ((List.range 500).map Nat.succ).map hostBan := by
    rw [List.range_succ_eq_map, List.map_cons]
  have kept : Kept (masksOf joinedChannel) := kept_reached reached_joinedChannel
  rw [numbersSelect_some _ _ eqNocase joinedChannel kept, listed, shape]
  intro select
  have shown : ∀ line ∈ printedLines (masksOf joinedChannel)
      (hostBan 0 :: ((List.range 500).map Nat.succ).map hostBan),
      ShowsMask (finalMasks (masksOf joinedChannel)
        (hostBan 0 :: ((List.range 500).map Nat.succ).map hostBan)) line := by
    simpa [ShowsMask, eqNocase_iff] using select
  have room := (printedLines_shown_iff kept).mp shown
  have first : upsertMask (masksOf joinedChannel) (hostBan 0) = [hostBan 0] := by
    apply upsertMask_room
    · exact List.not_mem_nil
    · decide
  rw [first, RoomFor, List.singleton_append, ← shape,
    List.toFinset_card_of_nodup (hostBans_nodup 501)] at room
  simp [maxListModeEntries] at room

end Repartee.ChannelModes
