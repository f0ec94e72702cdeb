import Repartee.Lib.Moves
import Repartee.Lib.Run
import Repartee.Text

/-!
How translation settings, saved under the nick they were made for, follow conversations whose peers
rename: the renames are recorded as moves and replayed whenever the settings are read again.
-/

namespace Repartee.Follows

open Repartee.Lib

variable {ν : Type}

/-- The part of the client that renames and settings touch: the saved settings, the ones in force,
the recorded moves, and the renames not recorded yet. -/
structure App (ν : Type) where
  configured : Map Str ν
  translateBuffers : Map Str ν
  translateFollows : List (Str × Str)
  pendingBufferRekeys : List (Str × Str)

/-- A query goes to another id, and the setting in force with it. -/
def App.rekeyBufferState (app : App ν) (oldId newId : Str) : App ν :=
  if oldId = newId then app
  else { app with
    translateBuffers := moveEntry app.translateBuffers (oldId, newId)
    pendingBufferRekeys := app.pendingBufferRekeys ++ [(oldId, newId)] }

/-- Points the first move to the old id at the new one. -/
def retarget (oldId newId : Str) : List (Str × Str) → Option (List (Str × Str))
  | [] => none
  | (saved, target) :: rest =>
      if target = oldId then some ((saved, newId) :: rest)
      else (retarget oldId newId rest).map fun later => (saved, target) :: later

/-- Whether a saved setting or a recorded move is about the id. -/
def translateGoverns (configured : Map Str ν) (follows : List (Str × Str)) (id : Str) : Bool :=
  (configured.get? id).isSome || follows.any fun move => move.2 = id

/-- The moves whose conversation has not lost its nick to the one that takes it now. -/
def stillValid (newId : Str) (follows : List (Str × Str)) : List (Str × Str) :=
  follows.filter fun move => move.2 ≠ newId

def recordTranslateFollow (follows : List (Str × Str)) (oldId newId : Str) : List (Str × Str) :=
  let kept := stillValid newId follows
  (retarget oldId newId kept).getD (kept ++ [(oldId, newId)])

def App.applyTranslateFollows (app : App ν) : App ν :=
  { app with translateBuffers := replay app.translateBuffers app.translateFollows }

def App.syncTranslateFromConfig (app : App ν) : App ν :=
  App.applyTranslateFollows { app with translateBuffers := app.configured }

/-- What one drained rename does to the moves. -/
def follow (configured : Map Str ν) (follows : List (Str × Str)) (rekey : Str × Str) :
    List (Str × Str) :=
  if translateGoverns configured follows rekey.1 then recordTranslateFollow follows rekey.1 rekey.2
  else follows

/-- Whether one of the renames is of a governed conversation. -/
def anyGoverned (configured : Map Str ν) : List (Str × Str) → List (Str × Str) → Bool
  | _, [] => false
  | follows, rekey :: rest => translateGoverns configured follows rekey.1 ||
      anyGoverned configured (follow configured follows rekey) rest

def App.drainPendingBufferRekeys (app : App ν) : App ν :=
  let drained := { app with
    translateFollows := app.pendingBufferRekeys.foldl (follow app.configured) app.translateFollows
    pendingBufferRekeys := [] }
  if anyGoverned app.configured app.translateFollows app.pendingBufferRekeys then
    drained.syncTranslateFromConfig
  else drained

/-! ### Conversations -/

/-- The setting of the conversation at each id. -/
abbrev Settings (ν : Type) : Type := Str → Option ν

/-- The conversation goes to another id and takes its setting along, or that it has none. -/
def Settings.move (settings : Settings ν) (oldId newId : Str) : Settings ν := fun id =>
  if id = newId then settings oldId else if id = oldId then none else settings id

inductive Op where
  | rename (oldId newId : Str)
  | drain
  | sync

/-- The client, with the settings as they moved with their conversations. -/
structure Session (ν : Type) where
  app : App ν
  settings : Settings ν

def Session.exec (s : Session ν) : Op → Session ν
  | .rename oldId newId =>
      ⟨s.app.rekeyBufferState oldId newId,
        if oldId = newId then s.settings else s.settings.move oldId newId⟩
  | .drain => { s with app := s.app.drainPendingBufferRekeys }
  | .sync => { s with app := s.app.syncTranslateFromConfig }

def Session.start (configured : Map Str ν) : Session ν :=
  ⟨⟨configured, configured, [], []⟩, configured.get?⟩

/-- The moves, with those of the renames that wait. -/
def App.eventual (app : App ν) : List (Str × Str) :=
  app.pendingBufferRekeys.foldl (follow app.configured) app.translateFollows

/-- Nobody's setting is at the id a conversation goes to, and if the conversation has one, the id is
not the saved nick of a conversation whose move stands behind its own. -/
def Allowed (s : Session ν) : Op → Prop
  | .rename oldId newId => oldId ≠ newId → s.settings newId = none ∧
      ((s.settings oldId).isSome = true →
        ∀ move ∈ stillValid newId s.app.eventual, move.2 = oldId →
          ∀ later ∈ behind (stillValid newId s.app.eventual) move.1, later.1 ≠ newId)
  | .drain => True
  | .sync => True

instance [DecidableEq ν] (s : Session ν) (op : Op) : Decidable (Allowed s op) :=
  match op with
  | .rename _ _ => inferInstanceAs (Decidable (_ → _ = _ ∧ (_ = _ → ∀ move ∈ _, _ = _ → ∀ later ∈ _, _ ≠ _)))
  | .drain => inferInstanceAs (Decidable True)
  | .sync => inferInstanceAs (Decidable True)

/-! ### One move -/

/-- The moves put every saved setting where its conversation is, and no two at one id. -/
structure Placed (configured : Map Str ν) (goes : Str → Str) (settings : Settings ν) : Prop where
  apart : ∀ f g, (configured.get? f).isSome = true → (configured.get? g).isSome = true →
    goes f = goes g → f = g
  there : ∀ id v, settings id = some v ↔ ∃ saved, configured.get? saved = some v ∧ goes saved = id

/-- What is true of the recorded moves: they are of saved settings, go to different ids, in an order
in which they can be replayed, and to a saved nick only once its own setting has moved. -/
structure Tidy (configured : Map Str ν) (follows : List (Str × Str)) : Prop where
  saved : ∀ move ∈ follows, (configured.get? move.1).isSome = true
  distinct : (follows.map Prod.snd).Nodup
  ordered : Ordered (fun id => (configured.get? id).isSome = true) follows
  vacated : ∀ move ∈ follows, (configured.get? move.2).isSome = true →
    (firstMove follows move.2).isSome = true

section Move

variable {configured : Map Str ν} {goes goes' : Str → Str} {settings : Settings ν}
  {oldId newId saved : Str}

/-- A conversation without a setting that goes where none is leaves all settings as they are. -/
theorem Settings.move_idle (noneOld : settings oldId = none) (noneNew : settings newId = none) :
    settings.move oldId newId = settings := by
  funext id
  by_cases here : id = newId
  · simp [Settings.move, here, noneOld, noneNew]
  · by_cases old : id = oldId
    · simp [Settings.move, old, noneOld]
    · simp [Settings.move, here, old]

theorem Placed.move (placed : Placed configured goes settings) (differ : oldId ≠ newId)
    (known : (configured.get? saved).isSome = true) (was : goes saved = oldId)
    (free : settings newId = none) (goesNew : goes' saved = newId)
    (others : ∀ other, other ≠ saved → goes' other = goes other) :
    Placed configured goes' (settings.move oldId newId) := by
  have unused (other : Str) (present : (configured.get? other).isSome = true) : goes other ≠ newId := by
    intro lands
    rcases Option.isSome_iff_exists.mp present with ⟨v, value⟩
    have shown := (placed.there newId v).mpr ⟨other, value, lands⟩
    rw [free] at shown
    cases shown
  have only (other : Str) (present : (configured.get? other).isSome = true)
      (lands : goes other = oldId) : other = saved :=
    placed.apart other saved present known (lands.trans was.symm)
  constructor
  · intro f g here there same
    by_cases sameF : f = saved
    · by_cases sameG : g = saved
      · rw [sameF, sameG]
      · rw [sameF, goesNew, others g sameG] at same
        exact absurd same.symm (unused g there)
    · by_cases sameG : g = saved
      · rw [sameG, goesNew, others f sameF] at same
        exact absurd same (unused f here)
      · apply placed.apart f g here there
        rwa [others f sameF, others g sameG] at same
  · intro id v
    constructor
    · intro shown
      by_cases new : id = newId
      · simp only [Settings.move, new, if_true] at shown
        rcases (placed.there oldId v).mp shown with ⟨other, value, lands⟩
        rw [only other (by simp [value]) lands] at value
        exact ⟨saved, value, goesNew.trans new.symm⟩
      · by_cases old : id = oldId
        · simp [Settings.move, old, differ] at shown
        · simp only [Settings.move, new, old, if_false] at shown
          rcases (placed.there id v).mp shown with ⟨other, value, lands⟩
          have differs : other ≠ saved := by
            intro same
            rw [same, was] at lands
            exact old lands.symm
          exact ⟨other, value, (others other differs).trans lands⟩
    · rintro ⟨other, value, lands⟩
      have present : (configured.get? other).isSome = true := by simp [value]
      by_cases same : other = saved
      · rw [same] at value lands
        have new : id = newId := lands.symm.trans goesNew
        simp only [Settings.move, new, if_true]
        exact (placed.there oldId v).mpr ⟨saved, value, was⟩
      · rw [others other same] at lands
        have new : id ≠ newId := by
          intro new
          exact unused other present (lands.trans new)
        have old : id ≠ oldId := by
          intro old
          exact same (only other present (lands.trans old))
        simp only [Settings.move, new, old, if_false]
        exact (placed.there id v).mpr ⟨other, value, lands⟩

/-- An id without a setting is one to which nothing goes. -/
theorem Placed.moved_of_free (placed : Placed configured goes settings) (free : settings newId = none)
    (known : (configured.get? saved).isSome = true) : goes saved ≠ newId := by
  intro lands
  rcases Option.isSome_iff_exists.mp known with ⟨v, value⟩
  have shown := (placed.there newId v).mpr ⟨saved, value, lands⟩
  rw [free] at shown
  cases shown

end Move

section Record

variable {configured : Map Str ν} {follows : List (Str × Str)} {settings : Settings ν}
  {oldId newId : Str}

/-- Nothing is at an id that no setting's first move goes to, and whose own setting has moved. -/
theorem Placed.none_at (placed : Placed configured (place follows) settings)
    (elsewhere : ∀ saved, firstMove follows saved ≠ some oldId)
    (left_ : (configured.get? oldId).isSome = true → (firstMove follows oldId).isSome = true) :
    settings oldId = none := by
  cases shown : settings oldId with
  | none => rfl
  | some v =>
      rcases (placed.there oldId v).mp shown with ⟨saved, value, lands⟩
      cases first : firstMove follows saved with
      | some t =>
          have goes : t = oldId := by simpa [place, first] using lands
          rw [goes] at first
          exact absurd first (elsewhere saved)
      | none =>
          have stays : saved = oldId := by simpa [place, first] using lands
          rw [stays] at value first
          have moved := left_ (by simp [value])
          simp [first] at moved

/-- Where nothing goes, moves to it are behind others of the same setting and do nothing. -/
theorem stillValid_spec (tidy : Tidy configured follows)
    (placed : Placed configured (place follows) settings) (free : settings newId = none) :
    Tidy configured (stillValid newId follows) ∧
      Placed configured (place (stillValid newId follows)) settings ∧
      ∀ move ∈ stillValid newId follows, move.2 ≠ newId := by
  have kept (saved : Str) (known : (configured.get? saved).isSome = true) :
      ∀ t, firstMove follows saved = some t → decide ((saved, t).2 ≠ newId) = true := by
    intro t first
    have lands : place follows saved = t := by simp [place, first]
    have other := placed.moved_of_free free known
    rw [lands] at other
    simpa using other
  have firsts (saved : Str) (known : (configured.get? saved).isSome = true) :
      firstMove (stillValid newId follows) saved = firstMove follows saved :=
    firstMove_filter follows saved _ (kept saved known)
  have places (saved : Str) (known : (configured.get? saved).isSome = true) :
      place (stillValid newId follows) saved = place follows saved := by
    simp [place, firsts saved known]
  have within (move : Str × Str) (member : move ∈ stillValid newId follows) :
      move ∈ follows ∧ move.2 ≠ newId := by
    simpa [stillValid] using member
  refine ⟨⟨?_, ?_, ?_, ?_⟩, ⟨?_, ?_⟩, fun move member => (within move member).2⟩
  · intro move member
    exact tidy.saved move (within move member).1
  · exact tidy.distinct.sublist (List.filter_sublist.map Prod.snd)
  · intro saved known move later
    rw [firsts saved known]
    apply tidy.ordered saved known
    rw [stillValid, behind_filter follows saved _ (kept saved known)] at later
    exact List.mem_of_mem_filter later
  · intro move member known
    rw [firsts _ known]
    exact tidy.vacated move (within move member).1 known
  · intro f g here there same
    rw [places f here, places g there] at same
    exact placed.apart f g here there same
  · intro id v
    rw [placed.there id v]
    apply exists_congr
    intro saved
    apply and_congr_right
    intro value
    rw [places saved (by simp [value])]

theorem retarget_eq_none (moves : List (Str × Str)) :
    retarget oldId newId moves = none ↔ ∀ move ∈ moves, move.2 ≠ oldId := by
  induction moves with
  | nil => simp [retarget]
  | cons move rest ih =>
      by_cases same : move.2 = oldId
      · simp [retarget, same]
      · simp [retarget, same, ih]

/-- Moves to the old id, turned to the new one. -/
def turnTo (oldId newId target : Str) : Str := if target = oldId then newId else target

def turnAll (oldId newId : Str) (moves : List (Str × Str)) : List (Str × Str) :=
  moves.map fun move => (move.1, turnTo oldId newId move.2)

/-- As the targets differ, turning the first move to the old id turns all of them. -/
theorem retarget_eq_turnAll (moves : List (Str × Str)) (distinct : (moves.map Prod.snd).Nodup)
    (some_ : ∃ move ∈ moves, move.2 = oldId) :
    retarget oldId newId moves = some (turnAll oldId newId moves) := by
  induction moves with
  | nil => simp at some_
  | cons move rest ih =>
      rw [List.map_cons, List.nodup_cons] at distinct
      by_cases same : move.2 = oldId
      · have others : turnAll oldId newId rest = rest := by
          conv_rhs => rw [← List.map_id rest]
          apply List.map_congr_left
          intro later member
          have other : later.2 ≠ oldId := by
            intro equal
            rw [same, ← equal] at distinct
            exact distinct.1 (List.mem_map_of_mem member)
          simp [turnTo, other]
        have whole : turnAll oldId newId (move :: rest) =
            (move.1, turnTo oldId newId move.2) :: turnAll oldId newId rest := rfl
        rw [whole, others]
        simp [retarget, turnTo, same]
      · have later := ih distinct.2 (by simpa [same] using some_)
        simp [retarget, turnAll, turnTo, same, later]

variable (tidy : Tidy configured follows) (placed : Placed configured (place follows) settings)
  (free : settings newId = none) (unused : ∀ move ∈ follows, move.2 ≠ newId) (differ : oldId ≠ newId)

include placed free

/-- Where no setting is, none stayed: one saved there has moved. -/
theorem firstMove_of_free (known : (configured.get? newId).isSome = true) :
    (firstMove follows newId).isSome = true := by
  by_cases first : (firstMove follows newId).isSome = true
  · exact first
  · have stays : place follows newId = newId := by
      simp only [Bool.not_eq_true, Option.isSome_eq_false_iff, Option.isNone_iff_eq_none] at first
      simp [place, first]
    exact absurd stays (placed.moved_of_free free known)

include tidy unused

theorem turnAll_tidy {saved : Str} (member : (saved, oldId) ∈ follows)
    (last : firstMove follows saved = some oldId → ∀ move ∈ behind follows saved, move.1 ≠ newId) :
    Tidy configured (turnAll oldId newId follows) := by
  have firsts (id : Str) := firstMove_map follows id (turnTo oldId newId)
  constructor
  · intro move here
    rcases List.mem_map.mp here with ⟨old, there, same⟩
    rw [← same]
    exact tidy.saved old there
  · rw [turnAll, List.map_map]
    apply List.Nodup.map_on _ tidy.distinct.of_map
    intro first here second there same
    apply List.inj_on_of_nodup_map tidy.distinct here there
    have newFirst := unused first here
    have newSecond := unused second there
    simp only [Function.comp_apply, turnTo] at same
    by_cases turnsFirst : first.2 = oldId
    · by_cases turnsSecond : second.2 = oldId
      · rw [turnsFirst, turnsSecond]
      · simp only [turnsFirst, turnsSecond, if_true, if_false] at same
        exact absurd same.symm newSecond
    · by_cases turnsSecond : second.2 = oldId
      · simp only [turnsFirst, turnsSecond, if_true, if_false] at same
        exact absurd same newFirst
      · simpa only [turnsFirst, turnsSecond, if_false] using same
  · intro id present move later
    rw [turnAll, behind_map] at later
    rcases List.mem_map.mp later with ⟨old, here, same⟩
    rw [turnAll, firsts, ← same]
    have order := tidy.ordered id present old here
    cases first : firstMove follows id with
    | none => simp
    | some t =>
        rw [first] at order
        by_cases turns : t = oldId
        · rw [turns] at first
          have mine : id = saved := by
            have pair := List.inj_on_of_nodup_map tidy.distinct (mem_of_firstMove first) member rfl
            exact congrArg Prod.fst pair
          rw [mine] at first here
          simpa [turnTo, turns] using Ne.symm (last first old here)
        · simpa [turnTo, turns] using order
  · intro move here present
    rw [turnAll, firsts, Option.isSome_map]
    rcases List.mem_map.mp here with ⟨old, there, same⟩
    rw [← same] at present ⊢
    by_cases turns : old.2 = oldId
    · simp only [turnTo, turns, if_true] at present ⊢
      exact firstMove_of_free placed free present
    · simp only [turnTo, turns, if_false] at present ⊢
      exact tidy.vacated old there present

include differ

omit unused in
theorem turnAll_placed {saved : Str} (member : (saved, oldId) ∈ follows) :
    Placed configured (place (turnAll oldId newId follows)) (settings.move oldId newId) := by
  have firsts (id : Str) : firstMove (turnAll oldId newId follows) id =
      (firstMove follows id).map (turnTo oldId newId) :=
    firstMove_map follows id (turnTo oldId newId)
  have known := tidy.saved _ member
  have mine (other : Str) (first : firstMove follows other = some oldId) : other = saved := by
    have pair := List.inj_on_of_nodup_map tidy.distinct (mem_of_firstMove first) member rfl
    exact congrArg Prod.fst pair
  have others (other : Str) (elsewhere : firstMove follows other ≠ some oldId) :
      place (turnAll oldId newId follows) other = place follows other := by
    cases first : firstMove follows other with
    | none => simp [place, firsts, first]
    | some t =>
        have stays : t ≠ oldId := by
          intro same
          rw [same] at first
          exact elsewhere first
        simp [place, firsts, first, turnTo, stays]
  by_cases real : firstMove follows saved = some oldId
  · apply placed.move differ known
    · simp [place, real]
    · exact free
    · simp [place, firsts, real, turnTo]
    · intro other differs
      apply others
      intro first
      exact differs (mine other first)
  · -- the move is not the one that the setting follows, so nothing is at the old id
    have elsewhere (other : Str) : firstMove follows other ≠ some oldId := by
      intro first
      rw [mine other first] at first
      exact real first
    have noneOld := placed.none_at elsewhere (tidy.vacated _ member)
    rw [Settings.move_idle noneOld free]
    have same : place (turnAll oldId newId follows) = place follows := by
      funext other
      exact others other (elsewhere other)
    rw [same]
    exact placed

omit differ in
/-- The conversation at the old id has not moved before: its move is added. -/
theorem concat_tidy (known : (configured.get? oldId).isSome = true)
    (first : ∀ move ∈ follows, move.2 ≠ oldId) : Tidy configured (follows ++ [(oldId, newId)]) := by
  constructor
  · intro move here
    rcases List.mem_append.mp here with old | new
    · exact tidy.saved move old
    · rw [List.mem_singleton.mp new]
      exact known
  · rw [List.map_append, List.nodup_append]
    refine ⟨tidy.distinct, by simp, ?_⟩
    intro target here other there same
    rcases List.mem_map.mp here with ⟨move, member, ends⟩
    rw [List.map_singleton, List.mem_singleton] at there
    exact unused move member (ends.trans (same.trans there))
  · intro id present move later
    rcases mem_behind_concat follows id later with ⟨moved, old | new⟩
    · have order := tidy.ordered id present move old
      rw [firstMove_concat, Option.or_of_isSome moved]
      exact order
    · rw [firstMove_concat, Option.or_of_isSome moved, new]
      intro same
      exact first _ (mem_of_firstMove same) rfl
  · intro move here present
    rw [firstMove_concat, Option.isSome_or, Bool.or_eq_true]
    left
    rcases List.mem_append.mp here with old | new
    · exact tidy.vacated move old present
    · rw [List.mem_singleton.mp new] at present ⊢
      exact firstMove_of_free placed free present

omit tidy unused in
theorem concat_placed (known : (configured.get? oldId).isSome = true)
    (first : ∀ move ∈ follows, move.2 ≠ oldId) :
    Placed configured (place (follows ++ [(oldId, newId)])) (settings.move oldId newId) := by
  have elsewhere (other : Str) : firstMove follows other ≠ some oldId := by
    intro goes
    exact first _ (mem_of_firstMove goes) rfl
  have others (other : Str) (differs : other ≠ oldId) :
      place (follows ++ [(oldId, newId)]) other = place follows other := by
    simp [place, firstMove_concat, Ne.symm differs]
  cases moved : firstMove follows oldId with
  | none =>
      apply placed.move differ known
      · simp [place, moved]
      · exact free
      · simp [place, firstMove_concat, moved]
      · exact others
  | some t =>
      have noneOld := placed.none_at elsewhere fun _ => by simp [moved]
      rw [Settings.move_idle noneOld free]
      have same : place (follows ++ [(oldId, newId)]) = place follows := by
        funext other
        by_cases here : other = oldId
        · simp [here, place, firstMove_concat, moved]
        · exact others other here
      rw [same]
      exact placed

end Record

/-- What recording a rename keeps. -/
theorem follow_spec {configured : Map Str ν} {follows : List (Str × Str)} {settings : Settings ν}
    {oldId newId : Str} (tidy : Tidy configured follows)
    (placed : Placed configured (place follows) settings) (free : settings newId = none)
    (differ : oldId ≠ newId)
    (last : (settings oldId).isSome = true → ∀ saved, (saved, oldId) ∈ stillValid newId follows →
      ∀ move ∈ behind (stillValid newId follows) saved, move.1 ≠ newId) :
    Tidy configured (follow configured follows (oldId, newId)) ∧
      Placed configured (place (follow configured follows (oldId, newId)))
        (settings.move oldId newId) := by
  by_cases governs : translateGoverns configured follows oldId = true
  · rcases stillValid_spec tidy placed free with ⟨keptTidy, keptPlaced, unused⟩
    rw [follow, if_pos governs, recordTranslateFollow]
    by_cases before : ∃ move ∈ stillValid newId follows, move.2 = oldId
    · rw [retarget_eq_turnAll _ keptTidy.distinct before, Option.getD_some]
      rcases before with ⟨⟨saved, target⟩, member, same⟩
      simp only at same
      rw [same] at member
      have shown (real : firstMove (stillValid newId follows) saved = some oldId) :
          (settings oldId).isSome = true := by
        rcases Option.isSome_iff_exists.mp (keptTidy.saved _ member) with ⟨v, value⟩
        rw [(keptPlaced.there oldId v).mpr ⟨saved, value, by simp [place, real]⟩]
        rfl
      exact ⟨turnAll_tidy keptTidy keptPlaced free unused member
          fun real => last (shown real) saved member,
        turnAll_placed keptTidy keptPlaced free differ member⟩
    · have first : ∀ move ∈ stillValid newId follows, move.2 ≠ oldId := by
        intro move member same
        exact before ⟨move, member, same⟩
      have known : (configured.get? oldId).isSome = true := by
        simp only [translateGoverns, Bool.or_eq_true, List.any_eq_true, decide_eq_true_eq] at governs
        apply governs.resolve_right
        rintro ⟨move, member, same⟩
        apply first move _ same
        simp [stillValid, member, same, differ]
      rw [(retarget_eq_none _).mpr first, Option.getD_none]
      exact ⟨concat_tidy keptTidy keptPlaced free unused known first,
        concat_placed keptPlaced free differ known first⟩
  · simp only [translateGoverns, Bool.or_eq_true, List.any_eq_true, decide_eq_true_eq, not_or,
      not_exists, not_and] at governs
    have noneOld : settings oldId = none := by
      apply placed.none_at
      · intro saved goes
        exact governs.2 _ (mem_of_firstMove goes) rfl
      · intro known
        exact absurd known governs.1
    have nothing : translateGoverns configured follows oldId = false := by
      simp only [translateGoverns, Bool.or_eq_false_iff, List.any_eq_false, decide_eq_true_eq]
      exact ⟨by simpa using governs.1, governs.2⟩
    rw [Settings.move_idle noneOld free]
    simp only [follow, nothing, Bool.false_eq_true, if_false]
    exact ⟨tidy, placed⟩

/-! ### Runs -/

/-- The moves, with those that wait, put every setting where its conversation is. -/
structure Steady (configured : Map Str ν) (s : Session ν) : Prop where
  unchanged : s.app.configured = configured
  tidy : Tidy configured s.app.eventual
  placed : Placed configured (place s.app.eventual) s.settings

theorem drain_eventual (app : App ν) :
    app.drainPendingBufferRekeys.configured = app.configured ∧
      app.drainPendingBufferRekeys.translateFollows = app.eventual ∧
      app.drainPendingBufferRekeys.pendingBufferRekeys = [] := by
  cases governed : anyGoverned app.configured app.translateFollows app.pendingBufferRekeys with
  | true =>
      simp [App.drainPendingBufferRekeys, governed, App.syncTranslateFromConfig,
        App.applyTranslateFollows, App.eventual]
  | false => simp [App.drainPendingBufferRekeys, governed, App.eventual]

theorem Session.exec_steady (configured : Map Str ν) (s : Session ν) (op : Op)
    (steady : Steady configured s) (allowed : Allowed s op) : Steady configured (s.exec op) := by
  cases op with
  | rename oldId newId =>
      by_cases same : oldId = newId
      · simpa [Session.exec, App.rekeyBufferState, same] using steady
      · have allowed := allowed same
        have spec := follow_spec steady.tidy steady.placed allowed.1 same
          fun shown saved member => allowed.2 shown (saved, oldId) member rfl
        have next : (s.exec (.rename oldId newId)).app.eventual =
            follow configured s.app.eventual (oldId, newId) := by
          simp [Session.exec, App.rekeyBufferState, same, App.eventual, ← steady.unchanged]
        have moved : (s.exec (.rename oldId newId)).settings = s.settings.move oldId newId := by
          simp [Session.exec, same]
        constructor
        · simpa [Session.exec, App.rekeyBufferState, same] using steady.unchanged
        · rw [next]
          exact spec.1
        · rw [next, moved]
          exact spec.2
  | drain =>
      have drained := drain_eventual s.app
      have next : s.app.drainPendingBufferRekeys.eventual = s.app.eventual := by
        rw [App.eventual, drained.2.2, drained.2.1]
        rfl
      constructor
      · exact drained.1.trans steady.unchanged
      · show Tidy configured s.app.drainPendingBufferRekeys.eventual
        rw [next]
        exact steady.tidy
      · show Placed configured (place s.app.drainPendingBufferRekeys.eventual) s.settings
        rw [next]
        exact steady.placed
  | sync => exact ⟨steady.unchanged, steady.tidy, steady.placed⟩

theorem steady_start (configured : Map Str ν) : Steady configured (Session.start configured) := by
  refine ⟨rfl, ⟨?_, ?_, ?_, ?_⟩, ⟨?_, ?_⟩⟩
  · intro move member
    cases member
  · exact List.nodup_nil
  · intro id known move later
    cases later
  · intro move member
    cases member
  · intro f g here there same
    exact same
  · intro id v
    simp [Session.start, App.eventual, place, firstMove]

theorem steady_sync {configured : Map Str ν} {s : Session ν} (steady : Steady configured s) (id : Str) :
    s.app.drainPendingBufferRekeys.syncTranslateFromConfig.translateBuffers.get? id =
      s.settings id := by
  have drained := drain_eventual s.app
  apply Option.ext
  intro v
  rw [App.syncTranslateFromConfig, App.applyTranslateFollows]
  simp only [drained.1, drained.2.1, steady.unchanged]
  rw [get?_replay configured s.app.eventual steady.tidy.ordered steady.placed.apart id v,
    steady.placed.there id v]

/-- Whatever is renamed, drained and read again in between: as long as conversations go to ids where
no setting is, and none with a setting goes to the saved nick of one whose move stands behind its
own, the settings read from the configuration and followed are those that moved with their
conversations. -/
theorem settings_follow_conversations (configured : Map Str ν) (ops : List Op)
    (allowed : Along Allowed Session.exec (Session.start configured) ops) :
    let s := runFrom Session.exec (Session.start configured) ops
    ∀ id, s.app.drainPendingBufferRekeys.syncTranslateFromConfig.translateBuffers.get? id =
      s.settings id := by
  intro s
  have steady : Steady configured s :=
    Along.invariant (Session.exec_steady configured) allowed (steady_start configured)
  exact steady_sync steady

/-- Two saved settings. -/
def annAndBob : Map Str Nat := Map.insert (Map.insert Table.empty "n/ann".toList 1) "n/bob".toList 2

/-- Ann goes, Bob takes her nick, and a stranger his. -/
theorem settings_follow_conversations_chain :
    let ops : List Op := [.rename "n/ann".toList "n/cat".toList, .sync,
      .rename "n/bob".toList "n/ann".toList, .drain, .rename "n/dan".toList "n/bob".toList]
    let s := runFrom Session.exec (Session.start annAndBob) ops
    Along Allowed Session.exec (Session.start annAndBob) ops ∧
      ∀ id, s.app.drainPendingBufferRekeys.syncTranslateFromConfig.translateBuffers.get? id =
        s.settings id := by
  intro ops s
  have allowed : Along Allowed Session.exec (Session.start annAndBob) ops := by decide +kernel
  exact ⟨allowed, settings_follow_conversations annAndBob ops allowed⟩

/-- Ann and Bob swap their nicks by way of a third: Ann's setting comes back to her old nick, where Bob
is now, and his is lost. -/
theorem swapped_settings_are_mixed_up :
    let ops : List Op := [.rename "n/ann".toList "n/cat".toList, .drain,
      .rename "n/bob".toList "n/ann".toList, .drain, .rename "n/cat".toList "n/bob".toList, .drain]
    let s := runFrom Session.exec (Session.start annAndBob) ops
    let read := s.app.syncTranslateFromConfig.translateBuffers
    s.app.pendingBufferRekeys = [] ∧
      read.get? "n/ann".toList = some 1 ∧ s.settings "n/ann".toList = some 2 ∧
      read.get? "n/bob".toList = none ∧ s.settings "n/bob".toList = some 1 := by
  decide +kernel

end Repartee.Follows
