import Repartee.Dcc.Manager
import Repartee.Fields

/-!
Which session an id stands for. The records, the senders and the tasks agree on it in every run;
the events under way agree with them as long as no record is filed under an id that another
session speaks under, and none that has been started under an id of its own that is new.
-/

namespace Repartee.Dcc

open Text Lib
open State (casefold)

section Ids

/-- A new id is one no record has. -/
theorem generateId_unused (unicode : Irc.Unicode) (records : Map Str DccRecord) (nick : Str) :
    records.get? (generateId unicode records nick) = none := by
  rw [generateId]
  by_cases free : (records.get? (unicode.toLowercase nick)).isNone
  · rw [if_pos free]
    exact Option.isNone_iff_eq_none.mp free
  · rw [if_neg free]
    let candidates := (List.range' 2 (records.rows.length + 1)).map fun n =>
      unicode.toLowercase nick ++ natText n
    show records.get? ((candidates.find? fun candidate =>
      (records.get? candidate).isNone).getD _) = none
    cases found : candidates.find? fun candidate => (records.get? candidate).isNone with
    | some candidate => simpa using List.find?_some found
    | none =>
        -- One more candidate than there are records: some candidate is unused.
        have distinct : candidates.Nodup := by
          apply List.Nodup.map _ List.nodup_range'
          intro m n same
          exact natText_injective (List.append_cancel_left same)
        have taken : candidates ⊆ records.rows.map Prod.fst := by
          intro candidate member
          have used := List.find?_eq_none.mp found candidate member
          cases entry : records.get? candidate with
          | none => simp [entry] at used
          | some r => exact List.mem_map.mpr ⟨_, (Map.get?_eq_some _ _ _).mp entry, rfl⟩
        have short := (distinct.subperm taken).length_le
        simp [candidates] at short

end Ids

section Keyed

/-- The session of the record with the id. -/
def DccManager.session? (m : DccManager) (id : Str) : Option Nat :=
  (m.records.get? id).map DccRecord.session

/-- Every record is filed under its id, no two are of one session, and senders and tasks belong to
the session of the record with their id. -/
structure Keyed (m : DccManager) (sessions : Nat) : Prop where
  ids : ∀ id r, m.records.get? id = some r → r.id = id
  distinct : ∀ id id' session, m.session? id = some session → m.session? id' = some session →
    id = id'
  senders : ∀ id session, m.chatSenders.get? id = some session → m.session? id = some session
  tasks : ∀ id task, m.chatTasks.get? id = some task → m.session? id = some task.session
  fresh : ∀ id session, m.session? id = some session → session < sessions

variable {m m' : DccManager} {sessions : Nat}

/-- Records keep their ids and sessions, and nothing else is filed. -/
theorem Keyed.refined (keyed : Keyed m sessions)
    (ids : ∀ id r, m'.records.get? id = some r → ∃ old, m.records.get? id = some old ∧
      r.id = old.id ∧ r.session = old.session)
    (senders : ∀ id session, m'.chatSenders.get? id = some session →
      m'.session? id = some session)
    (tasks : ∀ id task, m'.chatTasks.get? id = some task → m'.session? id = some task.session) :
    Keyed m' sessions := by
  have before (id : Str) (session : Nat) (here : m'.session? id = some session) :
      m.session? id = some session := by
    obtain ⟨r, found, rfl⟩ := Option.map_eq_some_iff.mp here
    obtain ⟨old, present, -, same⟩ := ids id r found
    rw [DccManager.session?, present, Option.map_some, same]
  constructor
  · intro id r found
    obtain ⟨old, present, same, -⟩ := ids id r found
    rw [same, keyed.ids id old present]
  · intro id id' session here there
    exact keyed.distinct id id' session (before id session here) (before id' session there)
  · exact senders
  · exact tasks
  · intro id session here
    exact keyed.fresh id session (before id session here)

theorem closeById_session (m : DccManager) (id x : Str) :
    (m.closeById id).session? x = if id = x then none else m.session? x := by
  rw [DccManager.session?, DccManager.closeById, Map.get?_erase]
  split <;> rfl

theorem Keyed.closeById (keyed : Keyed m sessions) (id : Str) :
    Keyed (m.closeById id) sessions := by
  apply keyed.refined
  · intro x r found
    rw [DccManager.closeById, Map.get?_erase] at found
    split at found
    · cases found
    · exact ⟨r, found, rfl, rfl⟩
  · intro x session found
    rw [DccManager.closeById, Map.get?_erase] at found
    rw [closeById_session]
    split at found
    · cases found
    · rename_i other
      rw [if_neg other]
      exact keyed.senders x session found
  · intro x task found
    rw [DccManager.closeById, Map.get?_erase] at found
    rw [closeById_session]
    split at found
    · cases found
    · rename_i other
      rw [if_neg other]
      exact keyed.tasks x task found

/-- Rewriting a record without its id and its session changes neither. -/
theorem adjust_session (m : DccManager) (id x : Str) (f : DccRecord → DccRecord)
    (keeps : ∀ r, (f r).session = r.session) :
    ({ m with records := m.records.adjust id f } : DccManager).session? x = m.session? x := by
  simp only [DccManager.session?, Map.get?_adjust]
  split
  · rw [Option.map_map]
    congr 1
    exact funext fun r => keeps r
  · rfl

theorem Keyed.adjust (keyed : Keyed m sessions) (id : Str) (f : DccRecord → DccRecord)
    (ids : ∀ r, (f r).id = r.id) (keeps : ∀ r, (f r).session = r.session) :
    Keyed { m with records := m.records.adjust id f } sessions := by
  apply keyed.refined
  · intro x r found
    simp only [Map.get?_adjust] at found
    split at found
    · obtain ⟨old, present, rfl⟩ := Option.map_eq_some_iff.mp found
      exact ⟨old, present, ids old, keeps old⟩
    · exact ⟨r, found, rfl, rfl⟩
  · intro x session found
    rw [adjust_session m id x f keeps]
    exact keyed.senders x session found
  · intro x task found
    rw [adjust_session m id x f keeps]
    exact keyed.tasks x task found

theorem get?_moved {ν : Type} (map : Map Str ν) (oldId newId x : Str) :
    (DccManager.moved map oldId newId).get? x =
      if (map.get? oldId).isSome then
        if newId = x then map.get? oldId else if oldId = x then none else map.get? x
      else map.get? x := by
  rw [DccManager.moved]
  cases map.get? oldId with
  | none => rfl
  | some v =>
      simp only [Option.isSome_some, if_true]
      rw [Map.get?_insert, Map.get?_erase]

/-- What a rename files, and under which id. -/
theorem rename_records (unicode : Irc.Unicode) (m : DccManager) (newNick oldId : Str)
    (record : DccRecord) (found : m.records.get? oldId = some record) :
    let newId := generateId unicode (m.records.erase oldId) newNick
    (m.records.get? newId = none ∨ newId = oldId) ∧
      ∀ x, (m.rename unicode newNick oldId).records.get? x =
        if newId = x then some { record with nick := newNick, id := newId }
        else if oldId = x then none else m.records.get? x := by
  intro newId
  constructor
  · have unused := generateId_unused unicode (m.records.erase oldId) newNick
    rw [Map.get?_erase] at unused
    by_cases same : oldId = newId
    · exact .inr same.symm
    · rw [if_neg same] at unused
      exact .inl unused
  · intro x
    simp only [DccManager.rename, found]
    rw [Map.get?_insert, Map.get?_erase]

theorem rename_session (unicode : Irc.Unicode) (m : DccManager) (newNick oldId x : Str)
    (record : DccRecord) (found : m.records.get? oldId = some record) :
    (m.rename unicode newNick oldId).session? x =
      if generateId unicode (m.records.erase oldId) newNick = x then some record.session
      else if oldId = x then none else m.session? x := by
  rw [DccManager.session?, (rename_records unicode m newNick oldId record found).2 x]
  split
  · rfl
  · split <;> rfl

theorem Keyed.rename (keyed : Keyed m sessions) (unicode : Irc.Unicode) (newNick oldId : Str) :
    Keyed (m.rename unicode newNick oldId) sessions := by
  cases found : m.records.get? oldId with
  | none =>
      rw [DccManager.rename, found]
      exact keyed
  | some record =>
      obtain ⟨unused, files⟩ := rename_records unicode m newNick oldId record found
      have sessions' := rename_session unicode m newNick oldId
      let newId := generateId unicode (m.records.erase oldId) newNick
      have here : m.session? oldId = some record.session := by
        rw [DccManager.session?, found]
        rfl
      -- Where a session is afterwards it came from, or it is the renamed one.
      have from_before (x : Str) (session : Nat)
          (after : (m.rename unicode newNick oldId).session? x = some session) :
          (x = newId ∧ session = record.session) ∨
            (x ≠ newId ∧ x ≠ oldId ∧ m.session? x = some session) := by
        rw [sessions' x record found] at after
        split at after
        · rename_i same
          exact .inl ⟨same.symm, (Option.some.inj after).symm⟩
        · rename_i other
          split at after
          · cases after
          · rename_i elsewhere
            exact .inr ⟨fun same => other same.symm, fun same => elsewhere same.symm, after⟩
      -- What is filed beside the records moves with them.
      have along {ν : Type} (map : Map Str ν) (owner : ν → Nat)
          (owned : ∀ id v, map.get? id = some v → m.session? id = some (owner v)) (x : Str) (v : ν)
          (after : (DccManager.moved map oldId newId).get? x = some v) :
          (m.rename unicode newNick oldId).session? x = some (owner v) := by
        rw [sessions' x record found]
        rw [get?_moved] at after
        split at after
        · rename_i present
          by_cases same : newId = x
          · rw [if_pos same] at after
            rw [if_pos same, ← owned oldId v after, here]
          · rw [if_neg same] at after
            rw [if_neg same]
            split at after
            · cases after
            · rename_i elsewhere
              rw [if_neg elsewhere]
              exact owned x v after
        · rename_i absent
          have kept := owned x v after
          have notOld : oldId ≠ x := by
            intro same
            rw [← same] at after
            simp [after] at absent
          have notNew : newId ≠ x := by
            intro same
            cases unused with
            | inl none =>
                rw [← same, DccManager.session?, none] at kept
                cases kept
            | inr old => exact notOld (old.symm.trans same)
          rw [if_neg notNew, if_neg notOld]
          exact kept
      constructor
      · intro x r after
        rw [files x] at after
        split at after
        · rename_i same
          rw [← Option.some.inj after]
          exact same
        · split at after
          · cases after
          · exact keyed.ids x r after
      · intro x y session atX atY
        rcases from_before x session atX with ⟨rfl, same⟩ | ⟨-, notOld, kept⟩
        · rcases from_before y session atY with ⟨rfl, -⟩ | ⟨-, notOld, kept⟩
          · rfl
          · exact absurd (keyed.distinct y oldId session kept (same ▸ here)) notOld
        · rcases from_before y session atY with ⟨rfl, same⟩ | ⟨-, -, kept'⟩
          · exact absurd (keyed.distinct x oldId session kept (same ▸ here)) notOld
          · exact keyed.distinct x y session kept kept'
      · intro x session after
        simp only [DccManager.rename, found] at after
        have moved := along m.chatSenders id keyed.senders x session after
        exact moved
      · intro x task after
        simp only [DccManager.rename, found] at after
        exact along m.chatTasks ChatTask.session keyed.tasks x task after
      · intro x session after
        rcases from_before x session after with ⟨-, rfl⟩ | ⟨-, -, kept⟩
        · exact keyed.fresh oldId _ here
        · exact keyed.fresh x session kept

end Keyed

section Sound

/-- The sessions that speak, each with the id it speaks under: the tasks that have not ended, and
those whose events are under way. -/
def DccApp.claims (s : DccApp) : List ChatTask := s.running ++ s.queue.map Posted.task

/-- The id is the session's own as far as the tasks and the events under way go: those that use it
are those of the session. -/
def Speaks (s : DccApp) (id : Str) (session : Nat) : Prop :=
  ∀ task ∈ s.claims, task.id = id ↔ task.session = session

/-- Every event under way is for the session it comes from. -/
def Attributed (s : DccApp) : Prop :=
  ∀ id session, s.dcc.session? id = some session → Speaks s id session

structure Sound (s : DccApp) : Prop where
  keyed : Keyed s.dcc s.sessions
  claimed : ∀ task ∈ s.claims, task.session < s.sessions

variable {s : DccApp}

/-- A step of the manager alone. -/
theorem Sound.manager (sound : Sound s) {m : DccManager} (keyed : Keyed m s.sessions) :
    Sound { s with dcc := m } := ⟨keyed, sound.claimed⟩

/-- Records that stay where they are stay attributed. -/
theorem Attributed.manager (attributed : Attributed s) {m : DccManager}
    (kept : ∀ id session, m.session? id = some session → s.dcc.session? id = some session) :
    Attributed { s with dcc := m } :=
  fun id session here => attributed id session (kept id session here)

theorem insertRecord_session (s : DccApp) (record : DccRecord) (x : Str) :
    (s.insertRecord record).dcc.session? x =
      if record.id = x then some s.sessions else s.dcc.session? x := by
  rw [DccManager.session?, DccApp.insertRecord, Map.get?_insert]
  split <;> rfl

theorem insertRecord_sound (sound : Sound s) (record : DccRecord)
    (unused : s.dcc.records.get? record.id = none) : Sound (s.insertRecord record) := by
  obtain ⟨keyed, claimed⟩ := sound
  have absent : s.dcc.session? record.id = none := by rw [DccManager.session?, unused]; rfl
  have stays (x : Str) (session : Nat) (here : s.dcc.session? x = some session) :
      (s.insertRecord record).dcc.session? x = some session := by
    rw [insertRecord_session, if_neg]
    · exact here
    · intro same
      rw [← same, absent] at here
      cases here
  have from_before (x : Str) (session : Nat)
      (after : (s.insertRecord record).dcc.session? x = some session) :
      (x = record.id ∧ session = s.sessions) ∨ s.dcc.session? x = some session := by
    rw [insertRecord_session] at after
    split at after
    · rename_i same
      exact .inl ⟨same.symm, (Option.some.inj after).symm⟩
    · exact .inr after
  refine ⟨⟨?_, ?_, ?_, ?_, ?_⟩, ?_⟩
  · intro x r after
    rw [DccApp.insertRecord, Map.get?_insert] at after
    split at after
    · rename_i same
      rw [← Option.some.inj after]
      exact same
    · exact keyed.ids x r after
  · intro x y session atX atY
    rcases from_before x session atX with ⟨rfl, rfl⟩ | keptX
    · rcases from_before y _ atY with ⟨rfl, -⟩ | keptY
      · rfl
      · exact absurd (keyed.fresh y _ keptY) (Nat.lt_irrefl _)
    · rcases from_before y session atY with ⟨rfl, rfl⟩ | keptY
      · exact absurd (keyed.fresh x _ keptX) (Nat.lt_irrefl _)
      · exact keyed.distinct x y session keptX keptY
  · exact fun x session filed => stays x session (keyed.senders x session filed)
  · exact fun x task filed => stays x _ (keyed.tasks x task filed)
  · intro x session after
    rcases from_before x session after with ⟨-, rfl⟩ | kept
    · exact Nat.lt_succ_self _
    · exact Nat.lt_succ_of_lt (keyed.fresh x session kept)
  · exact fun task member => Nat.lt_succ_of_lt (claimed task member)

theorem insertRecord_attributed (attributed : Attributed s) (record : DccRecord)
    (speaks : Speaks s record.id s.sessions) : Attributed (s.insertRecord record) := by
  intro x session after
  rw [insertRecord_session] at after
  split at after
  · rename_i same
    rw [← same, ← Option.some.inj after]
    exact speaks
  · exact attributed x session after

/-- The task of a record speaks under the record's id. -/
theorem startTask_session (s : DccApp) (id x : Str) (state : DccState) :
    (s.startTask id state).dcc.session? x = s.dcc.session? x := by
  rw [DccApp.startTask]
  split
  · rfl
  · exact adjust_session s.dcc id x _ fun _ => rfl

theorem mem_startTask_claims (s : DccApp) (id : Str) (state : DccState) (task : ChatTask)
    (member : task ∈ (s.startTask id state).claims) :
    task ∈ s.claims ∨ task.id = id ∧ s.dcc.session? id = some task.session := by
  rw [DccApp.startTask] at member
  cases found : s.dcc.records.get? id with
  | none =>
      rw [found] at member
      exact .inl member
  | some record =>
      simp only [found, DccApp.claims, List.append_assoc, List.mem_append, List.mem_singleton]
        at member
      simp only [DccApp.claims, List.mem_append]
      rcases member with running | rfl | queued
      · exact .inl (.inl running)
      · exact .inr ⟨rfl, by rw [DccManager.session?, found]; rfl⟩
      · exact .inl (.inr queued)

theorem startTask_sound (sound : Sound s) (id : Str) (state : DccState) :
    Sound (s.startTask id state) := by
  have sessions := startTask_session s id
  have counted : (s.startTask id state).sessions = s.sessions := by
    rw [DccApp.startTask]
    split <;> rfl
  constructor
  · rw [counted]
    rw [DccApp.startTask]
    cases found : s.dcc.records.get? id with
    | none => exact sound.keyed
    | some record =>
        have adjusted := sound.keyed.adjust id (fun r => { r with state := state }) (fun _ => rfl)
          fun _ => rfl
        have here : ({ s.dcc with records := s.dcc.records.adjust id fun r =>
            { r with state := state } } : DccManager).session? id = some record.session := by
          have same := adjust_session s.dcc id id (fun r => { r with state := state }) fun _ => rfl
          apply same.trans
          rw [DccManager.session?, found]
          rfl
        refine ⟨adjusted.ids, adjusted.distinct, ?_, ?_, adjusted.fresh⟩
        · intro x session filed
          simp only [Map.get?_insert] at filed
          split at filed
          · rename_i same
            rw [← same, ← Option.some.inj filed]
            exact here
          · exact adjusted.senders x session filed
        · intro x task filed
          simp only [Map.get?_insert] at filed
          split at filed
          · rename_i same
            rw [← same, ← Option.some.inj filed]
            exact here
          · exact adjusted.tasks x task filed
  · intro task member
    rw [counted]
    cases mem_startTask_claims s id state task member with
    | inl before => exact sound.claimed task before
    | inr started => exact sound.keyed.fresh id _ started.2

theorem startTask_attributed (sound : Sound s) (attributed : Attributed s) (id : Str)
    (state : DccState) : Attributed (s.startTask id state) := by
  intro x session after task member
  rw [startTask_session] at after
  cases mem_startTask_claims s id state task member with
  | inl before => exact attributed x session after task before
  | inr started =>
      obtain ⟨rfl, here⟩ := started
      constructor
      · intro same
        rw [same, after] at here
        exact (Option.some.inj here).symm
      · intro same
        exact sound.keyed.distinct _ _ session (same ▸ here) after

end Sound

section Steps

variable (unicode : Irc.Unicode) (isMatch : Str → Str → Bool)

/-- The offer that is filed when the nick offers a chat or is offered one, if one is. -/
def offerId (s : DccApp) (nick : Str) : Option Str :=
  if s.isFull then none else some (generateId unicode s.dcc.records nick)

/-- Every record a nick change moves gets an id its session speaks under, and no other. -/
def RenamesKeep (s : DccApp) (newNick : Str) : DccManager → List Str → Prop
  | _, [] => True
  | m, oldId :: rest =>
      (∀ session ∈ m.session? oldId,
        Speaks s (generateId unicode (m.records.erase oldId) newNick) session) ∧
        RenamesKeep s newNick (m.rename unicode newNick oldId) rest

/-- What is filed by the operation is filed under an id that is its session's own. -/
def FilesOwn (s : DccApp) : Nat × Op → Prop
  | (_, .dccLine nick connId mapping _ port passiveToken _ _ _) =>
      s.answeredOffer nick connId mapping port passiveToken = none →
        ∀ id ∈ offerId unicode (s.crossed connId mapping nick) nick, Speaks s id s.sessions
  | (_, .cmdDccChat connId mapping (some nick) passive _ (some _)) =>
      (passive = true ∨ s.dcc.findPending connId mapping nick = none) →
        s.alreadyPending connId mapping nick = false →
          ∀ id ∈ offerId unicode s nick, Speaks s id s.sessions
  | (_, .updateNick connId mapping oldNick newNick) =>
      RenamesKeep unicode s newNick s.dcc (s.dcc.peerIds connId mapping oldNick)
  | _ => True

variable {unicode isMatch} {s : DccApp}

theorem acceptDccChat_sound (sound : Sound s) (id : Str) (listens : Bool) :
    Sound (s.acceptDccChat id listens) := by
  rw [DccApp.acceptDccChat]
  split
  · exact sound
  · split
    · split
      · exact startTask_sound sound id _
      · exact sound
    · exact startTask_sound sound id _

theorem acceptDccChat_attributed (sound : Sound s) (attributed : Attributed s) (id : Str)
    (listens : Bool) : Attributed (s.acceptDccChat id listens) := by
  rw [DccApp.acceptDccChat]
  split
  · exact attributed
  · split
    · split
      · exact startTask_attributed sound attributed id _
      · exact attributed
    · exact startTask_attributed sound attributed id _

theorem closeById_attributed (attributed : Attributed s) (id : Str) :
    Attributed { s with dcc := s.dcc.closeById id } := by
  apply attributed.manager
  intro x session here
  rw [closeById_session] at here
  split at here
  · cases here
  · exact here

theorem crossed_sound (sound : Sound s) (connId mapping nick : Str) :
    Sound (s.crossed connId mapping nick) := by
  rw [DccApp.crossed]
  split
  · exact sound
  · exact sound.manager (sound.keyed.closeById _)

theorem crossed_attributed (attributed : Attributed s) (connId mapping nick : Str) :
    Attributed (s.crossed connId mapping nick) := by
  rw [DccApp.crossed]
  split
  · exact attributed
  · exact closeById_attributed attributed _

theorem crossed_frame (s : DccApp) (connId mapping nick : Str) :
    (s.crossed connId mapping nick).claims = s.claims ∧
      (s.crossed connId mapping nick).sessions = s.sessions := by
  rw [DccApp.crossed]
  split <;> exact ⟨rfl, rfl⟩

/-- An offer that is filed and may be answered at once. -/
theorem offered_sound (sound : Sound s) (record : DccRecord) (nick : Str)
    (id : record.id = generateId unicode s.dcc.records nick) : Sound (s.insertRecord record) := by
  apply insertRecord_sound sound
  rw [id]
  exact generateId_unused unicode s.dcc.records nick

theorem incomingRequest_sound (sound : Sound s) (now : Nat) (nick connId mapping addr : Str)
    (port : Nat) (passiveToken : Option Nat) (ident host : Str) (listens : Bool) :
    Sound (s.incomingRequest unicode isMatch now nick connId mapping addr port passiveToken ident
      host listens) := by
  have cleared := crossed_sound sound connId mapping nick
  rw [DccApp.incomingRequest]
  split
  · exact cleared
  · have offered := offered_sound cleared ⟨generateId unicode _ nick, nick, connId, false, addr,
      port, .waitingUser, passiveToken, now, none, 0, 0⟩ nick rfl
    dsimp only
    split
    · exact acceptDccChat_sound offered _ _
    · exact offered

theorem incomingRequest_attributed (sound : Sound s) (attributed : Attributed s) (now : Nat)
    (nick connId mapping addr : Str) (port : Nat) (passiveToken : Option Nat) (ident host : Str)
    (listens : Bool)
    (own : ∀ id ∈ offerId unicode (s.crossed connId mapping nick) nick, Speaks s id s.sessions) :
    Attributed (s.incomingRequest unicode isMatch now nick connId mapping addr port passiveToken
      ident host listens) := by
  have cleared := crossed_sound sound connId mapping nick
  have still := crossed_attributed attributed connId mapping nick
  have frame := crossed_frame s connId mapping nick
  rw [DccApp.incomingRequest]
  split
  · exact still
  · rename_i room
    have offered := offered_sound cleared ⟨generateId unicode _ nick, nick, connId, false, addr,
      port, .waitingUser, passiveToken, now, none, 0, 0⟩ nick rfl
    have speaks := own _ (by rw [offerId, if_neg room]; rfl)
    have filed := insertRecord_attributed still ⟨_, nick, connId, false, addr, port,
      .waitingUser, passiveToken, now, none, 0, 0⟩ (by
        rw [Speaks, frame.1, frame.2]
        exact speaks)
    dsimp only
    split
    · exact acceptDccChat_attributed offered filed _ _
    · exact filed

/-- What an operation keeps: the agreement of the tables always, that of the events if it files
under ids that are free for it. -/
structure Keeps (s s' : DccApp) (own : Prop) : Prop where
  sound : Sound s'
  attributed : Attributed s → own → Attributed s'

theorem Keeps.still {own : Prop} (sound : Sound s) : Keeps s s own := ⟨sound, fun before _ => before⟩

theorem acceptDccChat_keeps {own : Prop} {s' : DccApp} (keeps : Keeps s s' own) (id : Str)
    (listens : Bool) : Keeps s (s'.acceptDccChat id listens) own :=
  ⟨acceptDccChat_sound keeps.sound id listens, fun before free =>
    acceptDccChat_attributed keeps.sound (keeps.attributed before free) id listens⟩

theorem startTask_keeps {own : Prop} {s' : DccApp} (keeps : Keeps s s' own) (id : Str)
    (state : DccState) : Keeps s (s'.startTask id state) own :=
  ⟨startTask_sound keeps.sound id state, fun before free =>
    startTask_attributed keeps.sound (keeps.attributed before free) id state⟩

/-- A step of the manager that moves no record. -/
theorem manager_keeps {own : Prop} (sound : Sound s) {m : DccManager} (keyed : Keyed m s.sessions)
    (kept : ∀ id session, m.session? id = some session → s.dcc.session? id = some session) :
    Keeps s { s with dcc := m } own :=
  ⟨sound.manager keyed, fun before _ => before.manager kept⟩

theorem adjust_keeps {own : Prop} (sound : Sound s) (id : Str) (f : DccRecord → DccRecord)
    (ids : ∀ r, (f r).id = r.id) (keeps : ∀ r, (f r).session = r.session) :
    Keeps s { s with dcc := { s.dcc with records := s.dcc.records.adjust id f } } own :=
  manager_keeps sound (sound.keyed.adjust id f ids keeps) fun x session here => by
    rwa [adjust_session s.dcc id x f keeps] at here

theorem closeById_keeps {own : Prop} (sound : Sound s) (id : Str) :
    Keeps s { s with dcc := s.dcc.closeById id } own :=
  ⟨sound.manager (sound.keyed.closeById id), fun before _ => closeById_attributed before id⟩

theorem dccLine_keeps (sound : Sound s) (now : Nat) (nick connId mapping addr : Str)
    (port : Nat) (passiveToken : Option Nat) (ident host : Str) (listens : Bool) :
    Keeps s (s.dccLine unicode isMatch now nick connId mapping addr port passiveToken ident host
        listens)
      (FilesOwn unicode s (now, .dccLine nick connId mapping addr port passiveToken ident host
        listens)) := by
  rw [DccApp.dccLine]
  cases answered : s.answeredOffer nick connId mapping port passiveToken with
  | some id =>
      apply startTask_keeps
      exact adjust_keeps sound id (fun r => { r with addr := addr, port := port }) (fun _ => rfl)
        fun _ => rfl
  | none =>
      exact ⟨incomingRequest_sound sound now nick connId mapping addr port passiveToken ident host
        listens, fun before free => incomingRequest_attributed sound before now nick connId mapping
          addr port passiveToken ident host listens (free answered)⟩

theorem initiateDccChat_keeps (sound : Sound s) (now : Nat) (nick connId addr : Str) (port : Nat)
    (passiveToken : Option Nat) :
    Keeps s (s.initiateDccChat unicode now nick connId addr port passiveToken)
      (∀ id ∈ offerId unicode s nick, Speaks s id s.sessions) := by
  rw [DccApp.initiateDccChat]
  split
  · exact .still sound
  · rename_i room
    have filed (record : DccRecord) (id : record.id = generateId unicode s.dcc.records nick) :
        Keeps s (s.insertRecord record)
          (∀ id ∈ offerId unicode s nick, Speaks s id s.sessions) := by
      refine ⟨offered_sound sound record nick id, fun before free => ?_⟩
      apply insertRecord_attributed before
      apply free
      rw [offerId, if_neg room, id]
      rfl
    dsimp only
    split
    · exact filed _ rfl
    · exact startTask_keeps (filed _ rfl) _ _

theorem cmdDccChat_keeps (sound : Sound s) (now : Nat) (connId mapping : Str) (nick : Option Str)
    (passive listens : Bool) (offer : Option (Str × Nat × Nat)) :
    Keeps s (s.cmdDccChat unicode now connId mapping nick passive listens offer)
      (FilesOwn unicode s (now, .cmdDccChat connId mapping nick passive listens offer)) := by
  unfold DccApp.cmdDccChat
  cases nick with
  | none =>
      dsimp only
      split
      · exact .still sound
      · split
        · exact .still sound
        · exact acceptDccChat_keeps (.still sound) _ _
  | some nick =>
      dsimp only
      cases asked : (if passive then none else s.dcc.findPending connId mapping nick) with
      | some r => exact acceptDccChat_keeps (.still sound) _ _
      | none =>
          have unasked : passive = true ∨ s.dcc.findPending connId mapping nick = none := by
            cases passive with
            | true => exact .inl rfl
            | false => exact .inr asked
          cases pending : s.alreadyPending connId mapping nick with
          | true => exact .still sound
          | false =>
              cases offer with
              | none => exact .still sound
              | some offer =>
                  have made := @initiateDccChat_keeps unicode s sound now nick connId offer.1
                    (if passive then 0 else offer.2.1) (if passive then some offer.2.2 else none)
                  exact ⟨made.sound, fun before free => made.attributed before (free unasked pending)⟩

theorem rename_attributed {m : DccManager}
    (attributed : Attributed { s with dcc := m }) (newNick oldId : Str)
    (own : ∀ session ∈ m.session? oldId,
      Speaks s (generateId unicode (m.records.erase oldId) newNick) session) :
    Attributed { s with dcc := m.rename unicode newNick oldId } := by
  cases found : m.records.get? oldId with
  | none =>
      rw [DccManager.rename, found]
      exact attributed
  | some record =>
      intro x session here
      have after := rename_session unicode m newNick oldId x record found
      rw [show ({ s with dcc := m.rename unicode newNick oldId } : DccApp).dcc.session? x =
        (m.rename unicode newNick oldId).session? x from rfl, after] at here
      split at here
      · rename_i same
        rw [← same]
        apply own
        rw [DccManager.session?, found, ← Option.some.inj here]
        rfl
      · split at here
        · cases here
        · exact attributed x session here

theorem updateNick_keeps (sound : Sound s) (connId mapping oldNick newNick : Str) :
    Keeps s { s with dcc := s.dcc.updateNick unicode connId mapping oldNick newNick }
      (RenamesKeep unicode s newNick s.dcc (s.dcc.peerIds connId mapping oldNick)) := by
  rw [DccManager.updateNick]
  have along : ∀ ids (m : DccManager), Keyed m s.sessions →
      Keyed (ids.foldl (fun m oldId => m.rename unicode newNick oldId) m) s.sessions ∧
        (Attributed { s with dcc := m } → RenamesKeep unicode s newNick m ids →
          Attributed { s with
            dcc := ids.foldl (fun m oldId => m.rename unicode newNick oldId) m }) := by
    intro ids
    induction ids with
    | nil => exact fun m keyed => ⟨keyed, fun before _ => before⟩
    | cons oldId rest ih =>
        intro m keyed
        have next := ih (m.rename unicode newNick oldId) (keyed.rename unicode newNick oldId)
        exact ⟨next.1, fun before own =>
          next.2 (rename_attributed before newNick oldId own.1) own.2⟩
  have whole := along (s.dcc.peerIds connId mapping oldNick) s.dcc sound.keyed
  exact ⟨sound.manager whole.1, whole.2⟩

theorem purgeExpired_keeps {own : Prop} (sound : Sound s) (now : Nat) :
    Keeps s { s with dcc := s.dcc.purgeExpired now } own := by
  have along : ∀ (ids : List Str) (m : DccManager), Keyed m s.sessions →
      Keyed (ids.foldl DccManager.closeById m) s.sessions ∧
        ∀ x session, (ids.foldl DccManager.closeById m).session? x = some session →
          m.session? x = some session := by
    intro ids
    induction ids with
    | nil => exact fun m keyed => ⟨keyed, fun _ _ here => here⟩
    | cons id rest ih =>
        intro m keyed
        obtain ⟨kept, from_before⟩ := ih (m.closeById id) (keyed.closeById id)
        refine ⟨kept, fun x session here => ?_⟩
        have before := from_before x session here
        rw [closeById_session] at before
        split at before
        · cases before
        · exact before
  rw [DccManager.purgeExpired]
  exact manager_keeps sound (along _ s.dcc sound.keyed).1 (along _ s.dcc sound.keyed).2

theorem closeByNick_keeps {own : Prop} (sound : Sound s) (connId mapping nick : Str) :
    Keeps s { s with dcc := s.dcc.closeByNick connId mapping nick } own := by
  rw [DccManager.closeByNick]
  split
  · exact .still sound
  · exact closeById_keeps sound _

/-- An event is applied to the record with its id and to no other. -/
theorem handleDccEvent_records (s : DccApp) (now : Nat) (suppressed : Bool) (id : Str)
    (event : ChatEvent) (x : Str) (other : x ≠ id) :
    (s.handleDccEvent unicode now suppressed id event).dcc.records.get? x =
      s.dcc.records.get? x := by
  have closed : (s.dcc.closeById id).records.get? x = s.dcc.records.get? x := by
    rw [DccManager.closeById, Map.get?_erase, if_neg other.symm]
  cases event with
  | closed reason => exact closed
  | error error => exact closed
  | _ =>
      simp only [DccApp.handleDccEvent]
      split
      · rfl
      · simp only [Map.get?_adjust, if_neg other]

theorem handleDccEvent_keeps {own : Prop} (sound : Sound s) (now : Nat) (suppressed : Bool)
    (id : Str) (event : ChatEvent) :
    Keeps s (s.handleDccEvent unicode now suppressed id event) own := by
  have shows {s' : DccApp} (shown : List (Option Str × Str)) (keeps : Keeps s s' own) :
      Keeps s { s' with shown := shown } own :=
    ⟨⟨keeps.sound.keyed, keeps.sound.claimed⟩, keeps.attributed⟩
  have counted (text : Str) := @adjust_keeps s own sound id
    (fun r => { r with bytesTransferred := r.bytesTransferred + utf8Length text })
    (fun _ => rfl) fun _ => rfl
  cases event with
  | closed reason => exact shows _ (closeById_keeps sound id)
  | error error => exact shows _ (closeById_keeps sound id)
  | connected =>
      simp only [DccApp.handleDccEvent]
      split
      · exact .still sound
      · have answered := @adjust_keeps s own sound id
          (fun r => { r with state := .connected, started := some now }) (fun _ => rfl) fun _ => rfl
        exact shows _ answered
  | message text =>
      simp only [DccApp.handleDccEvent]
      split
      · exact .still sound
      · exact shows _ (counted text)
  | action text =>
      simp only [DccApp.handleDccEvent]
      split
      · exact .still sound
      · exact shows _ (counted text)

/-- Fewer claims are as sound and as well attributed. -/
theorem fewer_claims {own : Prop} (sound : Sound s) {running : List ChatTask}
    {queue : List Posted}
    (fewer : ∀ task ∈ running ++ queue.map Posted.task, task ∈ s.claims) :
    Keeps s { s with running := running, queue := queue } own :=
  ⟨⟨sound.keyed, fun task member => sound.claimed task (fewer task member)⟩,
    fun before _ id session here task member => before id session here task (fewer task member)⟩

theorem reordered_get? (records : Map Str DccRecord) (rows : List (Str × DccRecord)) (x : Str) :
    (reordered records rows).get? x = records.get? x := by
  rw [reordered]
  split
  · rename_i perm
    have same (r : DccRecord) :
        Map.get? (⟨rows, (perm.map Prod.fst).nodup_iff.mpr records.unique⟩ : Map Str DccRecord) x =
          some r ↔ records.get? x = some r := by
      rw [Map.get?_eq_some, Map.get?_eq_some]
      exact perm.mem_iff
    cases found : records.get? x with
    | some r => exact (same r).mpr found
    | none =>
        rw [Option.eq_none_iff_forall_ne_some]
        intro r here
        rw [(same r).mp here] at found
        cases found
  · rfl

theorem exec_keeps (sound : Sound s) (op : Nat × Op) :
    Keeps s (exec unicode isMatch s op) (FilesOwn unicode s op) := by
  obtain ⟨now, op⟩ := op
  cases op with
  | dccLine nick connId mapping addr port passiveToken ident host listens =>
      exact dccLine_keeps sound now nick connId mapping addr port passiveToken ident host listens
  | cmdDccChat connId mapping nick passive listens offer =>
      exact cmdDccChat_keeps sound now connId mapping nick passive listens offer
  | updateNick connId mapping oldNick newNick =>
      exact updateNick_keeps sound connId mapping oldNick newNick
  | closeByNick connId mapping nick => exact closeByNick_keeps sound connId mapping nick
  | purgeExpired => exact purgeExpired_keeps sound now
  | post posted =>
      simp only [exec]
      split
      · rename_i running
        apply fewer_claims sound
        intro task member
        simp only [List.map_append, List.map_singleton, List.mem_append, List.mem_singleton]
          at member
        simp only [DccApp.claims, List.mem_append]
        rcases member with before | queued | rfl
        · exact .inl before
        · exact .inr queued
        · exact .inl running
      · exact .still sound
  | finish task =>
      apply fewer_claims sound
      intro task member
      simp only [List.mem_append, List.mem_filter] at member
      simp only [DccApp.claims, List.mem_append]
      exact member.imp And.left id
  | deliver suppressed =>
      simp only [exec]
      split
      · exact .still sound
      · rename_i posted rest queue
        have taken : Keeps s { s with queue := rest } (FilesOwn unicode s (now, .deliver suppressed)) := by
          apply fewer_claims sound
          intro task member
          simp only [List.mem_append] at member
          simp only [DccApp.claims, List.mem_append, queue, List.map_cons, List.mem_cons]
          exact member.imp id .inr
        have handled := @handleDccEvent_keeps unicode _ (FilesOwn unicode s (now, .deliver suppressed))
          taken.sound now suppressed posted.task.id posted.event
        exact ⟨handled.sound, fun before free =>
          handled.attributed (taken.attributed before free) free⟩
  | reorder rows =>
      have same : ∀ x, ({ s.dcc with records := reordered s.dcc.records rows } :
          DccManager).session? x = s.dcc.session? x := by
        intro x
        rw [DccManager.session?, reordered_get?]
        rfl
      apply manager_keeps sound
      · apply sound.keyed.refined
        · intro x r found
          rw [reordered_get?] at found
          exact ⟨r, found, rfl, rfl⟩
        · intro x session filed
          rw [same]
          exact sound.keyed.senders x session filed
        · intro x task filed
          rw [same]
          exact sound.keyed.tasks x task filed
      · intro x session here
        rwa [same] at here

end Steps

section Runs

/-- No chats yet. -/
def DccApp.new (timeoutSecs : Nat) (autoacceptLowports : Bool) (autochatMasks : List Str)
    (maxConnections : Nat) : DccApp :=
  ⟨⟨.empty, .empty, .empty, timeoutSecs, autoacceptLowports, autochatMasks, maxConnections⟩,
    [], [], 0, []⟩

variable (unicode : Irc.Unicode) (isMatch : Str → Str → Bool)

theorem runFrom_keeps {s : DccApp} (sound : Sound s) (ops : List (Nat × Op)) :
    Keeps s (runFrom (exec unicode isMatch) s ops)
      (Along (FilesOwn unicode) (exec unicode isMatch) s ops) := by
  induction ops generalizing s with
  | nil => exact .still sound
  | cons op rest ih =>
      have step := @exec_keeps unicode isMatch s sound op
      have later := ih step.sound
      exact ⟨later.sound, fun before own => later.attributed (step.attributed before own.1) own.2⟩

theorem new_sound (timeoutSecs : Nat) (autoacceptLowports : Bool) (autochatMasks : List Str)
    (maxConnections : Nat) :
    Sound (.new timeoutSecs autoacceptLowports autochatMasks maxConnections) :=
  ⟨⟨nofun, nofun, nofun, nofun, nofun⟩, nofun⟩

/-- A chat with alice that is being connected, after which she goes by another nick. -/
def renamedChat : List (Nat × Op) :=
  [(0, .dccLine "alice".toList "net".toList "ascii".toList "10.0.0.1".toList 4000 none [] [] true),
    (1, .cmdDccChat "net".toList "ascii".toList (some "alice".toList) false true none),
    (2, .updateNick "net".toList "ascii".toList "alice".toList "bob".toList),
    (3, .post ⟨⟨0, "alice".toList⟩, .connected⟩)]

/-- Her old nick is taken by someone who offers a chat as well. -/
def takenNick : List (Nat × Op) :=
  renamedChat ++ [(4, .dccLine "alice".toList "net".toList "ascii".toList "10.0.0.2".toList 4001
    none [] [] true)]

end Runs

end Repartee.Dcc
