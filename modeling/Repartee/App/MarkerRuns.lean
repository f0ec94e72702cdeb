import Repartee.App.ReadMarkers
import Repartee.State.ReadConfluence

/-!
What becomes of a wanted read marker over a run: it stays until the server confirms it, refuses it,
or the connection it belongs to is another one.
-/

namespace Repartee.MarkRead

open Text Lib Irc

variable (P : MarkerPlatform)

/-- What the application does, one event at a time. `world` is everything else it does to buffers
and connections; `forget` drops the markers of a connection that is closed for good. -/
inductive MarkerOp where
  | world (state : State.AppState) (ircHandles : List Str)
  | reconnect (connId : Str)
  | forget (connId : Str)
  | markVisible (accepts : MarkerRequest → Bool) (now : Nat) (bufferId : Str) (messageId : Nat)
  | tick (accepts : MarkerRequest → Bool) (now : Nat)
  | line (connId command : Str) (params : List Str) (now : Nat)

/-- The application after an event, and the requests that leave with it. -/
def exec (app : App) : MarkerOp → App × List MarkerRequest
  | .world state ircHandles => ({ app with state := state, ircHandles := ircHandles }, [])
  | .reconnect connId => (app.reconnectReadMarkers connId, [])
  | .forget connId => ({ app with readMarkers := app.readMarkers.erase connId }, [])
  | .markVisible accepts now bufferId messageId =>
      app.markVisibleMessageRead P accepts now bufferId messageId
  | .tick accepts now => app.tickReadMarkers P accepts now
  | .line connId command params now => (app.handleReadMarker P connId command params now, [])

section Markers

variable {P} {m m' m₁ m₂ m₃ : ReadMarkers}

/-- A name under which a target goes over the wire. -/
def Names (P : MarkerPlatform) (t name : Str) : Prop := P.unicode.toLowercase name = t ∨ name = t

/-- What is wanted is above what is confirmed, and a target is sent under a name of its own. -/
structure Sound (P : MarkerPlatform) (m : ReadMarkers) : Prop where
  above : ∀ t desired confirmed, m.desired.get? t = some desired →
    m.confirmed.get? t = some (some confirmed) → confirmed < desired
  named : ∀ t name, m.wireTargets.get? t = some name → Names P t name

/-- Bookkeeping that touches nothing that is wanted or confirmed. -/
structure SameBook (m m' : ReadMarkers) : Prop where
  scope : m'.scope = m.scope
  desired : m'.desired = m.desired
  confirmed : m'.confirmed = m.confirmed

theorem SameBook.refl (m : ReadMarkers) : SameBook m m := ⟨rfl, rfl, rfl⟩

theorem SameBook.trans (first : SameBook m₁ m₂) (second : SameBook m₂ m₃) : SameBook m₁ m₃ :=
  ⟨second.scope.trans first.scope, second.desired.trans first.desired,
    second.confirmed.trans first.confirmed⟩

/-- What is wanted of a target is wanted still, or more is. -/
def Wanted (t : Str) (m m' : ReadMarkers) : Prop :=
  ∀ desired, m.desired.get? t = some desired →
    ∃ more, m'.desired.get? t = some more ∧ desired ≤ more

/-- What is confirmed of a target does not go back. -/
def Forward (t : Str) (m m' : ReadMarkers) : Prop :=
  ∀ confirmed, m.confirmed.get? t = some confirmed →
    ∃ newer, m'.confirmed.get? t = some newer ∧ markerLe confirmed newer = true

theorem markerLe_refl (a : Option Int) : markerLe a a = true := by
  cases a with
  | none => rfl
  | some a => exact decide_eq_true (le_refl a)

theorem markerLe_trans {a b c : Option Int} (first : markerLe a b = true)
    (second : markerLe b c = true) : markerLe a c = true := by
  cases a with
  | none => rfl
  | some a =>
      cases b with
      | none => exact Bool.noConfusion first
      | some b =>
          cases c with
          | none => exact Bool.noConfusion second
          | some c => exact decide_eq_true ((of_decide_eq_true first).trans (of_decide_eq_true second))

theorem markerLe_total (a b : Option Int) : markerLe a b = true ∨ markerLe b a = true := by
  cases a with
  | none => exact Or.inl rfl
  | some a =>
      cases b with
      | none => exact Or.inr rfl
      | some b =>
          rcases le_total a b with le | le
          · exact Or.inl (decide_eq_true le)
          · exact Or.inr (decide_eq_true le)

theorem Wanted.refl (t : Str) (m : ReadMarkers) : Wanted t m m :=
  fun desired wanted => ⟨desired, wanted, le_refl desired⟩

theorem Wanted.trans {t : Str} (first : Wanted t m₁ m₂) (second : Wanted t m₂ m₃) :
    Wanted t m₁ m₃ := by
  intro desired wanted
  obtain ⟨more, there, le⟩ := first desired wanted
  obtain ⟨most, last, le'⟩ := second more there
  exact ⟨most, last, le.trans le'⟩

theorem Forward.refl (t : Str) (m : ReadMarkers) : Forward t m m :=
  fun confirmed known => ⟨confirmed, known, markerLe_refl confirmed⟩

theorem Forward.trans {t : Str} (first : Forward t m₁ m₂) (second : Forward t m₂ m₃) :
    Forward t m₁ m₃ := by
  intro confirmed known
  obtain ⟨newer, there, le⟩ := first confirmed known
  obtain ⟨newest, last, le'⟩ := second newer there
  exact ⟨newest, last, markerLe_trans le le'⟩

theorem SameBook.wanted (same : SameBook m m') (t : Str) : Wanted t m m' := by
  intro desired wanted
  exact ⟨desired, by rw [same.desired]; exact wanted, le_refl desired⟩

theorem SameBook.forward (same : SameBook m m') (t : Str) : Forward t m m' := by
  intro confirmed known
  exact ⟨confirmed, by rw [same.confirmed]; exact known, markerLe_refl confirmed⟩

theorem SameBook.sound (same : SameBook m m') (sound : Sound P m)
    (named : ∀ t name, m'.wireTargets.get? t = some name → Names P t name) : Sound P m' where
  above t desired confirmed wanted known := by
    rw [same.desired] at wanted
    rw [same.confirmed] at known
    exact sound.above t desired confirmed wanted known
  named := named

theorem default_sound (scope : Str) : Sound P { ReadMarkers.default with scope := scope } := by
  constructor <;> intro t _ <;> simp [ReadMarkers.default, Map.get?, Table.find?, Table.empty]

theorem prepareScope_sound (sound : Sound P m) (scope : Str) : Sound P (m.prepareScope scope) := by
  unfold ReadMarkers.prepareScope
  split
  · exact sound
  · exact default_sound scope

theorem prepareScope_same (m : ReadMarkers) : m.prepareScope m.scope = m := by
  simp [ReadMarkers.prepareScope]

theorem reconnect_sound (sound : Sound P m) : Sound P m.reconnect where
  above t desired confirmed _ known := by
    simp [ReadMarkers.reconnect, Map.get?, Table.find?, Table.empty] at known
  named := sound.named

/-- Reading further wants more, and never less. -/
theorem want_spec (m : ReadMarkers) (target : Str) (millis : Int) :
    (m.want target millis).scope = m.scope ∧
    (m.want target millis).confirmed = m.confirmed ∧
    (m.want target millis).wireTargets = m.wireTargets ∧
    ((m.want target millis).desired = m.desired ∨
      (m.want target millis).desired =
          m.desired.insert target (max ((m.desired.get? target).getD millis) millis) ∧
        ∀ confirmed, m.confirmed.get? target = some (some confirmed) → confirmed < millis) := by
  obtain ⟨scope, confirmed, named, desired⟩ : (m.forgetRefusal target).scope = m.scope ∧
      (m.forgetRefusal target).confirmed = m.confirmed ∧
      (m.forgetRefusal target).wireTargets = m.wireTargets ∧
      (m.forgetRefusal target).desired = m.desired := by
    unfold ReadMarkers.forgetRefusal
    split <;> exact ⟨rfl, rfl, rfl, rfl⟩
  simp only [ReadMarkers.want]
  split
  · exact ⟨rfl, rfl, rfl, Or.inl rfl⟩
  · split
    · exact ⟨scope, confirmed, named, Or.inl desired⟩
    · next below =>
        refine ⟨scope, confirmed, named, Or.inr ⟨by rw [desired], ?_⟩⟩
        intro time known
        rw [confirmed, known] at below
        simpa using below

theorem want_wanted (target : Str) (millis : Int) (t : Str) : Wanted t m (m.want target millis) := by
  obtain ⟨_, _, _, desired⟩ := want_spec m target millis
  intro old wanted
  rcases desired with same | ⟨raised, _⟩
  · exact ⟨old, by rw [same]; exact wanted, le_refl old⟩
  · rw [raised, Map.get?_insert]
    by_cases here : target = t
    · subst here
      rw [if_pos rfl, wanted]
      exact ⟨_, rfl, le_max_left _ _⟩
    · rw [if_neg here]
      exact ⟨old, wanted, le_refl old⟩

theorem want_forward (target : Str) (millis : Int) (t : Str) :
    Forward t m (m.want target millis) := by
  intro confirmed known
  exact ⟨confirmed, by rw [(want_spec m target millis).2.1]; exact known, markerLe_refl confirmed⟩

theorem want_sound (sound : Sound P m) (target : Str) (millis : Int) :
    Sound P (m.want target millis) := by
  obtain ⟨_, confirmed, named, desired⟩ := want_spec m target millis
  rcases desired with same | ⟨raised, ahead⟩
  · constructor
    · intro t d c wanted known
      rw [same] at wanted
      rw [confirmed] at known
      exact sound.above t d c wanted known
    · intro t name wire
      rw [named] at wire
      exact sound.named t name wire
  · constructor
    · intro t d c wanted known
      rw [raised, Map.get?_insert] at wanted
      rw [confirmed] at known
      by_cases here : target = t
      · subst here
        rw [if_pos rfl, Option.some.injEq] at wanted
        have first := ahead c known
        have second := le_max_right ((m.desired.get? target).getD millis) millis
        omega
      · rw [if_neg here] at wanted
        exact sound.above t d c wanted known
    · intro t name wire
      rw [named] at wire
      exact sound.named t name wire

/-- A receipt moves the confirmed marker forward, and ends the wish it fulfils. -/
theorem receive_spec (m : ReadMarkers) (name : Str) (marker : Option Int) :
    let target := P.unicode.toLowercase name
    let m' := (m.receive P name marker).1
    m'.scope = m.scope ∧ m'.wireTargets = m.wireTargets ∧
    (m'.confirmed = m.confirmed ∧ m'.desired = m.desired ∨
      m'.confirmed = m.confirmed.insert target marker ∧
      (∀ old, m.confirmed.get? target = some old → markerLe old marker = true) ∧
      (m'.desired = m.desired ∧
          (∀ time desired, marker = some time → m.desired.get? target = some desired →
            time < desired) ∨
        m'.desired = m.desired.erase target ∧
          ∃ time desired, marker = some time ∧ m.desired.get? target = some desired ∧
            desired ≤ time)) := by
  intro target m'
  cases stale : (m.settle target marker).stale target marker with
  | true =>
      have same : m' = m.settle target marker := by
        simp only [m', ReadMarkers.receive, target, stale, if_true]
      rw [same]
      exact ⟨rfl, rfl, Or.inl ⟨rfl, rfl⟩⟩
  | false =>
      have newer : ∀ old, m.confirmed.get? target = some old → markerLe old marker = true := by
        intro old known
        have unequal : markerLe marker old = false := by
          have kept : (m.settle target marker).confirmed = m.confirmed := rfl
          simpa [ReadMarkers.stale, kept, known] using stale
        exact (markerLe_total old marker).resolve_right (by simp [unequal])
      cases done : (m.settle target marker).fulfilled target marker with
      | true =>
          have same : m' = { m.settle target marker with
              desired := m.desired.erase target
              sent := m.sent.erase target
              confirmed := m.confirmed.insert target marker } := by
            simp only [m', ReadMarkers.receive, target, stale, done, if_true, Bool.false_eq_true,
              if_false]
            rfl
          rw [same]
          refine ⟨rfl, rfl, Or.inr ⟨rfl, newer, Or.inr ⟨rfl, ?_⟩⟩⟩
          have kept : (m.settle target marker).desired = m.desired := rfl
          simp only [ReadMarkers.fulfilled, kept, Option.any_eq_true, decide_eq_true_eq] at done
          obtain ⟨time, given, desired, wanted, reached⟩ := done
          exact ⟨time, desired, given, wanted, reached⟩
      | false =>
          have same : m' = { m.settle target marker with
              confirmed := m.confirmed.insert target marker } := by
            simp only [m', ReadMarkers.receive, target, stale, done, Bool.false_eq_true, if_false]
            rfl
          rw [same]
          refine ⟨rfl, rfl, Or.inr ⟨rfl, newer, Or.inl ⟨rfl, ?_⟩⟩⟩
          intro time desired given wanted
          have kept : (m.settle target marker).desired = m.desired := rfl
          subst given
          simpa [ReadMarkers.fulfilled, kept, wanted] using done

theorem receive_sound (sound : Sound P m) (name : Str) (marker : Option Int) :
    Sound P (m.receive P name marker).1 := by
  obtain ⟨_, named, news⟩ := receive_spec (P := P) m name marker
  have wires : ∀ t wire, (m.receive P name marker).1.wireTargets.get? t = some wire →
      Names P t wire := by
    intro t wire known
    rw [named] at known
    exact sound.named t wire known
  rcases news with ⟨confirmed, desired⟩ | ⟨confirmed, _, ⟨desired, ahead⟩ | ⟨desired, _⟩⟩
  · refine ⟨?_, wires⟩
    · intro t d c wanted known
      rw [desired] at wanted
      rw [confirmed] at known
      exact sound.above t d c wanted known
  · refine ⟨?_, wires⟩
    · intro t d c wanted known
      rw [desired] at wanted
      rw [confirmed, Map.get?_insert] at known
      split at known
      · next here =>
          subst here
          exact ahead c d (Option.some.inj known) wanted
      · exact sound.above t d c wanted known
  · refine ⟨?_, wires⟩
    · intro t d c wanted known
      rw [desired, Map.get?_erase] at wanted
      rw [confirmed, Map.get?_insert] at known
      split at known
      · next here => rw [if_pos here] at wanted; cases wanted
      · next other =>
          rw [if_neg other] at wanted
          exact sound.above t d c wanted known

theorem receive_forward (name : Str) (marker : Option Int) (t : Str) :
    Forward t m (m.receive P name marker).1 := by
  obtain ⟨_, _, news⟩ := receive_spec (P := P) m name marker
  intro old known
  rcases news with ⟨confirmed, _⟩ | ⟨confirmed, newer, _⟩
  · exact ⟨old, by rw [confirmed]; exact known, markerLe_refl old⟩
  · rw [confirmed, Map.get?_insert]
    split
    · next here => exact ⟨marker, rfl, newer old (here ▸ known)⟩
    · exact ⟨old, known, markerLe_refl old⟩

/-- A receipt ends a wish only by reaching it. -/
theorem receive_wanted (name : Str) (marker : Option Int) (t : Str) (desired : Int)
    (wanted : m.desired.get? t = some desired) :
    (m.receive P name marker).1.desired.get? t = some desired ∨
      P.unicode.toLowercase name = t ∧ ∃ time, marker = some time ∧ desired ≤ time := by
  obtain ⟨_, _, news⟩ := receive_spec (P := P) m name marker
  rcases news with ⟨_, same⟩ | ⟨_, _, ⟨same, _⟩ | ⟨erased, time, old, given, known, reached⟩⟩
  · exact Or.inl (by rw [same]; exact wanted)
  · exact Or.inl (by rw [same]; exact wanted)
  · rw [erased, Map.get?_erase]
    by_cases here : P.unicode.toLowercase name = t
    · right
      refine ⟨here, time, given, ?_⟩
      rw [here, wanted] at known
      exact (Option.some.inj known).le.trans reached
    · rw [if_neg here]
      exact Or.inl wanted

/-- A refusal ends a wish only if it asked for as much. -/
theorem refuse_spec (m : ReadMarkers) (target : Str) (rejected : Option Int) :
    (m.refuse target rejected).scope = m.scope ∧
    (m.refuse target rejected).confirmed = m.confirmed ∧
    (m.refuse target rejected).wireTargets = m.wireTargets ∧
    ((m.refuse target rejected).desired = m.desired ∨
      (m.refuse target rejected).desired = m.desired.erase target ∧
        ∃ time, rejected = some time ∧
          ∀ desired, m.desired.get? target = some desired → desired ≤ time) := by
  cases rejected with
  | none => exact ⟨rfl, rfl, rfl, Or.inl rfl⟩
  | some time =>
      have reached : ((m.desired.get? target).all fun desired => decide (desired ≤ time)) = true →
          ∀ desired, m.desired.get? target = some desired → desired ≤ time := by
        intro below desired wanted
        rw [wanted] at below
        exact of_decide_eq_true below
      simp only [ReadMarkers.refuse]
      split
      · split
        · next below =>
            exact ⟨rfl, rfl, rfl, Or.inr ⟨rfl, time, rfl, reached below⟩⟩
        · exact ⟨rfl, rfl, rfl, Or.inl rfl⟩
      · split
        · next below =>
            exact ⟨rfl, rfl, rfl, Or.inr ⟨rfl, time, rfl, reached below⟩⟩
        · exact ⟨rfl, rfl, rfl, Or.inl rfl⟩

/-- A failure ends a wish only if the request it answers asked for as much. -/
theorem failed_spec (code : Str) (context : Option Str) (now : Nat)
    (failure : m.failed P code context now = some m') :
    ∃ request ∈ m.pending, ReadMarkers.answers P context request = true ∧
      m'.scope = m.scope ∧ m'.confirmed = m.confirmed ∧ m'.wireTargets = m.wireTargets ∧
      (m'.desired = m.desired ∨
        m'.desired = m.desired.erase request.target ∧
          ¬(code = ReadMarkers.internalError ∧ (m.failures.get? request.target).getD 0 + 1 < 3) ∧
          ∃ rejected, request.timestamp = some rejected ∧
            ∀ desired, m.desired.get? request.target = some desired → desired ≤ rejected) := by
  simp only [ReadMarkers.failed, Option.map_eq_some_iff] at failure
  rcases failure with ⟨request, found, outcome⟩
  apply Exists.intro request
  apply And.intro (List.mem_of_find?_eq_some found)
  apply And.intro (List.find?_some found)
  split at outcome
  · subst outcome
    exact ⟨rfl, rfl, rfl, Or.inl rfl⟩
  · next final =>
      subst outcome
      have spec := refuse_spec { m with
        pending := m.pending.eraseP (ReadMarkers.answers P context)
        failures := m.failures.insert request.target
          (min ((m.failures.get? request.target).getD 0 + 1) 255) } request.target request.timestamp
      apply And.intro spec.1
      apply And.intro spec.2.1
      apply And.intro spec.2.2.1
      cases spec.2.2.2 with
      | inl same => exact Or.inl same
      | inr erased =>
          apply Or.inr
          apply And.intro erased.1
          constructor
          · intro retried
            apply final
            exact ⟨retried.1, by omega⟩
          · exact erased.2

theorem failed_sound {code : Str} {context : Option Str} {now : Nat}
    (failure : m.failed P code context now = some m') (sound : Sound P m) : Sound P m' := by
  rcases failed_spec code context now failure with
    ⟨request, _, _, _, confirmed, named, same | ⟨erased, _, _⟩⟩
  · constructor
    · intro t d c wanted known
      rw [same] at wanted
      rw [confirmed] at known
      exact sound.above t d c wanted known
    · intro t name wire
      rw [named] at wire
      exact sound.named t name wire
  · constructor
    · intro t d c wanted known
      rw [erased, Map.get?_erase] at wanted
      rw [confirmed] at known
      split at wanted
      · cases wanted
      · exact sound.above t d c wanted known
    · intro t name wire
      rw [named] at wire
      exact sound.named t name wire

end Markers

section Sending

variable {P} {accepts : MarkerRequest → Bool} {now : Nat} {connId command : Str}

/-- The parameters ask for the marker of a target that nothing is wanted of, or say what is wanted
of it now. -/
def Carries (P : MarkerPlatform) (m : ReadMarkers) (params : List Str) : Prop :=
  ∃ t name, Names P t name ∧
    (params = [name] ∧ m.desired.get? t = none ∨
      ∃ desired, m.desired.get? t = some desired ∧ params = [name, timestampText P desired])

theorem SameBook.carries {m m' : ReadMarkers} (same : SameBook m m') {params : List Str}
    (carried : Carries P m params) : Carries P m' params := by
  simpa only [Carries, same.desired] using carried

/-- What a tick keeps while it goes through the targets of one connection. -/
structure SentFrom (P : MarkerPlatform) (connId : Str) (before : Sending) (after : Sending) :
    Prop where
  book : SameBook before.markers after.markers
  named : ∀ t name, after.markers.wireTargets.get? t = some name → Names P t name
  requests : ∀ request ∈ after.requests, request ∈ before.requests ∨
    request.connId = connId ∧ Carries P before.markers request.params

theorem withWireName_book (m : ReadMarkers) (t name : Str) : SameBook m (m.withWireName t name) := by
  unfold ReadMarkers.withWireName
  split
  · exact SameBook.refl m
  · exact ⟨rfl, rfl, rfl⟩

theorem withWireName_named {m : ReadMarkers}
    (named : ∀ t name, m.wireTargets.get? t = some name → Names P t name) {target name : Str}
    (entryNamed : Names P target name) (t wire : Str)
    (known : (m.withWireName target name).wireTargets.get? t = some wire) : Names P t wire := by
  unfold ReadMarkers.withWireName at known
  split at known
  · exact named t wire known
  · rw [Map.get?_insert] at known
    split at known
    · next here => exact here ▸ Option.some.inj known ▸ entryNamed
    · exact named t wire known

theorem sendTarget_sent (tick : Sending) (entry : Str × Str)
    (named : ∀ t name, tick.markers.wireTargets.get? t = some name → Names P t name)
    (entryNamed : Names P entry.1 entry.2) :
    SentFrom P connId tick (sendTarget P accepts now connId command tick entry) := by
  have still : SentFrom P connId tick tick :=
    ⟨SameBook.refl _, named, fun _ old => Or.inl old⟩
  have stopping : SentFrom P connId tick { tick with stopped := true } :=
    ⟨SameBook.refl _, named, fun _ old => Or.inl old⟩
  have book := withWireName_book tick.markers entry.1 entry.2
  have names := withWireName_named named entryNamed
  simp only [sendTarget]
  split
  · exact still
  split
  · exact stopping
  split
  · exact still
  split
  · next millis wanted =>
      -- the name is remembered before the request is offered, whether or not it is taken
      split
      · exact ⟨book, names, fun _ old => Or.inl old⟩
      · constructor
        · exact ⟨book.scope, book.desired, book.confirmed⟩
        · exact names
        · intro request member
          cases List.mem_append.mp member with
          | inl old => exact Or.inl old
          | inr new =>
              have wire : Names P entry.1
                  (((tick.markers.withWireName entry.1 entry.2).wireTargets.get? entry.1).getD
                    entry.2) := by
                cases known : (tick.markers.withWireName entry.1 entry.2).wireTargets.get? entry.1 with
                | some name => exact names entry.1 name known
                | none => exact entryNamed
              apply Or.inr
              rw [List.mem_singleton.mp new]
              exact ⟨rfl, entry.1, _, wire, Or.inr ⟨millis, wanted, rfl⟩⟩
  · next unwanted =>
      split
      · exact still
      · constructor
        · exact ⟨rfl, rfl, rfl⟩
        · exact named
        · intro request member
          cases List.mem_append.mp member with
          | inl old => exact Or.inl old
          | inr new =>
              apply Or.inr
              rw [List.mem_singleton.mp new]
              exact ⟨rfl, entry.1, entry.2, entryNamed, Or.inl ⟨rfl, unwanted⟩⟩

theorem sendTargets_sent (entries : List (Str × Str)) (tick : Sending)
    (named : ∀ t name, tick.markers.wireTargets.get? t = some name → Names P t name)
    (entriesNamed : ∀ entry ∈ entries, Names P entry.1 entry.2) :
    SentFrom P connId tick (entries.foldl (sendTarget P accepts now connId command) tick) := by
  induction entries generalizing tick with
  | nil => exact ⟨SameBook.refl _, named, fun _ old => Or.inl old⟩
  | cons entry rest ih =>
      have first : SentFrom P connId tick (sendTarget P accepts now connId command tick entry) :=
        sendTarget_sent tick entry named (entriesNamed entry List.mem_cons_self)
      have later := ih _ first.named fun e member => entriesNamed e (List.mem_cons_of_mem _ member)
      constructor
      · exact first.book.trans later.book
      · exact later.named
      · intro request member
        cases later.requests request member with
        | inl old => exact first.requests request old
        | inr new =>
            have back : SameBook _ tick.markers :=
              ⟨first.book.scope.symm, first.book.desired.symm, first.book.confirmed.symm⟩
            exact Or.inr ⟨new.1, back.carries new.2⟩

theorem conversations_named (app : App) (connId : Str) (entry : Str × Str)
    (member : entry ∈ (app.conversations P connId).rows) : Names P entry.1 entry.2 := by
  have kept : ∀ (rows : List (Str × State.Buffer)) (targets : Map Str Str),
      (∀ e ∈ targets.rows, Names P e.1 e.2) →
      ∀ e ∈ (rows.foldl (fun (targets : Map Str Str) e =>
        targets.insert (P.unicode.toLowercase e.2.name) e.2.name) targets).rows,
          Names P e.1 e.2 := by
    intro rows
    induction rows with
    | nil => exact fun _ named => named
    | cons row rest ih =>
        intro targets named
        apply ih
        intro e inserted
        cases (Table.mem_replace _ _ _).mp inserted with
        | inl old => exact named e old.1
        | inr new => exact new ▸ Or.inl rfl
  exact kept _ Table.empty (fun _ impossible => (List.not_mem_nil impossible).elim) entry member

theorem prioritizedTargets_named (m : ReadMarkers) (targets : Map Str Str)
    (named : ∀ t name, m.wireTargets.get? t = some name → Names P t name)
    (targetsNamed : ∀ e ∈ targets.rows, Names P e.1 e.2) (entry : Str × Str)
    (member : entry ∈ m.prioritizedTargets targets) : Names P entry.1 entry.2 := by
  have kept : ∀ (rows : List (Str × Int)) (all : Map Str Str),
      (∀ e ∈ all.rows, Names P e.1 e.2) →
      ∀ e ∈ (rows.foldl (fun (all : Map Str Str) wanted =>
        if (all.get? wanted.1).isSome then all
        else all.insert wanted.1 ((m.wireTargets.get? wanted.1).getD wanted.1)) all).rows,
          Names P e.1 e.2 := by
    intro rows
    induction rows with
    | nil => exact fun _ allNamed => allNamed
    | cons row rest ih =>
        intro all allNamed
        apply ih
        intro e inserted
        dsimp only at inserted
        split at inserted
        · exact allNamed e inserted
        · cases (Table.mem_replace _ _ _).mp inserted with
          | inl old => exact allNamed e old.1
          | inr new =>
              subst new
              cases known : m.wireTargets.get? row.1 with
              | some name => exact named row.1 name known
              | none => exact Or.inr rfl
  have inAll := (List.perm_insertionSort _ _).mem_iff.mp
    ((List.perm_insertionSort _ _).mem_iff.mp member)
  exact kept _ targets targetsNamed entry inAll

end Sending

section Runs

variable {P} {app app' app'' : App}

namespace App

/-- The markers kept for a connection belong to the network it is on. -/
def InScope (app : App) (c : Str) : Prop :=
  (app.state.connections.get? c).map State.Connection.networkKey = some (app.markersOf c).scope

def AllSound (P : MarkerPlatform) (app : App) : Prop := ∀ c, Sound P (app.markersOf c)

theorem markersOf_setMarkers (connId : Str) (m : ReadMarkers) (c : Str) :
    (app.setMarkers connId m).markersOf c = if connId = c then m else app.markersOf c := by
  simp only [markersOf, setMarkers, Map.get?_insert]
  split <;> rfl

theorem setMarkers_sound {m : ReadMarkers} (sound : app.AllSound P) (connId : Str)
    (marked : Sound P m) : (app.setMarkers connId m).AllSound P := by
  intro c
  rw [markersOf_setMarkers]
  split
  · exact marked
  · exact sound c

/-- Among the markers of connections that stay on their network, wishes stay and what is confirmed
only moves forward. -/
structure Kept (app app' : App) : Prop where
  connections : app'.state.connections = app.state.connections
  scope : ∀ c, app.InScope c → (app'.markersOf c).scope = (app.markersOf c).scope
  wanted : ∀ c, app.InScope c → ∀ t, Wanted t (app.markersOf c) (app'.markersOf c)
  forward : ∀ c, app.InScope c → ∀ t, Forward t (app.markersOf c) (app'.markersOf c)

theorem Kept.refl (app : App) : Kept app app :=
  ⟨rfl, fun _ _ => rfl, fun _ _ t => Wanted.refl t _, fun _ _ t => Forward.refl t _⟩

theorem Kept.inScope (kept : Kept app app') {c : Str} (scoped_ : app.InScope c) : app'.InScope c := by
  unfold InScope
  rw [kept.connections, kept.scope c scoped_]
  exact scoped_

theorem Kept.trans (first : Kept app app') (second : Kept app' app'') : Kept app app'' where
  connections := second.connections.trans first.connections
  scope c here := (second.scope c (first.inScope here)).trans (first.scope c here)
  wanted c here t := (first.wanted c here t).trans (second.wanted c (first.inScope here) t)
  forward c here t := (first.forward c here t).trans (second.forward c (first.inScope here) t)

theorem Kept.of_book (connections : app'.state.connections = app.state.connections)
    (book : ∀ c, app.InScope c → SameBook (app.markersOf c) (app'.markersOf c)) : Kept app app' where
  connections := connections
  scope c here := (book c here).scope
  wanted c here := (book c here).wanted
  forward c here := (book c here).forward

end App

theorem prepareScope_scope (m : ReadMarkers) (scope : Str) : (m.prepareScope scope).scope = scope := by
  unfold ReadMarkers.prepareScope
  split
  · assumption
  · rfl

/-- Preparing the scope of a connection that is on its network changes nothing. -/
theorem prepareScope_inScope {connId : Str} {conn : State.Connection}
    (connected : app.state.connections.get? connId = some conn) (inScope : app.InScope connId) :
    (app.markersOf connId).prepareScope conn.networkKey = app.markersOf connId := by
  have same : conn.networkKey = (app.markersOf connId).scope := by
    simpa [App.InScope, connected] using inScope
  rw [same]
  exact prepareScope_same _

/-- What a tick has done after some of the connections. -/
structure Ticked (P : MarkerPlatform) (app : App) (tick : App × Nat × Bool × List MarkerRequest) :
    Prop where
  state : tick.1.state = app.state
  book : ∀ c, app.InScope c → SameBook (app.markersOf c) (tick.1.markersOf c)
  sound : tick.1.AllSound P
  requests : ∀ request ∈ tick.2.2.2, tick.1.InScope request.connId ∧
    Carries P (tick.1.markersOf request.connId) request.params

theorem tickConnection_ticked (accepts : MarkerRequest → Bool) (now : Nat)
    (tick : App × Nat × Bool × List MarkerRequest) (entry : Str × State.Connection)
    (ticked : Ticked P app tick) (connected : app.state.connections.get? entry.1 = some entry.2) :
    Ticked P app (App.tickConnection P accepts now tick entry) := by
  simp only [App.tickConnection]
  split
  · exact ticked
  split
  · exact ticked
  split
  · exact ticked
  next command _ _ =>
    have here : tick.1.state.connections.get? entry.1 = some entry.2 := by
      rw [ticked.state]
      exact connected
    generalize live_eq : { (tick.1.markersOf entry.1).prepareScope entry.2.networkKey with
      pending := ((tick.1.markersOf entry.1).prepareScope entry.2.networkKey).pending.filter
        fun request => decide (now - request.sentAt < 45000) } = live
    have prepared : SameBook ((tick.1.markersOf entry.1).prepareScope entry.2.networkKey) live := by
      subst live_eq
      exact ⟨rfl, rfl, rfl⟩
    have sound : Sound P live := by
      have before := prepareScope_sound (ticked.sound entry.1) entry.2.networkKey
      subst live_eq
      exact ⟨before.above, before.named⟩
    have turn : SentFrom P entry.1 ⟨live, tick.2.1, false, tick.2.2.2⟩
        (List.foldl (sendTarget P accepts now entry.1 command) ⟨live, tick.2.1, false, tick.2.2.2⟩
          (live.prioritizedTargets (tick.1.conversations P entry.1))) :=
      sendTargets_sent _ _ sound.named
        (prioritizedTargets_named live _ sound.named (conversations_named tick.1 entry.1))
    generalize List.foldl (sendTarget P accepts now entry.1 command)
      ⟨live, tick.2.1, false, tick.2.2.2⟩
      (live.prioritizedTargets (tick.1.conversations P entry.1)) = sending at turn
    -- a connection on its network keeps its book through its own turn
    have same : tick.1.InScope entry.1 → SameBook (tick.1.markersOf entry.1) sending.markers := by
      intro inScope
      have book := prepared.trans turn.book
      rw [prepareScope_inScope here inScope] at book
      exact book
    have scope : sending.markers.scope = entry.2.networkKey :=
      (prepared.trans turn.book).scope.trans (prepareScope_scope _ _)
    have before : ∀ c, app.InScope c → tick.1.InScope c := by
      intro c inScope
      exact (App.Kept.of_book (congrArg State.AppState.connections ticked.state)
        ticked.book).inScope inScope
    have reached : (tick.1.setMarkers entry.1 sending.markers).InScope entry.1 := by
      unfold App.InScope
      rw [App.markersOf_setMarkers, if_pos rfl, scope]
      exact congrArg (Option.map State.Connection.networkKey) here
    constructor
    · exact ticked.state
    · intro c inScope
      rw [App.markersOf_setMarkers]
      split
      · next own =>
          subst own
          exact (ticked.book _ inScope).trans (same (before _ inScope))
      · exact ticked.book c inScope
    · exact App.setMarkers_sound ticked.sound entry.1 (turn.book.sound sound turn.named)
    · intro request member
      by_cases own : entry.1 = request.connId
      · rw [← own]
        apply And.intro reached
        rw [App.markersOf_setMarkers, if_pos rfl]
        cases turn.requests request member with
        | inl old =>
            have known := ticked.requests request old
            rw [← own] at known
            exact (same known.1).carries known.2
        | inr new => exact turn.book.carries new.2
      · cases turn.requests request member with
        | inl old =>
            have known := ticked.requests request old
            have elsewhere : (tick.1.setMarkers entry.1 sending.markers).markersOf request.connId =
                tick.1.markersOf request.connId :=
              (App.markersOf_setMarkers entry.1 sending.markers request.connId).trans (if_neg own)
            unfold App.InScope
            rw [elsewhere]
            exact known
        | inr new => exact absurd new.1.symm own

theorem tickConnections_ticked (accepts : MarkerRequest → Bool) (now : Nat)
    (entries : List (Str × State.Connection)) (tick : App × Nat × Bool × List MarkerRequest)
    (ticked : Ticked P app tick)
    (connected : ∀ entry ∈ entries, app.state.connections.get? entry.1 = some entry.2) :
    Ticked P app (entries.foldl (App.tickConnection P accepts now) tick) := by
  induction entries generalizing tick with
  | nil => exact ticked
  | cons entry rest ih =>
      apply ih
      · exact tickConnection_ticked accepts now tick entry ticked
          (connected entry List.mem_cons_self)
      · exact fun e member => connected e (List.mem_cons_of_mem _ member)

/-- A tick changes no wish and no confirmation, and what it sends is what is wanted. -/
theorem tick_spec (accepts : MarkerRequest → Bool) (now : Nat) (sound : app.AllSound P) :
    App.Kept app (app.tickReadMarkers P accepts now).1 ∧
    (app.tickReadMarkers P accepts now).1.AllSound P ∧
    ∀ request ∈ (app.tickReadMarkers P accepts now).2,
      Carries P ((app.tickReadMarkers P accepts now).1.markersOf request.connId) request.params := by
  have markers : ∀ c, ({ app with readMarkers := app.readMarkers.retain fun id _ =>
      (app.state.connections.get? id).isSome } : App).markersOf c =
        if (app.state.connections.get? c).isSome then app.markersOf c else .default := by
    intro c
    simp only [App.markersOf, Map.get?_retain]
    cases app.readMarkers.get? c with
    | none => simp
    | some m => cases (app.state.connections.get? c).isSome <;> rfl
  have first : Ticked P app ({ app with readMarkers := app.readMarkers.retain fun id _ =>
      (app.state.connections.get? id).isSome }, 8, false, []) := by
    constructor
    · rfl
    · intro c inScope
      have open_ : (app.state.connections.get? c).isSome := by
        cases known : app.state.connections.get? c with
        | none => simp [App.InScope, known] at inScope
        | some conn => rfl
      rw [markers c, if_pos open_]
      exact SameBook.refl _
    · intro c
      rw [markers c]
      split
      · exact sound c
      · exact default_sound []
    · exact fun _ impossible => (List.not_mem_nil impossible).elim
  have last := tickConnections_ticked accepts now app.state.connections.rows _ first
    fun entry member => (Map.get?_eq_some _ _ _).mpr member
  apply And.intro
  · exact App.Kept.of_book (congrArg State.AppState.connections last.state) last.book
  · exact ⟨last.sound, fun request member => (last.requests request member).2⟩

/-- Reading a boundary wants its target further, and forgets nothing. -/
theorem markBoundary_kept (connId : Str) (conn : State.Connection) (boundary : Str × Int)
    (connected : app.state.connections.get? connId = some conn) :
    App.Kept app (App.markBoundary P connId conn.networkKey app boundary) := by
  unfold App.markBoundary
  cases splitOnce '/' boundary.1 with
  | none => exact App.Kept.refl app
  | some parts =>
      have applied : App.Kept app (app.setMarkers connId (((app.markersOf connId).prepareScope
          conn.networkKey).want (P.unicode.toLowercase parts.2) boundary.2)) := by
        have elsewhere : ∀ c, app.InScope c → connId = c →
            (app.markersOf connId).prepareScope conn.networkKey = app.markersOf c := by
          intro c inScope own
          subst own
          exact prepareScope_inScope connected inScope
        constructor
        · rfl
        · intro c inScope
          rw [App.markersOf_setMarkers]
          split
          · next own =>
              rw [elsewhere c inScope own]
              exact (want_spec _ _ _).1
          · rfl
        · intro c inScope t
          rw [App.markersOf_setMarkers]
          split
          · next own =>
              rw [elsewhere c inScope own]
              exact want_wanted _ _ t
          · exact Wanted.refl t _
        · intro c inScope t
          rw [App.markersOf_setMarkers]
          split
          · next own =>
              rw [elsewhere c inScope own]
              exact want_forward _ _ t
          · exact Forward.refl t _
      dsimp only
      split
      · exact applied
      · apply applied.trans
        apply App.Kept.of_book
        · exact State.AppState.connections_of_setting (State.marker_setting _ _)
        · exact fun c _ => SameBook.refl _

theorem markBoundary_sound (connId scope : Str) (boundary : Str × Int) (sound : app.AllSound P) :
    (App.markBoundary P connId scope app boundary).AllSound P := by
  unfold App.markBoundary
  cases splitOnce '/' boundary.1 with
  | none => exact sound
  | some parts =>
      have wanted := App.setMarkers_sound sound connId (want_sound
        (prepareScope_sound (sound connId) scope) (P.unicode.toLowercase parts.2) boundary.2)
      dsimp only
      split
      · exact wanted
      · exact wanted

theorem markBoundaries_kept (connId : Str) (conn : State.Connection)
    (boundaries : List (Str × Int)) (app : App)
    (connected : app.state.connections.get? connId = some conn) (sound : app.AllSound P) :
    App.Kept app (boundaries.foldl (App.markBoundary P connId conn.networkKey) app) ∧
    (boundaries.foldl (App.markBoundary P connId conn.networkKey) app).AllSound P := by
  induction boundaries generalizing app with
  | nil => exact ⟨App.Kept.refl app, sound⟩
  | cons boundary rest ih =>
      have first := markBoundary_kept (P := P) connId conn boundary connected
      have still : (App.markBoundary P connId conn.networkKey app boundary).state.connections.get?
          connId = some conn := by
        rw [first.connections]
        exact connected
      have later := ih _ still (markBoundary_sound connId conn.networkKey boundary sound)
      exact ⟨first.trans later.1, later.2⟩

/-- What a line does to the markers: nothing, a receipt, or a failure. -/
theorem handleReadMarker_cases (app : App) (connId command : Str) (params : List Str) (now : Nat) :
    (∀ c, (app.handleReadMarker P connId command params now).markersOf c = app.markersOf c) ∨
    (∃ conn name value marker, params = [name, value] ∧
      (command = "MARKREAD".toList ∨ command = "READ".toList) ∧
      app.state.connections.get? connId = some conn ∧ parseMarker P value = some marker ∧
      ∀ c, (app.handleReadMarker P connId command params now).markersOf c =
        if connId = c then
          (((app.markersOf connId).prepareScope conn.networkKey).receive P name marker).1
        else app.markersOf c) ∨
    ∃ kind code third rest failed, command = "FAIL".toList ∧ params = kind :: code :: third :: rest ∧
      (app.markersOf connId).failed P code (if rest.isEmpty then none else some third) now =
        some failed ∧
      ∀ c, (app.handleReadMarker P connId command params now).markersOf c =
        if connId = c then failed else app.markersOf c := by
  unfold App.handleReadMarker
  split
  · next isFail =>
      unfold App.handleReadMarkerFailure
      split
      · next kind code third rest =>
          cases known : app.readMarkers.get? connId with
          | none => exact Or.inl fun _ => rfl
          | some markers =>
              have same : app.markersOf connId = markers := by
                simp only [App.markersOf, known, Option.getD_some]
              dsimp only
              cases failure : markers.failed P code (if rest.isEmpty then none else some third) now with
              | none => exact Or.inl fun _ => rfl
              | some failed =>
                  apply Or.inr
                  apply Or.inr
                  rw [same]
                  exact ⟨kind, code, third, rest, failed, isFail.1, rfl, failure,
                    App.markersOf_setMarkers connId failed⟩
      · exact Or.inl fun _ => rfl
  split
  · next isMarker =>
      split
      · next conn name value connected _ =>
          split
          · split
            · next marker parsed =>
                apply Or.inr
                apply Or.inl
                apply Exists.intro conn
                apply Exists.intro name
                apply Exists.intro value
                apply Exists.intro marker
                apply And.intro rfl
                apply And.intro isMarker
                apply And.intro connected
                apply And.intro parsed
                intro c
                rw [← App.markersOf_setMarkers]
                simp only [App.handleMarker]
                split
                · rfl
                split
                · rfl
                split <;> rfl
            · exact Or.inl fun _ => rfl
          · exact Or.inl fun _ => rfl
      · exact Or.inl fun _ => rfl
  · exact Or.inl fun _ => rfl

theorem clearVisibleReadRows_setting (s : State.AppState) (bufferId : Str) (messageId : Nat) :
    (s.clearVisibleReadRows bufferId messageId).setting = s.setting := by
  unfold State.AppState.clearVisibleReadRows
  split
  · rfl
  split
  · rfl
  dsimp only
  split
  · rfl
  split
  · rfl
  · exact State.AppState.refreshReadActivity_setting _

theorem markVisible_spec (accepts : MarkerRequest → Bool) (now : Nat) (bufferId : Str)
    (messageId : Nat) (sound : app.AllSound P) :
    App.Kept app (app.markVisibleMessageRead P accepts now bufferId messageId).1 ∧
    (app.markVisibleMessageRead P accepts now bufferId messageId).1.AllSound P ∧
    ∀ request ∈ (app.markVisibleMessageRead P accepts now bufferId messageId).2,
      Carries P ((app.markVisibleMessageRead P accepts now bufferId messageId).1.markersOf
        request.connId) request.params := by
  have still : App.Kept app app ∧ app.AllSound P ∧ ∀ request ∈ ([] : List MarkerRequest),
      Carries P (app.markersOf request.connId) request.params :=
    ⟨App.Kept.refl app, sound, fun _ impossible => (List.not_mem_nil impossible).elim⟩
  unfold App.markVisibleMessageRead
  split
  · exact still
  split
  · exact still
  next buffer _ =>
    split
    · next boundaries conn _ connected =>
        generalize clears : { app with state := app.state.clearVisibleReadRows bufferId messageId } =
          cleared
        have first : App.Kept app cleared := by
          subst clears
          apply App.Kept.of_book
          · exact State.AppState.connections_of_setting (clearVisibleReadRows_setting _ _ _)
          · exact fun c _ => SameBook.refl _
        have open_ : cleared.state.connections.get? buffer.connectionId = some conn := by
          rw [first.connections]
          exact connected
        have clearedSound : cleared.AllSound P := by
          subst clears
          exact sound
        have marked := markBoundaries_kept (P := P) buffer.connectionId conn boundaries.rows cleared
          open_ clearedSound
        dsimp only
        split
        · exact ⟨first.trans marked.1, marked.2, fun _ impossible => (List.not_mem_nil impossible).elim⟩
        · have sent := tick_spec (P := P) accepts now marked.2
          exact ⟨(first.trans marked.1).trans sent.1, sent.2⟩
    · exact still

/-- How the wish for a target up to a time may end: the server confirms at least that much, or
refuses for good a request for at least that much. -/
inductive Ends (P : MarkerPlatform) (app : App) (c t : Str) (desired : Int) : MarkerOp → Prop where
  | confirmed (command name value : Str) (now : Nat) (time : Int)
      (announced : command = "MARKREAD".toList ∨ command = "READ".toList)
      (target : P.unicode.toLowercase name = t) (parsed : parseMarker P value = some (some time))
      (reached : desired ≤ time) : Ends P app c t desired (.line c command [name, value] now)
  | refused (kind code third : Str) (rest : List Str) (now : Nat) (request : PendingMarker)
      (rejected : Int) (pending : request ∈ (app.markersOf c).pending)
      (answered : ReadMarkers.answers P (if rest.isEmpty then none else some third) request = true)
      (target : request.target = t) (asked : request.timestamp = some rejected)
      (reached : desired ≤ rejected)
      (final : ¬(code = ReadMarkers.internalError ∧
        ((app.markersOf c).failures.get? t).getD 0 + 1 < 3)) :
      Ends P app c t desired (.line c "FAIL".toList (kind :: code :: third :: rest) now)

/-- The event meets markers of a connection that is closed, or on another network by now. -/
def Displaced (app : App) (c : Str) : MarkerOp → Prop
  | .world _ _ => False
  | .forget connId => connId = c
  | .reconnect connId | .line connId _ _ _ => connId = c ∧ ¬app.InScope c
  | .markVisible _ _ _ _ | .tick _ _ => ¬app.InScope c

/-- A new connection to the network forgets what the old one confirmed. -/
def Renewed (c : Str) (op : MarkerOp) : Prop := op = .reconnect c

theorem reconnect_markersOf (connId : Str) {conn : State.Connection}
    (connected : app.state.connections.get? connId = some conn) (c : Str) :
    (app.reconnectReadMarkers connId).markersOf c =
      if connId = c then ((app.markersOf connId).prepareScope conn.networkKey).reconnect
      else app.markersOf c := by
  unfold App.reconnectReadMarkers
  rw [connected]
  exact App.markersOf_setMarkers _ _ c

theorem exec_sound (op : MarkerOp) (sound : app.AllSound P) : (exec P app op).1.AllSound P := by
  cases op with
  | world state ircHandles => exact sound
  | reconnect connId =>
      cases connected : app.state.connections.get? connId with
      | none =>
          simp only [exec, App.reconnectReadMarkers, connected]
          exact sound
      | some conn =>
          intro c
          simp only [exec, reconnect_markersOf connId connected]
          split
          · exact reconnect_sound (prepareScope_sound (sound connId) _)
          · exact sound c
  | forget connId =>
      intro c
      simp only [exec, App.markersOf, Map.get?_erase]
      split
      · exact default_sound []
      · exact sound c
  | markVisible accepts now bufferId messageId =>
      exact (markVisible_spec accepts now bufferId messageId sound).2.1
  | tick accepts now => exact (tick_spec accepts now sound).2.1
  | line connId command params now =>
      intro c
      rcases handleReadMarker_cases (P := P) app connId command params now with
        same | ⟨conn, name, value, marker, _, _, _, _, after⟩ |
          ⟨kind, code, third, rest, failed, _, _, failure, after⟩
      · exact same c ▸ sound c
      · simp only [exec, after c]
        split
        · exact receive_sound (prepareScope_sound (sound connId) _) name marker
        · exact sound c
      · simp only [exec, after c]
        split
        · exact failed_sound failure (sound connId)
        · exact sound c

/-- What is wanted stays wanted, unless the server answers for it or its connection is another. -/
theorem exec_wanted (op : MarkerOp) (sound : app.AllSound P) (c t : Str) (desired : Int)
    (wanted : (app.markersOf c).desired.get? t = some desired) :
    (∃ more, ((exec P app op).1.markersOf c).desired.get? t = some more ∧ desired ≤ more) ∨
      Ends P app c t desired op ∨ Displaced app c op := by
  have kept : (exec P app op).1.markersOf c = app.markersOf c →
      ∃ more, ((exec P app op).1.markersOf c).desired.get? t = some more ∧ desired ≤ more :=
    fun same => ⟨desired, by rw [same]; exact wanted, le_refl desired⟩
  cases op with
  | world state ircHandles => exact Or.inl (kept rfl)
  | forget connId =>
      by_cases own : connId = c
      · exact Or.inr (Or.inr own)
      · apply Or.inl
        apply kept
        simp only [exec, App.markersOf, Map.get?_erase, if_neg own]
  | reconnect connId =>
      by_cases own : connId = c
      · subst own
        by_cases inScope : app.InScope connId
        · cases connected : app.state.connections.get? connId with
          | none => simp [App.InScope, connected] at inScope
          | some conn =>
              apply Or.inl
              simp only [exec, reconnect_markersOf connId connected, if_true,
                prepareScope_inScope connected inScope]
              exact ⟨desired, wanted, le_refl desired⟩
        · exact Or.inr (Or.inr ⟨rfl, inScope⟩)
      · apply Or.inl
        apply kept
        cases connected : app.state.connections.get? connId with
        | none => simp only [exec, App.reconnectReadMarkers, connected]
        | some conn => simp only [exec, reconnect_markersOf connId connected, if_neg own]
  | markVisible accepts now bufferId messageId =>
      by_cases inScope : app.InScope c
      · exact Or.inl ((markVisible_spec accepts now bufferId messageId sound).1.wanted c inScope t
          desired wanted)
      · exact Or.inr (Or.inr inScope)
  | tick accepts now =>
      by_cases inScope : app.InScope c
      · exact Or.inl ((tick_spec accepts now sound).1.wanted c inScope t desired wanted)
      · exact Or.inr (Or.inr inScope)
  | line connId command params now =>
      rcases handleReadMarker_cases (P := P) app connId command params now with
        same | ⟨conn, name, value, marker, shape, announced, connected, parsed, after⟩ |
          ⟨kind, code, third, rest, failed, isFail, shape, failure, after⟩
      · exact Or.inl (kept (same c))
      · by_cases own : connId = c
        · subst own
          by_cases inScope : app.InScope connId
          · rw [prepareScope_inScope connected inScope] at after
            simp only [exec, after connId, if_true]
            rcases receive_wanted (P := P) name marker t desired wanted with
              same | ⟨target, time, given, reached⟩
            · exact Or.inl ⟨desired, same, le_refl desired⟩
            · apply Or.inr
              apply Or.inl
              subst shape given
              exact Ends.confirmed command name value now time announced target parsed reached
          · exact Or.inr (Or.inr ⟨rfl, inScope⟩)
        · exact Or.inl (kept ((after c).trans (if_neg own)))
      · by_cases own : connId = c
        · subst own
          simp only [exec, after connId, if_true]
          rcases failed_spec code _ now failure with
            ⟨request, pending, answered, _, _, _, same | ⟨erased, final, rejected, asked, below⟩⟩
          · exact Or.inl ⟨desired, by rw [same]; exact wanted, le_refl desired⟩
          · rw [erased, Map.get?_erase]
            by_cases target : request.target = t
            · apply Or.inr
              apply Or.inl
              subst isFail shape target
              exact Ends.refused kind code third rest now request rejected pending answered rfl
                asked (below desired wanted) final
            · rw [if_neg target]
              exact Or.inl ⟨desired, wanted, le_refl desired⟩
        · exact Or.inl (kept ((after c).trans (if_neg own)))

/-- What is confirmed moves only forward, unless the connection is new or another. -/
theorem exec_forward (op : MarkerOp) (sound : app.AllSound P) (c t : Str) :
    Forward t (app.markersOf c) ((exec P app op).1.markersOf c) ∨ Renewed c op ∨
      Displaced app c op := by
  have kept : (exec P app op).1.markersOf c = app.markersOf c →
      Forward t (app.markersOf c) ((exec P app op).1.markersOf c) :=
    fun same => by rw [same]; exact Forward.refl t _
  cases op with
  | world state ircHandles => exact Or.inl (kept rfl)
  | forget connId =>
      by_cases own : connId = c
      · exact Or.inr (Or.inr own)
      · apply Or.inl
        apply kept
        simp only [exec, App.markersOf, Map.get?_erase, if_neg own]
  | reconnect connId =>
      by_cases own : connId = c
      · exact Or.inr (Or.inl (congrArg MarkerOp.reconnect own))
      · apply Or.inl
        apply kept
        cases connected : app.state.connections.get? connId with
        | none => simp only [exec, App.reconnectReadMarkers, connected]
        | some conn => simp only [exec, reconnect_markersOf connId connected, if_neg own]
  | markVisible accepts now bufferId messageId =>
      by_cases inScope : app.InScope c
      · exact Or.inl ((markVisible_spec accepts now bufferId messageId sound).1.forward c inScope t)
      · exact Or.inr (Or.inr inScope)
  | tick accepts now =>
      by_cases inScope : app.InScope c
      · exact Or.inl ((tick_spec accepts now sound).1.forward c inScope t)
      · exact Or.inr (Or.inr inScope)
  | line connId command params now =>
      rcases handleReadMarker_cases (P := P) app connId command params now with
        same | ⟨conn, name, value, marker, _, _, connected, _, after⟩ |
          ⟨kind, code, third, rest, failed, _, _, failure, after⟩
      · exact Or.inl (kept (same c))
      · by_cases own : connId = c
        · subst own
          by_cases inScope : app.InScope connId
          · rw [prepareScope_inScope connected inScope] at after
            simp only [exec, after connId, if_true]
            exact Or.inl (receive_forward name marker t)
          · exact Or.inr (Or.inr ⟨rfl, inScope⟩)
        · exact Or.inl (kept ((after c).trans (if_neg own)))
      · by_cases own : connId = c
        · subst own
          simp only [exec, after connId, if_true]
          rcases failed_spec code _ now failure with ⟨_, _, _, _, confirmed, _⟩
          apply Or.inl
          intro old known
          exact ⟨old, by rw [confirmed]; exact known, markerLe_refl old⟩
        · exact Or.inl (kept ((after c).trans (if_neg own)))

/-- Whatever leaves asks for a marker, or says what is wanted at that time. -/
theorem exec_carries (op : MarkerOp) (sound : app.AllSound P) (request : MarkerRequest)
    (sent : request ∈ (exec P app op).2) :
    Carries P ((exec P app op).1.markersOf request.connId) request.params := by
  cases op with
  | markVisible accepts now bufferId messageId =>
      exact (markVisible_spec accepts now bufferId messageId sound).2.2 request sent
  | tick accepts now => exact (tick_spec accepts now sound).2.2 request sent
  | world state ircHandles => exact (List.not_mem_nil sent).elim
  | reconnect connId => exact (List.not_mem_nil sent).elim
  | forget connId => exact (List.not_mem_nil sent).elim
  | line connId command params now => exact (List.not_mem_nil sent).elim

end Runs

/-- An application that has kept no marker yet. -/
def App.start (state : State.AppState) (ircHandles : List Str) : App := ⟨state, Table.empty, ircHandles⟩

def step (app : App) (op : MarkerOp) : App := (exec P app op).1

variable {P}

theorem run_sound (ops : List MarkerOp) {app : App} (sound : app.AllSound P) :
    (runFrom (step P) app ops).AllSound P :=
  runFrom_invariant (App.AllSound P) (fun _ op before => exec_sound op before) app ops sound

theorem start_sound (state : State.AppState) (ircHandles : List Str) :
    (App.start state ircHandles).AllSound P := fun _ => default_sound []

/-- No wish is lost and no confirmation goes back: in whatever state the application has come to,
a wish is above what is confirmed, the next event leaves it or lets it end for a reason, a
confirmation moves forward, and a request carries what is wanted when it leaves. -/
theorem read_marker_is_kept (P : MarkerPlatform) (state : State.AppState) (ircHandles : List Str)
    (ops : List MarkerOp) (op : MarkerOp) :
    let app := runFrom (step P) (App.start state ircHandles) ops
    let next := exec P app op
    (∀ c t desired, (app.markersOf c).desired.get? t = some desired →
      (∀ confirmed, (app.markersOf c).confirmed.get? t = some (some confirmed) →
        confirmed < desired) ∧
      ((∃ more, (next.1.markersOf c).desired.get? t = some more ∧ desired ≤ more) ∨
        Ends P app c t desired op ∨ Displaced app c op)) ∧
    (∀ c t confirmed, (app.markersOf c).confirmed.get? t = some confirmed →
      (∃ newer, (next.1.markersOf c).confirmed.get? t = some newer ∧
        markerLe confirmed newer = true) ∨ Renewed c op ∨ Displaced app c op) ∧
    ∀ request ∈ next.2, Carries P (next.1.markersOf request.connId) request.params := by
  intro app next
  have sound : app.AllSound P := run_sound ops (start_sound state ircHandles)
  apply And.intro
  · intro c t desired wanted
    exact ⟨fun confirmed => (sound c).above t desired confirmed wanted,
      exec_wanted op sound c t desired wanted⟩
  apply And.intro
  · intro c t confirmed known
    cases exec_forward op sound c t with
    | inl forward => exact Or.inl (forward confirmed known)
    | inr reason => exact Or.inr reason
  · exact exec_carries op sound

def plainMarkers : MarkerPlatform :=
  { State.plainClock with rfc3339Millis := fun millis => (Nat.repr millis.toNat).toList }

/-- A channel of a bouncer with one row, on a network. -/
def readingChannel (network : String) : State.AppState :=
  let opened := State.bouncerChannel 0
  { opened with
    buffers := opened.buffers.adjust "b/#r".toList fun buffer =>
      { buffer with messages := [State.peerLine "7" "hi"] }
    connections := opened.connections.adjust "b".toList fun conn =>
      { conn with networkScope := some network.toList, enabledCaps := ["soju.im/read".toList] } }

def received (time : String) : MarkerOp :=
  .line "b".toList "READ".toList ["#r".toList, ("timestamp=" ++ time).toList] 0

/-- Without a word of the server a wish is gone once the connection is on another network, and after
a reconnect the server may confirm less than before. -/
theorem other_network_drops_the_wish :
    let start := App.start (readingChannel "x") ["b".toList]
    let app := runFrom (step plainMarkers) start
      [.markVisible (fun _ => true) 0 "b/#r".toList 0, .world (readingChannel "y") ["b".toList]]
    let ticked := (exec plainMarkers app (.tick (fun _ => true) 1)).1
    let confirmed := runFrom (step plainMarkers) start [received "7"]
    let again := runFrom (step plainMarkers) start
      [received "7", .reconnect "b".toList, received "5"]
    (app.markersOf "b".toList).desired.get? "#r".toList = some 7 ∧
      (ticked.markersOf "b".toList).desired.get? "#r".toList = none ∧
      (confirmed.markersOf "b".toList).confirmed.get? "#r".toList = some (some 7) ∧
      (again.markersOf "b".toList).confirmed.get? "#r".toList = some (some 5) := by
  decide

end Repartee.MarkRead
