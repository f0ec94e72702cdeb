import Repartee.Irc.Batch
import Repartee.Irc.Partition

/-!
A batch of wire lines sent as frames comes out of the tracker as one message with its text.
-/

namespace Repartee.Irc

open Text Lib

/-- The frames as a server hands them on: from the sender, with its own tags on the opener. -/
def relay (source : Option Prefix) (openerTags : Option (List Tag)) : List Message → List Message
  | [] => []
  | opener :: rest =>
      { opener with source := source, tags := openerTags } ::
        rest.map fun msg => { msg with source := source }

section Label

variable (tracker : BatchTracker) (msg : Message)

theorem inheritLabel_cases : tracker.inheritLabel msg = msg ∨ ∃ label,
    tracker.inheritLabel msg =
      { msg with tags := some (msg.tags.getD [] ++ [⟨labelKey, some label⟩]) } := by
  unfold BatchTracker.inheritLabel
  split
  · exact Or.inl rfl
  · split
    · exact Or.inl rfl
    · exact Or.inr ⟨_, rfl⟩

@[simp] theorem command_inheritLabel : (tracker.inheritLabel msg).command = msg.command := by
  rcases inheritLabel_cases tracker msg with same | ⟨label, more⟩
  · rw [same]
  · rw [more]

@[simp] theorem source_inheritLabel : (tracker.inheritLabel msg).source = msg.source := by
  rcases inheritLabel_cases tracker msg with same | ⟨label, more⟩
  · rw [same]
  · rw [more]

theorem getBatchTag_inheritLabel (ref : Str) (tagged : getBatchTag msg = some ref) :
    getBatchTag (tracker.inheritLabel msg) = some ref := by
  rcases inheritLabel_cases tracker msg with same | ⟨label, more⟩
  · rw [same, tagged]
  · obtain ⟨tags, present, first⟩ := Option.bind_eq_some_iff.mp tagged
    obtain ⟨tag, found, value⟩ := Option.bind_eq_some_iff.mp first
    rw [more]
    simp [getBatchTag, tagValue, present, found, value]

theorem concatTagged_inheritLabel : concatTagged (tracker.inheritLabel msg) = concatTagged msg := by
  rcases inheritLabel_cases tracker msg with same | ⟨label, more⟩
  · rw [same]
  · have apart : labelKey ≠ concatKey := by decide
    rw [more]
    simp [concatTagged, apart]

theorem ofMessage_inheritLabel :
    Fragment.ofMessage (tracker.inheritLabel msg) = Fragment.ofMessage msg := by
  simp only [Fragment.ofMessage, command_inheritLabel, source_inheritLabel,
    concatTagged_inheritLabel]

end Label

section Collecting

/-- A line as it arrives, and the fragment it is. -/
def lineMessage (source : Option Prefix) (target ref : Str) (line : WireLine) : Message :=
  { lineFrame target ref line with source := source }

def lineFragment (source : Option Prefix) (target : Str) (line : WireLine) : Fragment :=
  ⟨source, target, false, line⟩

variable (unicode : Unicode) (source : Option Prefix) (target ref : Str)

theorem getBatchTag_line (line : WireLine) :
    getBatchTag (lineMessage source target ref line) = some ref := by
  simp [getBatchTag, tagValue, lineMessage, lineFrame, lineTags]

theorem ofMessage_line (line : WireLine) :
    Fragment.ofMessage (lineMessage source target ref line) =
      some (lineFragment source target line) := by
  have apart : batchKey ≠ concatKey := by decide
  cases line with
  | mk text concat =>
      cases concat <;>
        simp [Fragment.ofMessage, lineMessage, lineFrame, lineTags, lineFragment, concatTagged, apart]

/-- The batch once some of its lines came: they are its fragments, up to the tracker's cap, and
the excess is counted. -/
structure Collected (openerTags : Option (List Tag)) (lines : List WireLine) (info : BatchInfo) :
    Prop where
  params : info.params = [target]
  opener : info.openerTags = openerTags
  sources : ∀ msg ∈ info.messages, msg.source = source
  fragments : info.messages.map Fragment.ofMessage =
    (lines.take maxBatchMessages).map fun line => some (lineFragment source target line)
  drops : info.droppedMessages = lines.length - maxBatchMessages

variable {source target ref} {openerTags : Option (List Tag)} {lines : List WireLine}
  {info : BatchInfo}

theorem Collected.length (collected : Collected source target openerTags lines info) :
    info.messages.length = min maxBatchMessages lines.length := by
  have lengths := congrArg List.length collected.fragments
  simpa using lengths

theorem Collected.fragments_eq (collected : Collected source target openerTags lines info) :
    info.fragments = (lines.take maxBatchMessages).map (lineFragment source target) := by
  have mapped := congrArg (List.filterMap id) collected.fragments
  simpa [List.filterMap_map, BatchInfo.fragments, Function.comp_def] using mapped

/-- One more line. -/
theorem Collected.collect (collected : Collected source target openerTags lines info)
    (line : WireLine) (msg : Message) (order : Nat) (sender : msg.source = source)
    (same : Fragment.ofMessage msg = some (lineFragment source target line)) :
    Collected source target openerTags (lines ++ [line]) (info.collect msg order) := by
  have length := collected.length
  unfold BatchInfo.collect
  split
  · rename_i full
    have enough : maxBatchMessages ≤ lines.length := by omega
    refine ⟨collected.params, collected.opener, collected.sources, ?_, ?_⟩
    · rw [List.take_append_of_le_length enough]
      exact collected.fragments
    · simp only [collected.drops, List.length_append, List.length_singleton]
      omega
  · rename_i room
    have few : lines.length < maxBatchMessages := by omega
    refine ⟨collected.params, collected.opener, ?_, ?_, ?_⟩
    · intro m member
      rcases List.mem_append.mp member with before | last
      · exact collected.sources m before
      · rw [List.mem_singleton.mp last, sender]
    · have shown := collected.fragments
      rw [List.take_of_length_le (by omega)] at shown
      rw [List.take_of_length_le (by simp; omega)]
      simp [shown, same]
    · simp only [collected.drops, List.length_append, List.length_singleton]
      omega

variable {tracker : BatchTracker} (now : Nat)

theorem receive_line (line : WireLine) (found : tracker.openBatches.get? ref = some info)
    (collected : Collected source target openerTags lines info) :
    (tracker.receive unicode now (lineMessage source target ref line)).2 = none ∧
      ∃ info', (tracker.receive unicode now (lineMessage source target ref line)).1.openBatches.get?
        ref = some info' ∧ Collected source target openerTags (lines ++ [line]) info' := by
  let msg := lineMessage source target ref line
  have tagged : getBatchTag msg = some ref := getBatchTag_line source target ref line
  have batched : tracker.isBatched msg = true := by
    simp [BatchTracker.isBatched, tagged, BatchTracker.isOpen, found]
  have labelled := getBatchTag_inheritLabel tracker msg ref tagged
  have step : tracker.receive unicode now msg =
      ((tracker.addMessage (tracker.inheritLabel msg)).2, none) := by
    exact if_pos batched
  refine ⟨by rw [step], info.collect (tracker.inheritLabel msg) tracker.nextMessageOrder, ?_, ?_⟩
  · rw [step]
    simp [BatchTracker.addMessage, labelled, found, Map.get?_insert]
  · apply collected.collect
    · rw [source_inheritLabel]
      rfl
    · rw [ofMessage_inheritLabel]
      exact ofMessage_line source target ref line

theorem receiveAll_lines (more : List WireLine) (rest : List Message)
    (found : tracker.openBatches.get? ref = some info)
    (collected : Collected source target openerTags lines info) :
    ∃ (last : BatchTracker) (info' : BatchInfo), last.openBatches.get? ref = some info' ∧
      Collected source target openerTags (lines ++ more) info' ∧
      tracker.receiveAll unicode now (more.map (lineMessage source target ref) ++ rest) =
        last.receiveAll unicode now rest := by
  induction more generalizing tracker info lines with
  | nil => exact ⟨tracker, info, found, by simpa using collected, rfl⟩
  | cons line more ih =>
      obtain ⟨silent, info', found', collected'⟩ :=
        receive_line unicode now line found collected
      obtain ⟨last, final, present, whole, run⟩ := ih found' collected'
      refine ⟨last, final, present, by simpa using whole, ?_⟩
      simp [BatchTracker.receiveAll, silent, run]

variable (source target ref tracker)

/-- The opener makes an empty batch under its reference, whatever was open before. -/
theorem receive_opener (opener : Option (List Tag)) :
    let msg : Message := ⟨opener, source, .batch ('+' :: ref) (some multilineType) (some [target])⟩
    (tracker.receive unicode now msg).2 = none ∧ ∃ info tags,
      (tracker.receive unicode now msg).1.openBatches.get? ref = some info ∧
        Collected source target tags [] info := by
  intro msg
  have other : eqNocase multilineType isupportType = false := by decide
  refine ⟨rfl, ?_⟩
  simp only [msg, BatchTracker.receive, BatchTracker.startBatch, Map.get?_insert, if_true,
    BatchTracker.invalidSnapshot, Option.getD_some, other, Bool.false_and]
  refine ⟨_, _, rfl, rfl, rfl, ?_, rfl, rfl⟩
  intro m member
  cases member

variable {tracker} in
theorem receive_closer (found : tracker.openBatches.get? ref = some info) :
    (tracker.receive unicode now ⟨none, source, .batch ('-' :: ref) none none⟩).2 = some info := by
  simpa [BatchTracker.receive, BatchTracker.endBatch, getBatchTag, tagValue,
    BatchTracker.invalidateParent] using found

/-- The frames of a batch complete one batch, which holds its lines. -/
theorem receiveAll_frames (opener : Option (List Tag)) (batch : List WireLine) :
    ∃ info tags, (tracker.receiveAll unicode now
        (relay source opener (multilineFrames target ref batch))).2 = [info] ∧
      Collected source target tags batch info := by
  obtain ⟨silent, start, tags, opened, empty⟩ :=
    receive_opener unicode source target ref tracker now opener
  obtain ⟨last, info, present, whole, run⟩ := receiveAll_lines unicode now batch
    [⟨none, source, .batch ('-' :: ref) none none⟩] opened empty
  have closed := receive_closer unicode source ref now present
  refine ⟨info, tags, ?_, by simpa using whole⟩
  have frames : relay source opener (multilineFrames target ref batch) =
      ⟨opener, source, .batch ('+' :: ref) (some multilineType) (some [target])⟩ ::
        (batch.map (lineMessage source target ref) ++
          [⟨none, source, .batch ('-' :: ref) none none⟩]) := by
    simp [relay, multilineFrames, Message.ofCommand, Function.comp_def, lineMessage]
  rw [frames]
  simp only [BatchTracker.receiveAll, silent, run, closed, Option.toList, List.append_nil,
    List.nil_append]

end Collecting

section Assembly

variable {source : Option Prefix} {target : Str} {tags : Option (List Tag)}
  {batch : List WireLine} {info : BatchInfo}

theorem eqNocase_refl (s : Str) : eqNocase s s = true := by simp [eqNocase]

theorem renderCap_le (multiline : Option MultilineLimits) :
    1 ≤ renderCap multiline ∧ renderCap multiline ≤ multilineMaxInboundLines := by
  unfold renderCap multilineMaxInboundLines
  omega

theorem Collected.consistent (collected : Collected source target tags batch info) :
    info.inconsistent = false := by
  unfold BatchInfo.inconsistent
  rw [collected.fragments_eq, collected.params]
  cases batch.take maxBatchMessages with
  | nil => rfl
  | cons first rest => simp [lineFragment, eqNocase_refl]

/-- The lines shown are those sent, up to the cap, and exactly a longer batch is truncated. -/
theorem Collected.joinedText (collected : Collected source target tags batch info)
    (multiline : Option MultilineLimits) :
    info.truncated (renderCap multiline) true = decide (renderCap multiline < batch.length) ∧
      info.joinedText (renderCap multiline) true = reassemble (batch.take (renderCap multiline)) ++
        if renderCap multiline < batch.length then truncationMark else [] := by
  have cap := (renderCap_le multiline).2
  have small : multilineMaxInboundLines < maxBatchMessages := by decide
  have truncated : info.truncated (renderCap multiline) true =
      decide (renderCap multiline < batch.length) := by
    unfold BatchInfo.truncated
    rw [collected.fragments_eq, collected.drops]
    by_cases long : renderCap multiline < batch.length
    · simp [long]
      omega
    · have short : batch.length - maxBatchMessages = 0 := by omega
      simp [long, short]
  refine ⟨truncated, ?_⟩
  have shown : (info.fragments.map Fragment.line).take (renderCap multiline) =
      batch.take (renderCap multiline) := by
    rw [collected.fragments_eq, List.map_map]
    have lines : (Fragment.line ∘ lineFragment source target) = id := rfl
    rw [lines, List.map_id, List.take_take, min_eq_left (by omega)]
  simp only [BatchInfo.joinedText, truncated, shown, decide_eq_true_eq]

/-- The message a collected batch becomes. -/
theorem Collected.built (collected : Collected source target tags batch info)
    (nonempty : batch ≠ []) (plain : ∀ line ∈ batch, encryptedStart.isPrefixOf line.text = false)
    (multiline : Option MultilineLimits) :
    ∃ m, buildMultilineMessage multiline info true = .message m ∧ m.source = source ∧
      m.command = .privmsg target (reassemble (batch.take (renderCap multiline)) ++
        if renderCap multiline < batch.length then truncationMark else []) := by
  obtain ⟨line, rest, shape⟩ := List.exists_cons_of_ne_nil nonempty
  have fragments := collected.fragments_eq
  have head : info.fragments = lineFragment source target line ::
      (rest.take (maxBatchMessages - 1)).map (lineFragment source target) := by
    rw [fragments, shape]
    rfl
  have some : info.messages ≠ [] := by
    intro none
    simp [BatchInfo.fragments, none] at head
  have clear : info.fragments.any Fragment.encrypted = false := by
    rw [fragments, List.any_map, List.any_eq_false]
    intro l member
    exact Bool.eq_false_iff.mp (plain l (List.mem_of_mem_take member))
  have sender : info.messages.head?.bind Message.source = source := by
    obtain ⟨first, others, shown⟩ := List.exists_cons_of_ne_nil some
    simpa [shown] using collected.sources first (by simp [shown])
  have joined := (collected.joinedText multiline).2
  unfold buildMultilineMessage
  rw [if_neg some, clear, collected.consistent, head]
  simp only [Bool.false_eq_true, if_false]
  refine ⟨_, rfl, sender, ?_⟩
  simp only [lineFragment, Bool.false_eq_true, if_false, collected.params, List.head?_cons,
    Option.getD_some, joined]

/-- A truncated batch gives no message with its id. -/
theorem truncated_drops_msgid (multiline : Option MultilineLimits) (info : BatchInfo)
    (cleanEnd : Bool) (m : Message)
    (built : buildMultilineMessage multiline info cleanEnd = .message m)
    (truncated : info.truncated (renderCap multiline) cleanEnd = true) :
    ∀ tag ∈ m.tags.getD [], tag.key ≠ msgidKey := by
  unfold buildMultilineMessage at built
  split_ifs at built
  split at built
  · cases built
  · simp only [MultilineOutcome.message.injEq] at built
    subst built
    simp only [truncated]
    intro tag member
    split at member
    · cases member
    · simp only [Option.getD_some, BatchInfo.mergedTags, if_true, List.mem_filter] at member
      simpa using member.2

end Assembly

/-- The frames of a batch of a partition, none of whose lines is ciphertext, complete one batch
that becomes one message to the target: the batch reassembled when it has no more lines than the
receiver shows, else its first lines and the truncation mark. And a batch cut by a cap or not
closed cleanly gives no message with its id. -/
theorem multiline_batch_survives (unicode : Unicode) (text : Str) (limits : MultilineLimits)
    (batches : List (List WireLine)) (batch : List WireLine) (target ref : Str)
    (source : Option Prefix) (opener : Option (List Tag)) (tracker : BatchTracker) (now : Nat)
    (multiline : Option MultilineLimits) (split : partition text limits = some batches)
    (member : batch ∈ batches) (plain : ∀ line ∈ batch, encryptedStart.isPrefixOf line.text = false) :
    (∃ info m, (tracker.receiveAll unicode now
        (relay source opener (multilineFrames target ref batch))).2 = [info] ∧
      buildMultilineMessage multiline info true = .message m ∧ m.source = source ∧
      (batch.length ≤ renderCap multiline → m.command = .privmsg target (reassemble batch)) ∧
      (renderCap multiline < batch.length → m.command = .privmsg target
        (reassemble (batch.take (renderCap multiline)) ++ truncationMark))) ∧
    ∀ info cleanEnd m, buildMultilineMessage multiline info cleanEnd = .message m →
      renderCap multiline < info.fragments.length ∨ 0 < info.droppedMessages ∨ cleanEnd = false →
      ∀ tag ∈ m.tags.getD [], tag.key ≠ msgidKey := by
  constructor
  · obtain ⟨info, tags, completed, collected⟩ :=
      receiveAll_frames unicode source target ref tracker now opener batch
    obtain ⟨first, rest, shape, _⟩ :=
      ((partition_fits text limits batches split).2 batch member).headed
    obtain ⟨m, built, sender, command⟩ := collected.built (by simp [shape]) plain multiline
    refine ⟨info, m, completed, built, sender, ?_, ?_⟩
    · intro short
      rw [command, List.take_of_length_le short, if_neg (by omega), List.append_nil]
    · intro long
      rw [command, if_pos long]
  · intro info cleanEnd m built cut
    apply truncated_drops_msgid multiline info cleanEnd m built
    rcases cut with capped | dropped | unclean
    · simp [BatchInfo.truncated, capped]
    · simp [BatchInfo.truncated, dropped]
    · simp [BatchInfo.truncated, unclean]

theorem multiline_batch_survives_two_lines :
    let batch : List WireLine := [⟨"ab".toList, false⟩, ⟨"c".toList, false⟩]
    ∃ info m, (BatchTracker.new.receiveAll Unicode.ascii 0
        (relay none none (multilineFrames "#a".toList "r".toList batch))).2 = [info] ∧
      buildMultilineMessage (some ⟨400, 24⟩) info true = .message m ∧
      m.command = .privmsg "#a".toList "ab\nc".toList := by
  intro batch
  have split : partition "ab\nc".toList ⟨400, 24⟩ = some [batch] := by decide
  obtain ⟨info, m, completed, built, _, command, _⟩ := (multiline_batch_survives Unicode.ascii _ _ _
    batch "#a".toList "r".toList none none .new 0 (some ⟨400, 24⟩) split (by simp) (by decide)).1
  exact ⟨info, m, completed, built, command (by decide)⟩

/-- A server that lets batches be longer than what is shown: the end of the text is cut. -/
theorem long_batch_is_cut :
    let limits : MultilineLimits := ⟨4096, 200⟩
    let batch : List WireLine := List.replicate 101 ⟨['a'], false⟩
    partition (reassemble batch) limits = some [batch] ∧
      ∃ info m, (BatchTracker.new.receiveAll Unicode.ascii 0
          (relay none none (multilineFrames "#a".toList "r".toList batch))).2 = [info] ∧
        buildMultilineMessage (some limits) info true = .message m ∧
        m.command ≠ .privmsg "#a".toList (reassemble batch) := by
  intro limits batch
  refine ⟨by decide +kernel, ?_⟩
  obtain ⟨info, tags, completed, collected⟩ :=
    receiveAll_frames Unicode.ascii none "#a".toList "r".toList .new 0 none batch
  obtain ⟨m, built, _, command⟩ :=
    collected.built (by simp [batch]) (by decide +kernel) (some limits)
  refine ⟨info, m, completed, built, ?_⟩
  rw [command]
  decide +kernel

end Repartee.Irc
