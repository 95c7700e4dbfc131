/-
# What an extracted replay is like

The items of an extracted replay are counted and measured by its fields, whatever
the output was.
-/

import GhcGateway.Library.Fallible
import GhcGateway.History.Replay

namespace GhcGateway.History

open Library

variable {state : Extraction}

/-- The fields of a replay agree with its items. -/
structure StoredReplay.Counted (replay : StoredReplay) : Prop where
  count : replay.itemCount = replay.items.length
  bytes : replay.bytes = (replay.items.map StoredReplayItem.itemBytes).sum

/-- A condition that is not met throws. -/
theorem unavailableIf_eq_ok {condition : Prop} [Decidable condition] {value : Unit} :
    unavailableIf condition = .ok value ↔ ¬ condition := by
  unfold unavailableIf
  by_cases holds : condition
  · simp [holds]
  · simp [holds]

/-! ## The size of what has been collected -/

/-- The bytes counted so far are those of the items. -/
def Extraction.Measured (state : Extraction) : Prop :=
  state.bytes = (state.items.map StoredReplayItem.itemBytes).sum

variable {options : HistoryOptions}

section

variable (measured : state.Measured)

include measured

theorem Extraction.Measured.push (groupOrdinal itemOrdinal : Nat) (item : GroupItem) :
    Ensures (state.push options groupOrdinal itemOrdinal item) Extraction.Measured := by
  refine ensures_bind fun (itemJson, itemBytes) _ => ensures_bind fun _ _ => ensures_ok ?_
  simp only [Extraction.Measured, List.map_append, List.map_singleton, List.sum_append,
    List.sum_singleton]
  rw [measured]

theorem Extraction.Measured.pushGroup (itemOrdinal : Nat) (group : List GroupItem) :
    Ensures (state.pushGroup options itemOrdinal group) Extraction.Measured := by
  induction group generalizing state itemOrdinal with
  | nil => exact ensures_ok measured
  | cons item rest ih =>
    rw [Extraction.pushGroup]
    exact (measured.push _ _ item).bind fun next holds => ih holds _

theorem Extraction.Measured.finishGroup :
    Ensures (state.finishGroup options) Extraction.Measured := by
  unfold Extraction.finishGroup
  refine ensures_ite (fun _ => ?_) fun _ => ensures_ok measured
  exact (measured.pushGroup 0 _).bind fun next holds => ensures_ok holds

theorem Extraction.Measured.rememberCarrier (item : WireJsonObject) :
    Ensures (state.rememberCarrier item) Extraction.Measured := by
  unfold Extraction.rememberCarrier
  split
  · exact ensures_ok measured
  · exact ensures_bind fun _ _ => ensures_ok measured

theorem Extraction.Measured.finishCalls : Ensures (state.finishCalls options) Extraction.Measured :=
  ensures_ite (fun _ => measured.finishGroup) fun _ => ensures_ok measured

theorem Extraction.Measured.addReasoning (formatVersion : ReplayFormatVersion)
    (item : WireJsonObject) :
    Ensures (state.addReasoning options formatVersion item) Extraction.Measured := by
  refine ensures_bind fun _ _ => ?_
  cases formatVersion with
  | one => exact ensures_ok measured
  | two =>
    refine (measured.rememberCarrier item).bind fun next holds => ?_
    exact holds.finishCalls.bind fun last lastHolds => ensures_ok lastHolds

theorem Extraction.Measured.addCall (formatVersion : ReplayFormatVersion) (kind : ResponsesCallKind)
    (item : WireJsonObject) :
    Ensures (state.addCall options formatVersion kind item) Extraction.Measured := by
  unfold Extraction.addCall
  split
  · exact ensures_error
  · refine ensures_bind fun _ _ => ensures_bind fun _ _ => ?_
    cases formatVersion with
    | one =>
      apply Extraction.Measured.push
      exact measured
    | two => exact ensures_ok measured

theorem Extraction.Measured.add (formatVersion : ReplayFormatVersion) (item : WireJson) :
    Ensures (state.add options formatVersion item) Extraction.Measured := by
  unfold Extraction.add
  split
  · refine ensures_ite (fun _ => measured.addReasoning formatVersion _) fun _ => ?_
    split
    · exact measured.addCall formatVersion _ _
    · exact ensures_bind fun _ _ => ensures_ok measured
  · exact ensures_ok measured

end

/-- Every extracted replay is counted. -/
theorem ensures_extractRecordableReplay_counted (output : ResponseOutput)
    (formatVersion : ReplayFormatVersion) :
    Ensures (extractRecordableReplay options output formatVersion) StoredReplay.Counted := by
  have collected : Ensures
      ((outputItems output).foldlM (Extraction.add options formatVersion) Extraction.start)
      Extraction.Measured :=
    ensures_foldlM Extraction.Measured
      (fun state item _ holds => holds.add formatVersion item) rfl
  refine collected.bind fun state holds => ?_
  have finished : Ensures (state.finish options formatVersion) Extraction.Measured := by
    cases formatVersion with
    | one => exact ensures_ok holds
    | two => exact holds.finishGroup
  exact finished.bind fun last lastHolds => ensures_ok ⟨rfl, lastHolds⟩

end GhcGateway.History
