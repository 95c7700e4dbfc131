/-
# Folding usage updates

A stream of the Messages protocol reports its usage in parts. `mergeMessagesUsage` keeps the input
tokens together with those of the cache, so the part that is not from the cache is recovered by
subtraction at each update. The counters are doubles, and what is kept is the sum of those reported
last as long as no sum of them is rounded.
-/

import GhcGateway.Messages.NativeMessages

namespace GhcGateway.Messages

open Conversion (SemanticUsage zeroUsage)

variable {updates : List PartialMessagesUsage}

/-- The value of a field in the last of the updates that defines it, and 0 if none does. -/
def lastDefined (field : PartialMessagesUsage → Option Nat)
    (updates : List PartialMessagesUsage) : Nat :=
  ((updates.filterMap field).getLast?).getD 0

def lastUsage (updates : List PartialMessagesUsage) : SemanticUsage where
  inputTokens := lastDefined (·.inputTokens) updates + lastDefined (·.cacheReadTokens) updates +
    lastDefined (·.cacheWriteTokens) updates
  outputTokens := lastDefined (·.outputTokens) updates
  cacheReadTokens := lastDefined (·.cacheReadTokens) updates
  cacheWriteTokens := lastDefined (·.cacheWriteTokens) updates
  reasoningTokens := lastDefined (·.thinkingTokens) updates
  reportedReasoningTokens := (updates.filterMap (·.thinkingTokens)).getLast?

@[simp]
theorem lastDefined_append_singleton (field : PartialMessagesUsage → Option Nat)
    (updates : List PartialMessagesUsage) (update : PartialMessagesUsage) :
    lastDefined field (updates ++ [update]) = (field update).getD (lastDefined field updates) := by
  cases value : field update <;> simp [lastDefined, value]

theorem lastThinking_append_singleton (updates : List PartialMessagesUsage)
    (update : PartialMessagesUsage) :
    ((updates ++ [update]).filterMap (·.thinkingTokens)).getLast? =
      update.thinkingTokens.or (updates.filterMap (·.thinkingTokens)).getLast? := by
  cases value : update.thinkingTokens <;> simp [value]

/-- A double holds the number. -/
def IsDouble (value : Nat) : Prop := roundDouble value = value

/-- No sum of the input counters reported last is rounded. -/
structure Unrounded (updates : List PartialMessagesUsage) : Prop where
  input : IsDouble (lastDefined (·.inputTokens) updates)
  inputRead : IsDouble
    (lastDefined (·.inputTokens) updates + lastDefined (·.cacheReadTokens) updates)
  inputWrite : IsDouble
    (lastDefined (·.inputTokens) updates + lastDefined (·.cacheWriteTokens) updates)
  whole : IsDouble (lastUsage updates).inputTokens

/-- Sums below `2 ^ 53` are not rounded. -/
theorem unrounded_of_lt (small : (lastUsage updates).inputTokens < 2 ^ 53) : Unrounded updates := by
  simp only [lastUsage] at small
  constructor <;> apply roundDouble_of_lt
  case whole => exact small
  all_goals omega

/-- One update keeps the counters reported last: the subtraction recovers the input that is not
from the cache, since the input is the sum of the three. -/
theorem mergeMessagesUsage_lastUsage {update : PartialMessagesUsage} (before : Unrounded updates)
    (after : Unrounded (updates ++ [update])) :
    mergeMessagesUsage (lastUsage updates) update = lastUsage (updates ++ [update]) := by
  have withWrite : (lastUsage updates).inputTokens - (lastUsage updates).cacheReadTokens =
      lastDefined (·.inputTokens) updates + lastDefined (·.cacheWriteTokens) updates := by
    simp only [lastUsage]
    omega
  have recovered : roundDouble (lastDefined (·.inputTokens) updates +
      lastDefined (·.cacheWriteTokens) updates) - (lastUsage updates).cacheWriteTokens =
        lastDefined (·.inputTokens) updates := by
    rw [before.inputWrite]
    exact Nat.add_sub_cancel _ _
  have ⟨_, inputRead, _, whole⟩ := after
  simp only [lastUsage, lastDefined_append_singleton, IsDouble] at inputRead whole
  unfold mergeMessagesUsage
  rw [withWrite, recovered, before.input]
  simp only [lastUsage, lastDefined_append_singleton, lastThinking_append_singleton, inputRead,
    whole]

/-- The counters other than the input are those reported last. -/
structure Reported (updates : List PartialMessagesUsage) (usage : SemanticUsage) : Prop where
  output : usage.outputTokens = lastDefined (·.outputTokens) updates
  cacheRead : usage.cacheReadTokens = lastDefined (·.cacheReadTokens) updates
  cacheWrite : usage.cacheWriteTokens = lastDefined (·.cacheWriteTokens) updates
  reasoning : usage.reasoningTokens = lastDefined (·.thinkingTokens) updates
  reported : usage.reportedReasoningTokens = (updates.filterMap (·.thinkingTokens)).getLast?

theorem Reported.merge {usage : SemanticUsage} (reported : Reported updates usage)
    (update : PartialMessagesUsage) :
    Reported (updates ++ [update]) (mergeMessagesUsage usage update) := by
  obtain ⟨output, read, write, reasoning, reported⟩ := reported
  constructor <;>
    simp only [mergeMessagesUsage, lastDefined_append_singleton, lastThinking_append_singleton,
      output, read, write, reasoning, reported]

theorem foldl_eq_lastUsage (unrounded : ∀ before, before <+: updates → Unrounded before) :
    updates.foldl mergeMessagesUsage zeroUsage = lastUsage updates := by
  induction updates using List.reverseRecOn with
  | nil => rfl
  | append_singleton updates update ih =>
    rw [List.foldl_append, ih fun before isBefore =>
      unrounded before (isBefore.trans (List.prefix_append _ _))]
    exact mergeMessagesUsage_lastUsage (unrounded _ (List.prefix_append _ _))
      (unrounded _ List.prefix_rfl)

/-- Folded from zero, the updates leave the counters reported last; the input is the sum of the
three of which it is made, as long as no such sum was rounded so far. -/
theorem foldl_mergeMessagesUsage (updates : List PartialMessagesUsage) :
    Reported updates (updates.foldl mergeMessagesUsage zeroUsage) ∧
      ((∀ before, before <+: updates → Unrounded before) →
        (updates.foldl mergeMessagesUsage zeroUsage).inputTokens =
          lastDefined (·.inputTokens) updates + lastDefined (·.cacheReadTokens) updates +
            lastDefined (·.cacheWriteTokens) updates) := by
  refine ⟨?_, fun unrounded => congrArg SemanticUsage.inputTokens (foldl_eq_lastUsage unrounded)⟩
  induction updates using List.reverseRecOn with
  | nil => exact ⟨rfl, rfl, rfl, rfl, rfl⟩
  | append_singleton updates update ih =>
    rw [List.foldl_append]
    exact ih.merge update

/-- The input is reported first, then the tokens read from the cache, and later corrected. -/
theorem foldl_mergeMessagesUsage_corrected :
    ([⟨some 7, none, none, none, none⟩, ⟨none, some 2, some 5, none, none⟩,
      ⟨none, some 3, some 4, none, none⟩].foldl mergeMessagesUsage zeroUsage).inputTokens =
        7 + 4 + 0 := by
  refine (foldl_mergeMessagesUsage _).2 fun before isBefore => ?_
  have small : ∀ before ∈ List.inits [⟨some 7, none, none, none, none⟩,
      ⟨none, some 2, some 5, none, none⟩, ⟨none, some 3, some 4, none, none⟩],
      (lastUsage before).inputTokens < 2 ^ 53 := by decide
  exact unrounded_of_lt (small before ((List.mem_inits _ _).mpr isBefore))

/-- The input that is recovered is wrong where its sum with the tokens read from the cache was
rounded, though every counter is a safe integer. -/
theorem not_foldl_mergeMessagesUsage :
    let updates : List PartialMessagesUsage :=
      [⟨some 9007199254740991, none, some 9007199254740990, some 0, none⟩,
        ⟨none, none, some 0, none, none⟩]
    (updates.foldl mergeMessagesUsage zeroUsage).inputTokens = 9007199254740990 ∧
      lastDefined (·.inputTokens) updates + lastDefined (·.cacheReadTokens) updates +
        lastDefined (·.cacheWriteTokens) updates = 9007199254740991 := by
  decide

end GhcGateway.Messages
