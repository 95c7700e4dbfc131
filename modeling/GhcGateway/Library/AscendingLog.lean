/-
# Ascending logs

A log holds entries with keys that go up. What it holds above a key, or within two keys, is
again in the order of the log: parts that meet at a key make up the whole, a part that ends
below the newest entry is the same however much the log grows, and a log that has lost its
oldest entries still has everything above an entry that is left.
-/

import Mathlib.Data.List.Infix
import Mathlib.Order.Lattice

namespace Library

universe u v

variable {α : Type u} {κ : Type v} [LinearOrder κ] (key : α → κ)
  {log : List α} {low high : κ} {entry : α}

def Ascending (log : List α) : Prop := log.Pairwise fun older newer => key older < key newer

def above (log : List α) (low : κ) : List α := log.filter fun entry => low < key entry

/-- The entries above one key, up to another. -/
def within (log : List α) (low high : κ) : List α :=
  log.filter fun entry => low < key entry ∧ key entry ≤ high

variable {key}

theorem mem_above : entry ∈ above key log low ↔ entry ∈ log ∧ low < key entry := by
  rw [above, List.mem_filter, decide_eq_true_eq]

theorem mem_within :
    entry ∈ within key log low high ↔ entry ∈ log ∧ low < key entry ∧ key entry ≤ high := by
  rw [within, List.mem_filter, decide_eq_true_eq]

theorem above_append (log more : List α) (low : κ) :
    above key (log ++ more) low = above key log low ++ above key more low :=
  List.filter_append log more

theorem within_append (log more : List α) (low high : κ) :
    within key (log ++ more) low high = within key log low high ++ within key more low high :=
  List.filter_append log more

theorem above_isPrefix {longer : List α} (isPrefix : log <+: longer) (low : κ) :
    above key log low <+: above key longer low :=
  List.IsPrefix.filter _ isPrefix

theorem above_eq_nil (below : ∀ entry ∈ log, key entry ≤ low) : above key log low = [] := by
  rw [above, List.filter_eq_nil_iff]
  intro entry member isAbove
  exact absurd (of_decide_eq_true isAbove) (not_lt.mpr (below entry member))

theorem within_eq_nil (newer : ∀ entry ∈ log, high < key entry) : within key log low high = [] := by
  rw [within, List.filter_eq_nil_iff]
  intro entry member isWithin
  exact absurd (of_decide_eq_true isWithin).2 (not_le.mpr (newer entry member))

/-- Nothing is within a key and itself. -/
theorem within_self (log : List α) (low : κ) : within key log low low = [] := by
  rw [within, List.filter_eq_nil_iff]
  intro entry _ isWithin
  have both := of_decide_eq_true isWithin
  exact absurd (both.1.trans_le both.2) (lt_irrefl low)

/-- Two parts of a list, the first of which lies before the second, make up a third. -/
theorem filter_append_filter {first second whole : α → Bool}
    (covers : ∀ entry, whole entry = true ↔ first entry = true ∨ second entry = true)
    (apart : ∀ entry, first entry = true → ¬ second entry = true)
    (ordered : log.Pairwise fun older newer => second older = true → ¬ first newer = true) :
    log.filter first ++ log.filter second = log.filter whole := by
  induction log with
  | nil => rfl
  | cons entry log ih =>
    obtain ⟨head, tail⟩ := List.pairwise_cons.mp ordered
    by_cases isFirst : first entry = true
    · rw [List.filter_cons_of_pos isFirst, List.filter_cons_of_neg (apart entry isFirst),
        List.filter_cons_of_pos ((covers entry).mpr (.inl isFirst)), List.cons_append, ih tail]
    · by_cases isSecond : second entry = true
      · have noMore : log.filter first = [] :=
          List.filter_eq_nil_iff.mpr fun newer member => head newer member isSecond
        rw [List.filter_cons_of_neg isFirst, List.filter_cons_of_pos isSecond,
          List.filter_cons_of_pos ((covers entry).mpr (.inr isSecond)), ← ih tail, noMore,
          List.nil_append, List.nil_append]
      · have neither : ¬ whole entry = true := by
          rw [covers]
          exact not_or.mpr ⟨isFirst, isSecond⟩
        rw [List.filter_cons_of_neg isFirst, List.filter_cons_of_neg isSecond,
          List.filter_cons_of_neg neither, ih tail]

namespace Ascending

variable {log : List α} (ascending : Ascending key log) {part : List α}

include ascending

theorem filter (keep : α → Bool) : Ascending key (log.filter keep) :=
  List.Pairwise.filter keep ascending

/-- What is above a key starts with what is within it and a higher one. -/
theorem within_append_above (ordered : low ≤ high) :
    Library.within key log low high ++ Library.above key log high = Library.above key log low := by
  apply filter_append_filter
  · intro entry
    rw [decide_eq_true_eq, decide_eq_true_eq, decide_eq_true_eq]
    constructor
    · intro isAbove
      rcases le_or_gt (key entry) high with atMost | beyond
      · exact .inl ⟨isAbove, atMost⟩
      · exact .inr beyond
    · rintro (both | isAbove)
      · exact both.1
      · exact ordered.trans_lt isAbove
  · intro entry isWithin isAbove
    exact absurd (of_decide_eq_true isAbove) (not_lt.mpr (of_decide_eq_true isWithin).2)
  · apply ascending.imp
    intro older newer goesUp isAbove isWithin
    have beyond := (of_decide_eq_true isAbove).trans goesUp
    exact absurd beyond (not_lt.mpr (of_decide_eq_true isWithin).2)

theorem within_append_within {middle : κ} (lower : low ≤ middle) (upper : middle ≤ high) :
    Library.within key log low middle ++ Library.within key log middle high =
      Library.within key log low high := by
  apply filter_append_filter
  · intro entry
    rw [decide_eq_true_eq, decide_eq_true_eq, decide_eq_true_eq]
    constructor
    · intro both
      rcases le_or_gt (key entry) middle with atMost | beyond
      · exact .inl ⟨both.1, atMost⟩
      · exact .inr ⟨beyond, both.2⟩
    · rintro (both | both)
      · exact ⟨both.1, both.2.trans upper⟩
      · exact ⟨lower.trans_lt both.1, both.2⟩
  · intro entry isWithin isAbove
    exact absurd (of_decide_eq_true isAbove).1 (not_lt.mpr (of_decide_eq_true isWithin).2)
  · apply ascending.imp
    intro older newer goesUp isAbove isWithin
    have beyond := (of_decide_eq_true isAbove).1.trans goesUp
    exact absurd beyond (not_lt.mpr (of_decide_eq_true isWithin).2)

/-- A log that has lost its oldest entries has all that is above an entry it still has. -/
theorem above_suffix {rest : List α} (isSuffix : rest <:+ log) (member : entry ∈ rest) :
    Library.above key rest (key entry) = Library.above key log (key entry) := by
  obtain ⟨lost, rfl⟩ := isSuffix
  have ordered := (List.pairwise_append.mp ascending).2.2
  rw [above_append, above_eq_nil fun older isOlder => (ordered older isOlder entry member).le,
    List.nil_append]

/-- The last key of a part that a log starts with is at least every other. -/
theorem le_of_mem_prefix (isPrefix : part ++ [entry] <+: log) :
    ∀ other ∈ part ++ [entry], key other ≤ key entry := by
  obtain ⟨rest, rfl⟩ := isPrefix
  intro other member
  have ordered := (List.pairwise_append.mp (List.pairwise_append.mp ascending).1).2.2
  rcases List.mem_append.mp member with isEarlier | isLast
  · exact (ordered other isEarlier entry (List.mem_singleton_self entry)).le
  · rw [List.mem_singleton.mp isLast]

/-- The first entries of what is within two keys are within the first key and their last. -/
theorem within_of_prefix (isPrefix : part ++ [entry] <+: Library.within key log low high) :
    Library.within key log low (key entry) = part ++ [entry] := by
  have isMember : entry ∈ Library.within key log low high :=
    isPrefix.subset (List.mem_append_right part (List.mem_singleton_self entry))
  have atMost := (mem_within.mp isMember).2.2
  have ordered := ascending.filter fun entry => low < key entry ∧ key entry ≤ high
  have upTo := ordered.le_of_mem_prefix isPrefix
  obtain ⟨rest, split⟩ := isPrefix
  have narrower : Library.within key log low (key entry) =
      (Library.within key log low high).filter fun other => key other ≤ key entry := by
    rw [within, within, List.filter_filter]
    apply List.filter_congr
    intro other _
    rw [← Bool.decide_and, decide_eq_decide]
    exact ⟨fun both => ⟨both.2, both.1, both.2.trans atMost⟩, fun both => ⟨both.2.1, both.1⟩⟩
  rw [narrower, ← split, List.filter_append, List.filter_eq_self.mpr, List.filter_eq_nil_iff.mpr,
    List.append_nil]
  · intro other isLater
    have ordered : Ascending key (part ++ [entry] ++ rest) := split ▸ ordered
    have later := (List.pairwise_append.mp ordered).2.2 entry
      (List.mem_append_right part (List.mem_singleton_self entry)) other isLater
    rw [decide_eq_true_eq]
    exact not_le.mpr later
  · exact fun other member => decide_eq_true (upTo other member)

end Ascending

end Library
