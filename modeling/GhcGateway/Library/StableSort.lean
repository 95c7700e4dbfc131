/-
# Stable sorting by a key

A list of keyed entries is rearranged when the entries of every key keep their order
among themselves; entries of different keys may change places. Sorting by the key stably
is a choice of one list from every class of rearrangements: it rearranges, and two lists
have the same result exactly if one is a rearrangement of the other.
-/

import Mathlib.Data.List.Sort

namespace Library

open scoped Classical

universe u v w

section

variable {α : Type u} {κ : Type v} {entry : α}

/-- The entries of every key are the same, in the same order. -/
def Rearranged (key : α → κ) (left right : List α) : Prop :=
  ∀ k, left.filter (fun entry => key entry = k) = right.filter (fun entry => key entry = k)

variable {key : α → κ} {left middle right : List α}

theorem Rearranged.refl (key : α → κ) (entries : List α) : Rearranged key entries entries :=
  fun _ => rfl

theorem Rearranged.symm (rearranged : Rearranged key left right) : Rearranged key right left :=
  fun k => (rearranged k).symm

theorem Rearranged.trans (first : Rearranged key left middle)
    (second : Rearranged key middle right) : Rearranged key left right :=
  fun k => (first k).trans (second k)

theorem Rearranged.cons (rearranged : Rearranged key left right) (entry : α) :
    Rearranged key (entry :: left) (entry :: right) := by
  intro k
  simp only [List.filter_cons, rearranged k]

/-- Two neighbours with different keys change places. -/
theorem Rearranged.swap {first second : α} (apart : key first ≠ key second) (entries : List α) :
    Rearranged key (first :: second :: entries) (second :: first :: entries) := by
  intro k
  by_cases isFirst : key first = k
  · have notSecond : key second ≠ k := fun isSecond => apart (isFirst.trans isSecond.symm)
    simp [isFirst, notSecond]
  · simp [List.filter_cons, isFirst]

theorem Rearranged.mem (rearranged : Rearranged key left right) (member : entry ∈ left) :
    entry ∈ right := by
  have among : entry ∈ left.filter (fun other => key other = key entry) := by simp [member]
  rw [rearranged] at among
  exact List.mem_of_mem_filter among

theorem Rearranged.eq_nil (rearranged : Rearranged key [] right) : right = [] :=
  List.eq_nil_iff_forall_not_mem.mpr fun _ member =>
    absurd (rearranged.symm.mem member) List.not_mem_nil

theorem Rearranged.of_cons (rearranged : Rearranged key (entry :: left) (entry :: right)) :
    Rearranged key left right := by
  intro k
  have same := rearranged k
  by_cases isEntry : key entry = k
  · simpa [isEntry] using same
  · simpa [isEntry] using same

/-- The first entry of a key is the same. -/
theorem Rearranged.head_eq {first second : α}
    (rearranged : Rearranged key (first :: left) (second :: right))
    (sameKey : key first = key second) : first = second := by
  have same := rearranged (key first)
  rw [List.filter_cons_of_pos (by simp), List.filter_cons_of_pos (by simp [sameKey])] at same
  exact List.head_eq_of_cons_eq same

/-- A change of the entries that keeps their keys keeps the rearrangement. -/
theorem Rearranged.map {β : Type w} {other : β → κ} (rearranged : Rearranged key left right)
    (change : α → β) (keeps : ∀ entry, other (change entry) = key entry) :
    Rearranged other (left.map change) (right.map change) := by
  intro k
  have filters (entries : List α) :
      (entries.map change).filter (fun entry => other entry = k) =
        (entries.filter fun entry => key entry = k).map change := by
    simp [List.filter_map, Function.comp_def, keeps]
  rw [filters, filters, rearranged k]

/-- Keys may be replaced by what determines them. -/
theorem rearranged_comp {ι : Type w} {name : κ → ι}
    (injective : Function.Injective name) :
    Rearranged (name ∘ key) left right ↔ Rearranged key left right := by
  constructor
  · intro rearranged k
    simpa [injective.eq_iff] using rearranged (name k)
  · intro rearranged i
    by_cases named : ∃ k, name k = i
    · obtain ⟨k, rfl⟩ := named
      simpa [injective.eq_iff] using rearranged k
    · have none (entries : List α) : entries.filter (fun entry => (name ∘ key) entry = i) = [] := by
        simpa using fun entry _ => fun same => named ⟨key entry, same⟩
      rw [none, none]

end

variable {α : Type u} {κ : Type v} [LinearOrder κ]

/-- The entries in the order of their keys, those of one key in the order given. -/
def stableSort (key : α → κ) (entries : List α) : List α :=
  entries.insertionSort fun left right => key left ≤ key right

variable {key : α → κ} {left right : List α}

theorem rearranged_orderedInsert (key : α → κ) (entry : α) (entries : List α) :
    Rearranged key (entry :: entries)
      (entries.orderedInsert (fun left right => key left ≤ key right) entry) := by
  induction entries with
  | nil => exact .refl key _
  | cons first entries ih =>
    rw [List.orderedInsert_cons]
    split
    case isTrue => exact .refl key _
    case isFalse isAfter =>
      have apart : key entry ≠ key first := fun same => isAfter (le_of_eq same)
      exact (Rearranged.swap apart entries).trans (ih.cons first)

theorem rearranged_stableSort (key : α → κ) (entries : List α) :
    Rearranged key entries (stableSort key entries) := by
  induction entries with
  | nil => exact .refl key _
  | cons entry entries ih => exact (ih.cons entry).trans (rearranged_orderedInsert key entry _)

theorem pairwise_stableSort (key : α → κ) (entries : List α) :
    (stableSort key entries).Pairwise fun left right => key left ≤ key right := by
  have : IsTrans α fun left right => key left ≤ key right := ⟨fun _ _ _ => le_trans⟩
  have : Std.Total fun left right : α => key left ≤ key right := ⟨fun _ _ => le_total _ _⟩
  exact List.pairwise_insertionSort _ entries

/-- The least key of a sorted list is at most every key of a rearrangement. -/
theorem Rearranged.head_le {first second : α}
    (rearranged : Rearranged key (first :: left) (second :: right))
    (sorted : (first :: left).Pairwise fun left right => key left ≤ key right) :
    key first ≤ key second := by
  have member : second ∈ first :: left := rearranged.symm.mem List.mem_cons_self
  cases List.mem_cons.mp member with
  | inl isFirst => exact le_of_eq (congrArg key isFirst.symm)
  | inr later => exact List.rel_of_pairwise_cons sorted later

/-- A class of rearrangements has one sorted list. -/
theorem Rearranged.eq_of_pairwise (rearranged : Rearranged key left right)
    (isLeft : left.Pairwise fun left right => key left ≤ key right)
    (isRight : right.Pairwise fun left right => key left ≤ key right) : left = right := by
  induction left generalizing right with
  | nil => exact rearranged.eq_nil.symm
  | cons first left ih =>
    cases right with
    | nil => exact rearranged.symm.eq_nil
    | cons second right =>
      have sameKey : key first = key second :=
        le_antisymm (rearranged.head_le isLeft) (rearranged.symm.head_le isRight)
      have same : first = second := rearranged.head_eq sameKey
      subst same
      exact congrArg _ (ih rearranged.of_cons isLeft.of_cons isRight.of_cons)

theorem stableSort_eq_iff :
    stableSort key left = stableSort key right ↔ Rearranged key left right := by
  constructor
  · intro same
    have sorted := rearranged_stableSort key left
    rw [same] at sorted
    exact sorted.trans (rearranged_stableSort key right).symm
  · intro rearranged
    have sorted : Rearranged key (stableSort key left) (stableSort key right) :=
      (rearranged_stableSort key left).symm.trans
        (rearranged.trans (rearranged_stableSort key right))
    exact sorted.eq_of_pairwise (pairwise_stableSort key left) (pairwise_stableSort key right)

end Library
