/-
# Oldest-first eviction

A store that is over its bound gives up its oldest rows. Bounded by a count it
gives up a prefix of its rows in order of age; bounded by a weight it goes through
them in that order and stops as soon as no weight is in excess.

The module is independent of what the rows are.
-/

import GhcGateway.Library.Table

namespace Library

universe u

namespace Eviction

variable {α : Type u} (weight : α → Nat) {rows : List α} {excess : Int}

/-- The rows to give up, oldest first, while some weight is in excess. -/
def oldestExceeding : Int → List α → List α
  | _, [] => []
  | excess, row :: rows =>
    if excess ≤ 0 then [] else row :: oldestExceeding (excess - weight row) rows

def weighed (rows : List α) : Nat := (rows.map weight).sum

@[simp]
theorem weighed_cons (row : α) (rows : List α) :
    weighed weight (row :: rows) = weight row + weighed weight rows := by
  simp [weighed]

theorem weighed_perm {first second : List α} (same : first.Perm second) :
    weighed weight first = weighed weight second := (same.map weight).sum_eq

/-- What is given up are the oldest rows. -/
theorem oldestExceeding_prefix (excess : Int) (rows : List α) :
    oldestExceeding weight excess rows <+: rows := by
  induction rows generalizing excess with
  | nil => exact List.prefix_refl _
  | cons row rows ih =>
    rw [oldestExceeding]
    split
    · exact List.nil_prefix
    · exact (List.prefix_cons_inj row).mpr (ih _)

/-- Nothing is given up without a weight in excess. -/
theorem pos_of_oldestExceeding_ne_nil (some : oldestExceeding weight excess rows ≠ []) :
    0 < excess := by
  cases rows with
  | nil => exact absurd rfl some
  | cons row rows =>
    rw [oldestExceeding] at some
    split at some
    · exact absurd rfl some
    · next positive => exact not_le.mp positive

/-- Enough is given up, if there is enough. -/
theorem le_weighed_oldestExceeding (enough : excess ≤ weighed weight rows) :
    excess ≤ weighed weight (oldestExceeding weight excess rows) := by
  induction rows generalizing excess with
  | nil => exact enough
  | cons row rows ih =>
    rw [oldestExceeding]
    split
    · next none => exact Int.le_trans none (Int.natCast_nonneg _)
    · rw [weighed_cons] at enough ⊢
      have rest : excess - weight row ≤ weighed weight rows := by omega
      have := ih rest
      omega

end Eviction

end Library
