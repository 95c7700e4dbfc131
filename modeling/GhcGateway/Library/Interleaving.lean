/-
# Interleavings

A list that two lists have been merged into, each keeping its own order: every
position of the whole comes from exactly one of the two.
-/

import Mathlib.Data.List.Perm.Basic

namespace Library

universe u v

/-- The third list is the first two merged. -/
inductive Interleaved {α : Type u} : List α → List α → List α → Prop
  | nil : Interleaved [] [] []
  | left {first second whole : List α} (item : α) (rest : Interleaved first second whole) :
      Interleaved (item :: first) second (item :: whole)
  | right {first second whole : List α} (item : α) (rest : Interleaved first second whole) :
      Interleaved first (item :: second) (item :: whole)

namespace Interleaved

variable {α : Type u} {β : Type v} {first second whole first' second' whole' : List α}

/-- Nothing is merged into a list. -/
theorem only_left (items : List α) : Interleaved items [] items := by
  induction items with
  | nil => exact .nil
  | cons item items ih => exact .left item ih

/-- A list is merged into nothing. -/
theorem only_right (items : List α) : Interleaved [] items items := by
  induction items with
  | nil => exact .nil
  | cons item items ih => exact .right item ih

/-- Interleavings one after the other. -/
theorem append (before : Interleaved first second whole)
    (after : Interleaved first' second' whole') :
    Interleaved (first ++ first') (second ++ second') (whole ++ whole') := by
  induction before with
  | nil => exact after
  | left item _ ih => exact .left item ih
  | right item _ ih => exact .right item ih

/-- One more item of the first list. -/
theorem concat_left (merged : Interleaved first second whole) (item : α) :
    Interleaved (first ++ [item]) second (whole ++ [item]) := by
  have last : Interleaved [item] [] [item] := only_left [item]
  have both := merged.append last
  rw [List.append_nil] at both
  exact both

/-- More items of the second list. -/
theorem append_right (merged : Interleaved first second whole) (items : List α) :
    Interleaved first (second ++ items) (whole ++ items) := by
  have both := merged.append (only_right items)
  rw [List.append_nil] at both
  exact both

/-- The whole has the items of both lists. -/
theorem perm (merged : Interleaved first second whole) : whole.Perm (first ++ second) := by
  induction merged with
  | nil => exact .nil
  | left item _ ih => exact ih.cons item
  | right item _ ih => exact (ih.cons item).trans List.perm_middle.symm

end Interleaved

end Library
