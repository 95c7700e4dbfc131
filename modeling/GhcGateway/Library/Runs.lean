/-
# Runs of keyed pieces

Pieces are written one after the other, and a piece whose key is that of the last run joins
it. Neighbouring runs have different keys, the runs hold the pieces in their order, and the
first run is made of the first pieces with its key.

Runs are listed the last one first, since that is where a piece is put.
-/

import Mathlib.Data.List.Chain

namespace Library

universe u v

variable {κ : Type u} {β : Type v} [DecidableEq κ] {runs : List (κ × List β)}

/-- A piece joins the last run or starts one. -/
def pushRun (key : κ) (items : List β) : List (κ × List β) → List (κ × List β)
  | [] => [(key, items)]
  | (last, others) :: earlier =>
    if last = key then (last, others ++ items) :: earlier
    else (key, items) :: (last, others) :: earlier

/-- The runs of some pieces, behind those that are there. -/
def runsFrom (runs pieces : List (κ × List β)) : List (κ × List β) :=
  pieces.foldl (fun runs piece => pushRun piece.1 piece.2 runs) runs

/-- No two neighbouring runs have one key. -/
def Alternating (runs : List (κ × List β)) : Prop :=
  runs.IsChain fun next previous => next.1 ≠ previous.1

theorem Alternating.pushRun (alternating : Alternating runs) (key : κ) (items : List β) :
    Alternating (pushRun key items runs) := by
  cases runs with
  | nil => exact List.isChain_singleton _
  | cons last earlier =>
    obtain ⟨lastKey, others⟩ := last
    rw [Library.pushRun]
    split
    case isTrue same =>
      cases earlier with
      | nil => exact List.isChain_singleton _
      | cons previous earlier =>
        rw [Alternating, List.isChain_cons_cons] at alternating ⊢
        exact alternating
    case isFalse apart => exact List.isChain_cons_cons.mpr ⟨Ne.symm apart, alternating⟩

theorem Alternating.runsFrom (alternating : Alternating runs) (pieces : List (κ × List β)) :
    Alternating (runsFrom runs pieces) := by
  induction pieces generalizing runs with
  | nil => exact alternating
  | cons piece pieces ih => exact ih (alternating.pushRun piece.1 piece.2)

theorem flatten_pushRun (key : κ) (items : List β) (runs : List (κ × List β)) :
    (pushRun key items runs).reverse.flatMap Prod.snd = runs.reverse.flatMap Prod.snd ++ items := by
  cases runs with
  | nil => simp [pushRun]
  | cons last earlier =>
    rw [pushRun]
    split <;> simp

/-- The runs hold the pieces in their order. -/
theorem flatten_runsFrom (runs pieces : List (κ × List β)) :
    (runsFrom runs pieces).reverse.flatMap Prod.snd =
      runs.reverse.flatMap Prod.snd ++ pieces.flatMap Prod.snd := by
  induction pieces generalizing runs with
  | nil => simp [runsFrom]
  | cons piece pieces ih =>
    rw [runsFrom, List.foldl_cons, ← runsFrom, ih, flatten_pushRun, List.flatMap_cons,
      List.append_assoc]

/-- A run that another one follows is finished. -/
theorem getLast?_runsFrom (last first : κ × List β) (between pieces : List (κ × List β)) :
    (runsFrom (last :: (between ++ [first])) pieces).getLast? = some first := by
  induction pieces generalizing last between with
  | nil => rw [← List.cons_append, runsFrom, List.foldl_nil, List.getLast?_concat]
  | cons piece pieces ih =>
    rw [runsFrom, List.foldl_cons, ← runsFrom, pushRun]
    split
    · exact ih _ between
    · exact ih _ (last :: between)

/-- The first run is made of the first pieces with its key. -/
theorem getLast?_runs (key : κ) (items : List β) (pieces : List (κ × List β)) :
    (runsFrom [(key, items)] pieces).getLast? =
      some (key, items ++ (pieces.takeWhile fun piece => piece.1 = key).flatMap Prod.snd) := by
  induction pieces generalizing items with
  | nil => simp [runsFrom]
  | cons piece pieces ih =>
    rw [runsFrom, List.foldl_cons, ← runsFrom, pushRun]
    split
    case isTrue same =>
      rw [ih, List.takeWhile_cons_of_pos (by simpa using same.symm), List.flatMap_cons,
        List.append_assoc]
    case isFalse apart =>
      rw [List.takeWhile_cons_of_neg (by simpa using Ne.symm apart), List.flatMap_nil,
        List.append_nil]
      exact getLast?_runsFrom piece (key, items) [] pieces

end Library
