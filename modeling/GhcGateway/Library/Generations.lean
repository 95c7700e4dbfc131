/-
# Generations of values

A store keeps values under a key and a generation of the key; elsewhere it is written
which generation of each key is the current one. The two are kept in step without a
common transaction: a generation is stored before it becomes the current one, and what is
not current is pruned afterwards. `Covers` is what this order keeps at any time, `Exact`
what a prune brings about.
-/

import Mathlib.Logic.Function.Basic

namespace Library

universe u v

/-- The stored values of each generation of each key. -/
abbrev Generations (κ : Type u) (ν : Type v) := κ → Nat → Option ν

namespace Generations

variable {κ : Type u} {ν : Type v} [DecidableEq κ] {key : κ} {number : Nat}

def put (stored : Generations κ ν) (key : κ) (generation : Nat) (value : ν) : Generations κ ν :=
  fun other number =>
    if other = key ∧ number = generation then some value else stored other number

def remove (stored : Generations κ ν) (key : κ) : Generations κ ν :=
  fun other number => if other = key then none else stored other number

omit [DecidableEq κ] in
def prune (stored : Generations κ ν) (current : κ → Option Nat) : Generations κ ν :=
  fun key number => if current key = some number then stored key number else none

/-- The current generation of every key is stored. -/
def Covers (stored : Generations κ ν) (current : κ → Option Nat) : Prop :=
  ∀ key number, current key = some number → stored key number ≠ none

def Exact (stored : Generations κ ν) (current : κ → Option Nat) : Prop :=
  ∀ key number, stored key number ≠ none ↔ current key = some number

variable {stored : Generations κ ν} {current : κ → Option Nat}

@[simp]
theorem put_self (stored : Generations κ ν) (key : κ) (generation : Nat) (value : ν) :
    stored.put key generation value key generation = some value := if_pos ⟨rfl, rfl⟩

@[simp]
theorem remove_self (stored : Generations κ ν) (key : κ) (number : Nat) :
    stored.remove key key number = none := if_pos rfl

theorem remove_of_ne {other : κ} (apart : other ≠ key) (number : Nat) :
    stored.remove key other number = stored other number := if_neg apart

omit [DecidableEq κ] in
theorem prune_of_current (isCurrent : current key = some number) :
    stored.prune current key number = stored key number := if_pos isCurrent

omit [DecidableEq κ] in
theorem prune_ne_none (kept : stored.prune current key number ≠ none) :
    current key = some number := by
  by_contra unset
  exact kept (if_neg unset)

/-- Storing more loses nothing. -/
theorem Covers.put (covers : stored.Covers current) (key : κ) (generation : Nat) (value : ν) :
    (stored.put key generation value).Covers current := by
  intro other number isCurrent
  rw [Generations.put]
  split
  · exact Option.some_ne_none value
  · exact covers other number isCurrent

/-- A key without a current generation may lose all of them. -/
theorem Covers.remove (covers : stored.Covers current) (retired : current key = none) :
    (stored.remove key).Covers current := by
  intro other number isCurrent
  have apart : other ≠ key := by
    rintro rfl
    cases retired.symm.trans isCurrent
  rw [remove_of_ne apart]
  exact covers other number isCurrent

omit [DecidableEq κ] in
/-- A prune keeps what is current. -/
theorem Covers.prune (covers : stored.Covers current) : (stored.prune current).Covers current := by
  intro key number isCurrent
  rw [prune_of_current isCurrent]
  exact covers key number isCurrent

omit [DecidableEq κ] in
/-- A prune leaves the current generations. -/
theorem Covers.exact_prune (covers : stored.Covers current) :
    (stored.prune current).Exact current :=
  fun key number => ⟨prune_ne_none, covers.prune key number⟩

omit [DecidableEq κ] in
/-- What is current may change to what is stored or was current. -/
theorem Covers.publish {next : κ → Option Nat} (covers : stored.Covers current)
    (published : ∀ key number, next key = some number →
      stored key number ≠ none ∨ current key = some number) : stored.Covers next := by
  intro key number isCurrent
  rcases published key number isCurrent with isStored | was
  · exact isStored
  · exact covers key number was

end Generations

end Library
