/-
# Tables with a primary key

A table is a list of rows in which no two rows have the same key, so that a row
is determined by its key. Inserting needs the key to be free; updating keeps
every key; deleting takes away the rows that satisfy a condition.

The module is independent of what the rows are.
-/

import Mathlib.Algebra.GroupWithZero.Nat
import Mathlib.Algebra.Order.BigOperators.Group.List
import Mathlib.Algebra.Order.Group.Nat
import Mathlib.Data.List.Basic
import Mathlib.Data.List.Nodup
import Mathlib.Data.List.Sort

namespace Library

universe u v

/-- Rows with pairwise different keys. -/
structure Table {ρ : Type u} {κ : Type v} (key : ρ → κ) where
  rows : List ρ
  unique : (rows.map key).Nodup

namespace Table

variable {ρ : Type u} {κ : Type v} {key : ρ → κ}
  {table : Table key} {condition : ρ → Bool} {row other : ρ} {change : ρ → ρ} {wanted : κ}
  {number : ρ → Nat} {next : Nat} {others : List ρ} {keys : List κ} {σ : Type w}

@[ext]
theorem ext {left right : Table key} (same : left.rows = right.rows) : left = right := by
  cases left
  cases right
  congr

instance [DecidableEq ρ] : DecidableEq (Table key) := fun left right =>
  decidable_of_iff (left.rows = right.rows) ⟨ext, congrArg rows⟩

def empty : Table key := ⟨[], List.nodup_nil⟩

def size (table : Table key) : Nat := table.rows.length

/-- `DELETE … WHERE`. -/
def delete (table : Table key) (condition : ρ → Bool) : Table key where
  rows := table.rows.filter fun row => !condition row
  unique := table.unique.sublist (List.filter_sublist.map key)

/-- `SUM` of a column. -/
def total (table : Table key) (weight : ρ → Nat) : Nat := (table.rows.map weight).sum

/-- `UPDATE` of every row. -/
def updateAll (table : Table key) (change : ρ → ρ) (keeps : ∀ row, key (change row) = key row) :
    Table key where
  rows := table.rows.map change
  unique := by
    have same : (table.rows.map change).map key = table.rows.map key := by
      rw [List.map_map]
      apply List.map_congr_left
      intro row _
      exact keeps row
    rw [same]
    exact table.unique

variable [DecidableEq κ]

def find? (table : Table key) (wanted : κ) : Option ρ :=
  table.rows.find? fun row => key row = wanted

omit [DecidableEq κ] in
/-- A column that the change keeps is kept. -/
theorem map_update_of_keeps {γ : Type v} {column : ρ → γ} {rows : List ρ} {changed : ρ → Prop}
    [DecidablePred changed] (keeps : ∀ row, column (change row) = column row) :
    (rows.map fun row => if changed row then change row else row).map column =
      rows.map column := by
  rw [List.map_map]
  apply List.map_congr_left
  intro row _
  by_cases this : changed row
  · simp [this, keeps]
  · simp [this]

/-- `UPDATE … WHERE` the key is the one given. -/
def update (table : Table key) (wanted : κ) (change : ρ → ρ)
    (keeps : ∀ row, key (change row) = key row) : Table key where
  rows := table.rows.map fun row => if key row = wanted then change row else row
  unique := by
    rw [map_update_of_keeps keeps]
    exact table.unique

theorem find?_eq_some : table.find? wanted = some row ↔ row ∈ table.rows ∧ key row = wanted := by
  constructor
  · intro found
    exact ⟨List.mem_of_find?_eq_some found, by simpa using List.find?_some found⟩
  · rintro ⟨member, rfl⟩
    cases found : table.find? (key row) with
    | none => exact absurd (List.find?_eq_none.mp found row member) (by simp)
    | some other =>
      have same : key other = key row := by simpa using List.find?_some found
      have otherMember := List.mem_of_find?_eq_some found
      rw [List.inj_on_of_nodup_map table.unique otherMember member same]

theorem find?_eq_none : table.find? wanted = none ↔ ∀ row ∈ table.rows, key row ≠ wanted := by
  simp [find?]

theorem find?_of_mem (member : row ∈ table.rows) :
    table.find? (key row) = some row := find?_eq_some.mpr ⟨member, rfl⟩

omit [DecidableEq κ] in
/-- Rows with the same key are the same row. -/
theorem eq_of_key_eq (member : row ∈ table.rows) (otherMember : other ∈ table.rows)
    (same : key row = key other) : row = other :=
  List.inj_on_of_nodup_map table.unique member otherMember same

/-- `INSERT`, where the key is free. -/
def insert (table : Table key) (row : ρ) (free : table.find? (key row) = none) : Table key where
  rows := table.rows ++ [row]
  unique := by
    rw [List.map_append, List.nodup_append]
    refine ⟨table.unique, List.nodup_singleton _, ?_⟩
    intro a member b single
    rw [List.map_singleton, List.mem_singleton] at single
    subst single
    obtain ⟨other, otherMember, rfl⟩ := List.mem_map.mp member
    exact find?_eq_none.mp free other otherMember

/-! ## Rows after a change -/

omit [DecidableEq κ] in
theorem mem_delete :
    row ∈ (table.delete condition).rows ↔ row ∈ table.rows ∧ condition row = false := by
  simp [delete]

theorem mem_update {keeps : ∀ row, key (change row) = key row} :
    row ∈ (table.update wanted change keeps).rows ↔
      ∃ before ∈ table.rows, row = if key before = wanted then change before else before := by
  simp only [update, List.mem_map]
  constructor
  · rintro ⟨before, member, rfl⟩
    exact ⟨before, member, rfl⟩
  · rintro ⟨before, member, rfl⟩
    exact ⟨before, member, rfl⟩

omit [DecidableEq κ] in
theorem mem_updateAll {keeps : ∀ row, key (change row) = key row} :
    row ∈ (table.updateAll change keeps).rows ↔ ∃ before ∈ table.rows, row = change before := by
  simp only [updateAll, List.mem_map]
  constructor
  · rintro ⟨before, member, rfl⟩
    exact ⟨before, member, rfl⟩
  · rintro ⟨before, member, rfl⟩
    exact ⟨before, member, rfl⟩

theorem mem_insert (free : table.find? (key row) = none) :
    other ∈ (table.insert row free).rows ↔ other ∈ table.rows ∨ other = row := by
  simp [insert]

omit [DecidableEq κ] in
theorem size_delete_le (table : Table key) (condition : ρ → Bool) :
    (table.delete condition).size ≤ table.size := List.length_filter_le _ _

omit [DecidableEq κ] in
theorem total_delete_le (table : Table key) (condition : ρ → Bool) (weight : ρ → Nat) :
    (table.delete condition).total weight ≤ table.total weight :=
  (List.filter_sublist.map weight).sum_le_sum (fun _ _ => Nat.zero_le _)

@[simp]
theorem size_update (table : Table key) (wanted : κ) (change : ρ → ρ)
    (keeps : ∀ row, key (change row) = key row) :
    (table.update wanted change keeps).size = table.size := List.length_map _

@[simp]
theorem size_insert (table : Table key) (row : ρ) (free : table.find? (key row) = none) :
    (table.insert row free).size = table.size + 1 := by
  simp [insert, size]

theorem find?_update (table : Table key) (wanted asked : κ) (change : ρ → ρ)
    (keeps : ∀ row, key (change row) = key row) :
    (table.update wanted change keeps).find? asked =
      (table.find? asked).map fun row => if key row = wanted then change row else row := by
  have keyed : ∀ row, key (if key row = wanted then change row else row) = key row := by
    intro row
    by_cases this : key row = wanted
    · rw [if_pos this, keeps]
    · rw [if_neg this]
  simp only [find?, update, List.find?_map, Function.comp_def, keyed]

theorem find?_update_of_ne {asked : κ} {keeps : ∀ row, key (change row) = key row}
    (apart : asked ≠ wanted) :
    (table.update wanted change keeps).find? asked = table.find? asked := by
  rw [find?_update]
  cases found : table.find? asked with
  | none => rfl
  | some row =>
    have same := (find?_eq_some.mp found).2
    rw [Option.map_some, if_neg (same ▸ apart)]

theorem find?_update_self {keeps : ∀ row, key (change row) = key row} :
    (table.update wanted change keeps).find? wanted = (table.find? wanted).map change := by
  rw [find?_update]
  cases found : table.find? wanted with
  | none => rfl
  | some row => rw [Option.map_some, Option.map_some, if_pos (find?_eq_some.mp found).2]

/-- A row after a loop that updates one key at a time has been updated once or not at all. -/
theorem mem_foldl_update (get : σ → Table key) {work : σ → κ → σ} (change : ρ → ρ)
    (keeps : ∀ row, key (change row) = key row)
    (updates : ∀ state wanted, get (work state wanted) = (get state).update wanted change keeps)
    (again : ∀ row, change (change row) = change row) {state : σ}
    (member : row ∈ (get (keys.foldl work state)).rows) :
    ∃ before ∈ (get state).rows, row = before ∨ key before ∈ keys ∧ row = change before := by
  induction keys generalizing state with
  | nil => exact ⟨row, member, .inl rfl⟩
  | cons wanted keys ih =>
    obtain ⟨middle, middleMember, changed⟩ := ih member
    rw [updates] at middleMember
    obtain ⟨before, beforeMember, rfl⟩ := mem_update.mp middleMember
    refine ⟨before, beforeMember, ?_⟩
    by_cases first : key before = wanted
    · rw [if_pos first] at changed
      refine .inr ⟨List.mem_cons.mpr (.inl first), ?_⟩
      rcases changed with rfl | ⟨_, rfl⟩
      · rfl
      · exact again before
    · rw [if_neg first] at changed
      exact changed.imp_right (And.imp_left (List.mem_cons_of_mem wanted))

theorem find?_insert_self (free : table.find? (key row) = none) :
    (table.insert row free).find? (key row) = some row :=
  find?_of_mem ((mem_insert _).mpr (.inr rfl))

theorem find?_insert_of_ne {free : table.find? (key row) = none} (apart : key row ≠ wanted) :
    (table.insert row free).find? wanted = table.find? wanted := by
  rw [find?, insert, List.find?_append]
  simp [apart, find?]

omit [DecidableEq κ] in
/-- Deleting no row changes nothing. -/
theorem delete_eq_self (none : ∀ row ∈ table.rows, condition row = false) :
    table.delete condition = table := by
  apply ext
  rw [delete, List.filter_eq_self]
  intro row member
  rw [none row member]
  rfl

/-- Deleting the row of a key takes away that row and no other. -/
theorem total_delete_key (member : row ∈ table.rows) (weight : ρ → Nat) :
    (table.delete fun other => key other = key row).total weight + weight row =
      table.total weight := by
  obtain ⟨before, after, split⟩ := List.append_of_mem member
  have unique := table.unique
  rw [split, List.map_append, List.map_cons, List.nodup_append, List.nodup_cons] at unique
  have front : ∀ other ∈ before, key other ≠ key row := fun other otherMember =>
    unique.2.2 _ (List.mem_map_of_mem otherMember) _ List.mem_cons_self
  have back : ∀ other ∈ after, key other ≠ key row := fun other otherMember same =>
    unique.2.1.1 (same ▸ List.mem_map_of_mem otherMember)
  have kept : (table.rows.filter fun other => !decide (key other = key row)) = before ++ after := by
    rw [split, List.filter_append, List.filter_cons, if_neg (by simp),
      List.filter_eq_self.mpr fun other otherMember => by simpa using front other otherMember,
      List.filter_eq_self.mpr fun other otherMember => by simpa using back other otherMember]
  show ((table.rows.filter fun other => !decide (key other = key row)).map weight).sum +
      weight row =
    (table.rows.map weight).sum
  rw [kept, split]
  simp only [List.map_append, List.map_cons, List.sum_append, List.sum_cons]
  omega

theorem total_insert (table : Table key) (row : ρ) (free : table.find? (key row) = none)
    (weight : ρ → Nat) : (table.insert row free).total weight =
      table.total weight + weight row := by
  rw [total, insert, List.map_append, List.sum_append, List.map_singleton, List.sum_singleton]
  rfl

/-- An update of the row of a key adds what it adds to the weight of that row. -/
theorem total_update_of_adds {keeps : ∀ row, key (change row) = key row} {weight : ρ → Nat}
    {added : Nat} (found : table.find? wanted ≠ none)
    (adds : ∀ row, weight (change row) = weight row + added) :
    (table.update wanted change keeps).total weight = table.total weight + added := by
  obtain ⟨row, isRow⟩ := Option.ne_none_iff_exists'.mp found
  obtain ⟨member, rfl⟩ := find?_eq_some.mp isRow
  obtain ⟨before, after, split⟩ := List.append_of_mem member
  have unique := table.unique
  rw [split, List.map_append, List.map_cons, List.nodup_append, List.nodup_cons] at unique
  have front : ∀ other ∈ before, key other ≠ key row := fun other otherMember =>
    unique.2.2 _ (List.mem_map_of_mem otherMember) _ List.mem_cons_self
  have back : ∀ other ∈ after, key other ≠ key row := fun other otherMember same =>
    unique.2.1.1 (same ▸ List.mem_map_of_mem otherMember)
  have same : ∀ rows : List ρ, (∀ other ∈ rows, key other ≠ key row) →
      rows.map (fun other => if key other = key row then change other else other) = rows :=
    fun rows apart => List.map_congr_left (fun other otherMember =>
      if_neg (apart other otherMember)) |>.trans (List.map_id' rows)
  have changed : (table.update (key row) change keeps).rows = before ++ change row :: after := by
    show table.rows.map (fun other => if key other = key row then change other else other) = _
    rw [split, List.map_append, List.map_cons, same before front, same after back, if_pos rfl]
  rw [total, total, changed, split]
  simp only [List.map_append, List.map_cons, List.sum_append, List.sum_cons, adds]
  omega

omit [DecidableEq κ] in
theorem size_eq_total (table : Table key) : table.size = table.total fun _ => 1 := by
  simp [size, total]

/-- Deleting a key takes away at most one row. -/
theorem size_le_size_delete_key (table : Table key) (wanted : κ) :
    table.size ≤ (table.delete fun row => key row = wanted).size + 1 := by
  cases found : table.find? wanted with
  | none =>
    have absent := find?_eq_none.mp found
    rw [delete_eq_self fun row member => by simpa using absent row member]
    exact Nat.le_succ _
  | some row =>
    obtain ⟨member, rfl⟩ := find?_eq_some.mp found
    have counted := total_delete_key member fun _ => 1
    rw [← size_eq_total, ← size_eq_total] at counted
    exact Nat.le_of_eq counted.symm

omit [DecidableEq κ] in
/-- Deleting the rows of some keys takes away those rows and no others. -/
theorem total_delete_mem {rows : List ρ} (whole : (rows ++ others).Perm table.rows)
    (taken : ∀ row, condition row = true ↔ key row ∈ rows.map key) (weight : ρ → Nat) :
    (table.delete condition).total weight + (rows.map weight).sum = table.total weight := by
  have unique : ((rows ++ others).map key).Nodup := (whole.map key).nodup_iff.mpr table.unique
  rw [List.map_append, List.nodup_append] at unique
  have gone : rows.filter (fun row => !condition row) = [] := by
    rw [List.filter_eq_nil_iff]
    intro row member
    rw [(taken row).mpr (List.mem_map_of_mem member)]
    exact Bool.false_ne_true
  have kept : others.filter (fun row => !condition row) = others := by
    rw [List.filter_eq_self]
    intro row member
    have apart : condition row = false := by
      rw [← Bool.not_eq_true, taken]
      intro same
      exact unique.2.2 _ same _ (List.mem_map_of_mem member) rfl
    rw [apart]
    rfl
  have rest : (table.delete condition).rows.Perm others := by
    have filtered := (whole.filter fun row => !condition row).symm
    rw [List.filter_append, gone, kept, List.nil_append] at filtered
    exact filtered
  have sums := (whole.map weight).sum_eq
  rw [List.map_append, List.sum_append] at sums
  rw [total, total, (rest.map weight).sum_eq, ← sums]
  exact Nat.add_comm _ _

omit [DecidableEq κ] in
/-- Deleting the rows of some keys takes away as many rows as there are keys. -/
theorem size_delete_mem {rows : List ρ} (whole : (rows ++ others).Perm table.rows)
    (taken : ∀ row, condition row = true ↔ key row ∈ rows.map key) :
    (table.delete condition).size + rows.length = table.size := by
  have counted := total_delete_mem whole taken fun _ => 1
  rw [← size_eq_total, ← size_eq_total, List.map_const', List.sum_replicate] at counted
  simpa using counted

omit [DecidableEq κ] in
/-- Deleting twice is deleting what either condition takes. -/
theorem delete_delete (table : Table key) (first second : ρ → Bool) :
    (table.delete first).delete second = table.delete fun row => first row || second row := by
  apply ext
  show (table.rows.filter _).filter _ = table.rows.filter _
  rw [List.filter_filter]
  apply List.filter_congr
  intro row _
  rw [Bool.not_or, Bool.and_comm]

theorem delete_delete_mem (table : Table key) (wanted : κ) (others : List κ) :
    ((table.delete fun row => key row = wanted).delete fun row => key row ∈ others) =
      table.delete fun row => key row ∈ wanted :: others := by
  rw [delete_delete]
  congr 1
  funext row
  rw [← Bool.decide_or]
  simp only [List.mem_cons]

theorem delete_mem_nil (table : Table key) :
    (table.delete fun row => key row ∈ ([] : List κ)) = table :=
  delete_eq_self fun _ _ => decide_eq_false List.not_mem_nil

/-- A loop that deletes one key at a time deletes them all. -/
theorem foldl_delete_key (get : σ → Table key) {work : σ → κ → σ}
    (deletes : ∀ state wanted, get (work state wanted) =
      (get state).delete fun row => key row = wanted) (keys : List κ) (state : σ) :
    ∃ condition : ρ → Bool, (∀ row, condition row = true ↔ key row ∈ keys) ∧
      get (keys.foldl work state) = (get state).delete condition := by
  refine ⟨fun row => decide (key row ∈ keys), fun row => decide_eq_true_iff, ?_⟩
  induction keys generalizing state with
  | nil => exact (delete_mem_nil _).symm
  | cons wanted keys ih => rw [List.foldl_cons, ih, deletes, delete_delete_mem]

/-- Deleting some keys takes away at most as many rows. -/
theorem size_le_size_delete_mem (table : Table key)
    (taken : ∀ row, condition row = true ↔ key row ∈ keys) :
    table.size ≤ (table.delete condition).size + keys.length := by
  obtain rfl : condition = fun row => decide (key row ∈ keys) := by
    funext row
    rw [Bool.eq_iff_iff, taken row, decide_eq_true_iff]
  clear taken
  induction keys generalizing table with
  | nil => exact Nat.le_of_eq (congrArg size (delete_mem_nil table)).symm
  | cons wanted keys ih =>
    have first := size_le_size_delete_key table wanted
    have rest := ih (table.delete fun row => key row = wanted)
    rw [delete_delete_mem] at rest
    rw [List.length_cons]
    omega

/-- A row that the deletion spares is still found. -/
theorem find?_delete_of_false (found : table.find? wanted = some row)
    (spared : condition row = false) : (table.delete condition).find? wanted = some row := by
  obtain ⟨member, same⟩ := find?_eq_some.mp found
  exact find?_eq_some.mpr ⟨mem_delete.mpr ⟨member, spared⟩, same⟩

/-! ## Numbered rows -/

/-- The rows have pairwise different numbers, all below the next one. -/
structure Numbered (table : Table key) (number : ρ → Nat) (next : Nat) : Prop where
  apart : (table.rows.map number).Nodup
  below : ∀ row ∈ table.rows, number row < next

omit [DecidableEq κ] in
theorem numbered_empty (number : ρ → Nat) (next : Nat) :
    Numbered (empty : Table key) number next where
  apart := List.nodup_nil
  below row member := by cases member

omit [DecidableEq κ] in
theorem Numbered.delete (numbered : table.Numbered number next) (condition : ρ → Bool) :
    (table.delete condition).Numbered number next where
  apart := numbered.apart.sublist (List.filter_sublist.map number)
  below row member := numbered.below row (mem_delete.mp member).1

theorem Numbered.update (numbered : table.Numbered number next)
    {keeps : ∀ row, key (change row) = key row} (same : ∀ row, number (change row) = number row) :
    (table.update wanted change keeps).Numbered number next where
  apart := by
    rw [Table.update, map_update_of_keeps same]
    exact numbered.apart
  below row member := by
    obtain ⟨before, beforeMember, rfl⟩ := mem_update.mp member
    split
    · rw [same]
      exact numbered.below before beforeMember
    · exact numbered.below before beforeMember

theorem Numbered.insert (numbered : table.Numbered number next)
    (free : table.find? (key row) = none) (last : number row = next) :
    (table.insert row free).Numbered number (next + 1) where
  apart := by
    rw [Table.insert, List.map_append, List.map_singleton, List.nodup_append]
    refine ⟨numbered.apart, List.nodup_singleton _, ?_⟩
    intro a member b single
    obtain ⟨other, otherMember, rfl⟩ := List.mem_map.mp member
    rw [List.mem_singleton] at single
    rw [single, last]
    exact Nat.ne_of_lt (numbered.below other otherMember)
  below other member := by
    rcases (mem_insert free).mp member with old | rfl
    · exact Nat.lt_succ_of_lt (numbered.below other old)
    · rw [last]
      exact Nat.lt_succ_self next

def orderedBy (table : Table key) (column : ρ → Nat) : List ρ :=
  table.rows.insertionSort fun left right => column left ≤ column right

omit [DecidableEq κ] in
theorem perm_orderedBy (table : Table key) (column : ρ → Nat) :
    (table.orderedBy column).Perm table.rows := List.perm_insertionSort _ _

end Table

end Library
