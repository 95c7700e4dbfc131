/-
# Insertion-ordered maps

A map that is iterated in the order its keys were first set. Setting a key that
is present replaces its value in place; deleting one closes the gap. The entries
have distinct keys by construction, so an entry is determined by its key.
-/

import Mathlib.Algebra.GroupWithZero.Nat
import Mathlib.Data.List.Basic
import Mathlib.Data.List.Nodup
import Mathlib.Data.List.Perm.Subperm
import Mathlib.Logic.Function.Basic

namespace Library

universe u v w

/-- Entries in insertion order, each key once. -/
structure OrderedMap (κ : Type u) (ν : Type v) where
  entries : List (κ × ν)
  nodup : (entries.map Prod.fst).Nodup

namespace OrderedMap

variable {κ : Type u} {ν : Type v} {μ : Type w} [DecidableEq κ]
  {map : OrderedMap κ ν} {key : κ} {value old : ν} {entries : List (κ × ν)}
  {condition : ν → Bool} {weight : κ → ν → Nat} {view : ν → μ} {change : ν → ν}

instance [DecidableEq ν] : DecidableEq (OrderedMap κ ν) := fun left right =>
  decidable_of_iff (left.entries = right.entries) <| by
    cases left
    cases right
    simp

omit [DecidableEq κ] in
@[ext]
theorem ext {left right : OrderedMap κ ν} (same : left.entries = right.entries) : left = right := by
  cases left
  cases right
  congr

def empty : OrderedMap κ ν := ⟨[], List.nodup_nil⟩

omit [DecidableEq κ] in
def keys (map : OrderedMap κ ν) : List κ := map.entries.map Prod.fst

omit [DecidableEq κ] in
def values (map : OrderedMap κ ν) : List ν := map.entries.map Prod.snd

/-- The value of a key in a list of entries. -/
def getEntry : List (κ × ν) → κ → Option ν
  | [], _ => none
  | (other, value) :: rest, key => if other = key then some value else getEntry rest key

/-- The value of a key, if it is set. -/
def get (map : OrderedMap κ ν) (key : κ) : Option ν := getEntry map.entries key

def has (map : OrderedMap κ ν) (key : κ) : Bool := (map.get key).isSome

/-- Entries with the value of a key replaced, or the entry appended. -/
def setEntry : List (κ × ν) → κ → ν → List (κ × ν)
  | [], key, value => [(key, value)]
  | (other, old) :: rest, key, value =>
    if other = key then (other, value) :: rest else (other, old) :: setEntry rest key value

theorem keys_setEntry (entries : List (κ × ν)) (key : κ) (value : ν) :
    (setEntry entries key value).map Prod.fst =
      if key ∈ entries.map Prod.fst then entries.map Prod.fst
      else entries.map Prod.fst ++ [key] := by
  induction entries with
  | nil => rfl
  | cons entry rest ih =>
    obtain ⟨other, old⟩ := entry
    rw [setEntry]
    by_cases same : other = key
    · rw [if_pos same]
      simp [same]
    · rw [if_neg same, List.map_cons, ih]
      have apart : key ≠ other := fun eq => same eq.symm
      by_cases member : key ∈ rest.map Prod.fst
      · have present : key ∈ ((other, old) :: rest).map Prod.fst :=
          List.mem_cons_of_mem _ member
        rw [if_pos member, if_pos present]
        rfl
      · rw [if_neg member, if_neg]
        · rfl
        · simp only [List.map_cons, List.mem_cons, not_or]
          exact ⟨apart, member⟩

/-- Set a key: replaced in place, or appended. -/
def set (map : OrderedMap κ ν) (key : κ) (value : ν) : OrderedMap κ ν where
  entries := setEntry map.entries key value
  nodup := by
    rw [keys_setEntry]
    split
    · exact map.nodup
    · next absent => exact List.nodup_append.mpr ⟨map.nodup, List.nodup_singleton _, by
        intro a member b single
        rw [List.mem_singleton] at single
        subst single
        exact fun eq => absent (eq ▸ member)⟩

def erase (map : OrderedMap κ ν) (key : κ) : OrderedMap κ ν where
  entries := map.entries.filter fun entry => entry.1 ≠ key
  nodup := (map.nodup).sublist (List.filter_sublist.map Prod.fst)

def modify (map : OrderedMap κ ν) (key : κ) (change : ν → ν) : OrderedMap κ ν :=
  match map.get key with
  | none => map
  | some value => map.set key (change value)

/-! ## Lookups -/

theorem getEntry_eq_some (nodup : (entries.map Prod.fst).Nodup) :
    getEntry entries key = some value ↔ (key, value) ∈ entries := by
  induction entries with
  | nil => simp [getEntry]
  | cons entry rest ih =>
    obtain ⟨other, old⟩ := entry
    rw [List.map_cons, List.nodup_cons] at nodup
    rw [getEntry]
    by_cases same : other = key
    · subst same
      rw [if_pos rfl, Option.some.injEq, List.mem_cons, Prod.mk.injEq]
      constructor
      · intro eq
        exact .inl ⟨rfl, eq.symm⟩
      · rintro (⟨-, eq⟩ | member)
        · exact eq.symm
        · exact absurd (List.mem_map_of_mem member) nodup.1
    · rw [if_neg same, ih nodup.2, List.mem_cons, Prod.mk.injEq]
      constructor
      · exact .inr
      · rintro (⟨eq, -⟩ | member)
        · exact absurd eq.symm same
        · exact member

/-- An entry is what its key looks up. -/
theorem mem_entries : (key, value) ∈ map.entries ↔ map.get key = some value :=
  (getEntry_eq_some map.nodup).symm

theorem mem_keys : key ∈ map.keys ↔ ∃ value, map.get key = some value := by
  rw [keys, List.mem_map]
  constructor
  · rintro ⟨⟨other, value⟩, member, rfl⟩
    exact ⟨value, mem_entries.mp member⟩
  · rintro ⟨value, found⟩
    exact ⟨(key, value), mem_entries.mpr found, rfl⟩

theorem mem_values : value ∈ map.values ↔ ∃ key, map.get key = some value := by
  rw [values, List.mem_map]
  constructor
  · rintro ⟨⟨key, other⟩, member, rfl⟩
    exact ⟨key, mem_entries.mp member⟩
  · rintro ⟨key, found⟩
    exact ⟨(key, value), mem_entries.mpr found, rfl⟩

theorem get_eq_none : map.get key = none ↔ key ∉ map.keys := by
  rw [mem_keys, Option.eq_none_iff_forall_ne_some]
  exact ⟨fun absent ⟨value, found⟩ => absent value found, fun absent value found =>
    absent ⟨value, found⟩⟩

theorem has_iff : map.has key = true ↔ key ∈ map.keys := by
  rw [has, Option.isSome_iff_exists, mem_keys]

@[simp]
theorem get_empty (key : κ) : (empty : OrderedMap κ ν).get key = none := rfl

theorem getEntry_setEntry (entries : List (κ × ν)) (key other : κ) (value : ν) :
    getEntry (setEntry entries key value) other =
      if key = other then some value else getEntry entries other := by
  induction entries with
  | nil => rfl
  | cons entry rest ih =>
    obtain ⟨first, old⟩ := entry
    rw [setEntry]
    by_cases same : first = key
    · subst same
      rw [if_pos rfl, getEntry, getEntry]
      split <;> rfl
    · rw [if_neg same, getEntry, getEntry, ih]
      by_cases here : first = other
      · rw [if_pos here, if_pos here, if_neg fun eq => same (here.trans eq.symm)]
      · rw [if_neg here, if_neg here]

theorem get_set (map : OrderedMap κ ν) (key other : κ) (value : ν) :
    (map.set key value).get other = if key = other then some value else map.get other :=
  getEntry_setEntry map.entries key other value

@[simp]
theorem get_set_self (map : OrderedMap κ ν) (key : κ) (value : ν) :
    (map.set key value).get key = some value := by
  rw [get_set, if_pos rfl]

theorem get_set_of_ne {other : κ} (apart : key ≠ other) (map : OrderedMap κ ν) (value : ν) :
    (map.set key value).get other = map.get other := by
  rw [get_set, if_neg apart]

theorem keys_set (map : OrderedMap κ ν) (key : κ) (value : ν) :
    (map.set key value).keys = if key ∈ map.keys then map.keys else map.keys ++ [key] :=
  keys_setEntry map.entries key value

theorem keys_set_of_get (present : map.get key = some old) (value : ν) :
    (map.set key value).keys = map.keys := by
  rw [keys_set, if_pos (mem_keys.mpr ⟨old, present⟩)]

theorem keys_set_of_absent (absent : map.get key = none) (value : ν) :
    (map.set key value).keys = map.keys ++ [key] := by
  rw [keys_set, if_neg (get_eq_none.mp absent)]

theorem setEntry_of_absent (absent : getEntry entries key = none) (value : ν) :
    setEntry entries key value = entries ++ [(key, value)] := by
  induction entries with
  | nil => rfl
  | cons entry rest ih =>
    obtain ⟨other, old⟩ := entry
    rw [getEntry] at absent
    by_cases same : other = key
    · rw [if_pos same] at absent
      cases absent
    · rw [if_neg same] at absent
      rw [setEntry, if_neg same, ih absent]
      rfl

theorem entries_set_of_absent (absent : map.get key = none) (value : ν) :
    (map.set key value).entries = map.entries ++ [(key, value)] :=
  setEntry_of_absent absent value

theorem setEntry_of_get (present : getEntry entries key = some value) :
    setEntry entries key value = entries := by
  induction entries with
  | nil => cases present
  | cons entry rest ih =>
    obtain ⟨other, old⟩ := entry
    rw [getEntry] at present
    by_cases same : other = key
    · rw [if_pos same, Option.some.injEq] at present
      rw [setEntry, if_pos same, present]
    · rw [if_neg same] at present
      rw [setEntry, if_neg same, ih present]

/-- Setting a key to the value it has changes nothing. -/
theorem set_of_get (present : map.get key = some value) : map.set key value = map :=
  ext (setEntry_of_get present)

theorem map_setEntry_of_get (present : getEntry entries key = some old)
    (same : view value = view old) :
    (setEntry entries key value).map (fun entry => view entry.2) =
      entries.map fun entry => view entry.2 := by
  induction entries with
  | nil => cases present
  | cons entry rest ih =>
    obtain ⟨other, first⟩ := entry
    rw [getEntry] at present
    by_cases here : other = key
    · rw [if_pos here, Option.some.injEq] at present
      rw [setEntry, if_pos here, List.map_cons, List.map_cons, same, present]
    · rw [if_neg here] at present
      rw [setEntry, if_neg here, List.map_cons, List.map_cons, ih present]

/-- A value that is replaced by one that looks the same. -/
theorem map_values_set_of_get (present : map.get key = some old) (same : view value = view old) :
    (map.set key value).values.map view = map.values.map view := by
  rw [values, values, List.map_map, List.map_map]
  exact map_setEntry_of_get present same

theorem set_set (map : OrderedMap κ ν) (key : κ) (first second : ν) :
    (map.set key first).set key second = map.set key second := by
  apply ext
  obtain ⟨entries, nodup⟩ := map
  show setEntry (setEntry entries key first) key second = setEntry entries key second
  induction entries with
  | nil => simp [setEntry]
  | cons entry rest ih =>
    obtain ⟨other, old⟩ := entry
    rw [List.map_cons, List.nodup_cons] at nodup
    by_cases same : other = key
    · simp [setEntry, same]
    · simp only [setEntry, if_neg same]
      rw [ih nodup.2]

theorem get_erase (map : OrderedMap κ ν) (key other : κ) :
    (map.erase key).get other = if key = other then none else map.get other := by
  by_cases same : key = other
  · rw [if_pos same, get_eq_none, keys, List.mem_map]
    rintro ⟨⟨found, value⟩, member, rfl⟩
    rw [erase, List.mem_filter] at member
    simp [same] at member
  · rw [if_neg same]
    apply Option.ext
    intro value
    rw [← mem_entries, ← mem_entries, erase, List.mem_filter]
    constructor
    · exact fun member => member.1
    · exact fun member => ⟨member, by simpa using fun eq => same eq.symm⟩

theorem length_set_le (map : OrderedMap κ ν) (key : κ) (value : ν) :
    (map.set key value).entries.length ≤ map.entries.length + 1 := by
  have length := congrArg List.length (map.keys_set key value)
  rw [keys, keys, List.length_map] at length
  split at length <;> simp at length <;> omega

theorem length_erase_le (map : OrderedMap κ ν) (key : κ) :
    (map.erase key).entries.length ≤ map.entries.length :=
  List.length_filter_le _ _

/-- Deleting a key that is set removes one entry. -/
theorem length_erase_of_get (present : map.get key = some value) :
    (map.erase key).entries.length + 1 = map.entries.length := by
  have member : key ∈ map.entries.map Prod.fst := mem_keys.mpr ⟨value, present⟩
  have keys : (map.erase key).entries.map Prod.fst = (map.entries.map Prod.fst).erase key := by
    rw [map.nodup.erase_eq_filter, List.filter_map]
    refine congrArg _ (List.filter_congr fun entry _ => ?_)
    simp [bne, BEq.beq]
  have length := congrArg List.length keys
  rw [List.length_map, List.length_erase_of_mem member, List.length_map] at length
  have positive := List.length_pos_of_mem member
  rw [List.length_map] at positive
  omega

theorem get_modify (map : OrderedMap κ ν) (key other : κ) (change : ν → ν) :
    (map.modify key change).get other =
      if key = other then (map.get other).map change else map.get other := by
  rw [modify]
  cases found : map.get key with
  | none =>
    by_cases same : key = other
    · subst same
      rw [if_pos rfl, found]
      rfl
    · rw [if_neg same]
  | some value =>
    rw [get_set]
    by_cases same : key = other
    · subst same
      rw [if_pos rfl, if_pos rfl, found]
      rfl
    · rw [if_neg same, if_neg same]

omit [DecidableEq κ] in
def mapValues (map : OrderedMap κ ν) (change : ν → μ) : OrderedMap κ μ where
  entries := map.entries.map fun entry => (entry.1, change entry.2)
  nodup := by
    rw [List.map_map]
    exact map.nodup

omit [DecidableEq κ] in
theorem values_mapValues (map : OrderedMap κ ν) (change : ν → μ) :
    (map.mapValues change).values = map.values.map change := by
  simp [values, mapValues]

theorem get_mapValues (map : OrderedMap κ ν) (change : ν → μ) (key : κ) :
    (map.mapValues change).get key = (map.get key).map change := by
  obtain ⟨entries, nodup⟩ := map
  show getEntry (entries.map fun entry => (entry.1, change entry.2)) key =
    (getEntry entries key).map change
  clear nodup
  induction entries with
  | nil => rfl
  | cons entry rest ih =>
    obtain ⟨other, value⟩ := entry
    rw [List.map_cons, getEntry, getEntry, ih]
    by_cases same : other = key
    · rw [if_pos same, if_pos same]
      rfl
    · rw [if_neg same, if_neg same]

/-! ## Counting values -/

omit [DecidableEq κ] in
/-- The keys whose value meets a condition. -/
def keysWhere (map : OrderedMap κ ν) (condition : ν → Bool) : List κ :=
  (map.entries.filter fun entry => condition entry.2).map Prod.fst

omit [DecidableEq κ] in
theorem nodup_keysWhere (map : OrderedMap κ ν) (condition : ν → Bool) :
    (map.keysWhere condition).Nodup :=
  map.nodup.sublist (List.filter_sublist.map Prod.fst)

theorem mem_keysWhere :
    key ∈ map.keysWhere condition ↔ ∃ value, map.get key = some value ∧ condition value = true := by
  rw [keysWhere, List.mem_map]
  constructor
  · rintro ⟨⟨other, value⟩, member, rfl⟩
    obtain ⟨member, holds⟩ := List.mem_filter.mp member
    exact ⟨value, mem_entries.mp member, holds⟩
  · rintro ⟨value, found, holds⟩
    exact ⟨(key, value), List.mem_filter.mpr ⟨mem_entries.mpr found, holds⟩, rfl⟩

omit [DecidableEq κ] in
theorem length_filter_values (map : OrderedMap κ ν) (condition : ν → Bool) :
    (map.values.filter condition).length = (map.keysWhere condition).length := by
  rw [values, List.filter_map, keysWhere, List.length_map, List.length_map]
  rfl

omit [DecidableEq κ] in
/-- A count of values grows by no more than the keys that come to be counted. -/
theorem length_filter_values_le {first second : OrderedMap κ ν} {more : List κ}
    (counted : ∀ key ∈ second.keysWhere condition,
      key ∈ more ∨ key ∈ first.keysWhere condition) :
    (second.values.filter condition).length ≤
      more.length + (first.values.filter condition).length := by
  rw [length_filter_values, length_filter_values, ← List.length_append]
  refine ((second.nodup_keysWhere condition).subperm fun key member => ?_).length_le
  exact List.mem_append.mpr (counted key member)

theorem map_get_set (map : OrderedMap κ ν) (key : κ) (value : ν) (view : ν → μ) :
    (fun other => ((map.set key value).get other).map view) =
      Function.update (fun other => (map.get other).map view) key (some (view value)) := by
  funext other
  rw [get_set]
  by_cases same : key = other
  · subst same
    rw [if_pos rfl, Function.update_self]
    rfl
  · have apart : other ≠ key := fun eq => same eq.symm
    rw [if_neg same, Function.update_of_ne apart]

/-- A view of the values after a key has been set to a value with the same view. -/
theorem map_get_set_same (found : map.get key = some old) (same : view value = view old) :
    (fun other => ((map.set key value).get other).map view) =
      fun other => (map.get other).map view := by
  rw [map_get_set, same]
  funext other
  by_cases this : other = key
  · subst this
    rw [Function.update_self, found]
    rfl
  · rw [Function.update_of_ne this]

/-! ## Weights -/

omit [DecidableEq κ] in
/-- The weight of a map: every entry counts. -/
def weigh (map : OrderedMap κ ν) (weight : κ → ν → Nat) : Nat :=
  (map.entries.map fun entry => weight entry.1 entry.2).sum

/-- What a key counts for, nothing if it is not set. -/
def weighAt (map : OrderedMap κ ν) (weight : κ → ν → Nat) (key : κ) : Nat :=
  (map.get key).elim 0 (weight key)

theorem weighAt_of_get (found : map.get key = some value) (weight : κ → ν → Nat) :
    map.weighAt weight key = weight key value := by
  rw [weighAt, found]
  rfl

theorem sum_setEntry (entries : List (κ × ν)) (key : κ) (value : ν) (weight : κ → ν → Nat) :
    ((setEntry entries key value).map fun entry => weight entry.1 entry.2).sum +
        (getEntry entries key).elim 0 (weight key) =
      (entries.map fun entry => weight entry.1 entry.2).sum + weight key value := by
  induction entries with
  | nil => simp [setEntry, getEntry]
  | cons entry rest ih =>
    obtain ⟨other, old⟩ := entry
    rw [setEntry, getEntry]
    by_cases same : other = key
    · subst same
      rw [if_pos rfl, if_pos rfl]
      simp only [List.map_cons, List.sum_cons, Option.elim_some]
      omega
    · rw [if_neg same, if_neg same]
      simp only [List.map_cons, List.sum_cons]
      omega

/-- Setting a key exchanges what it counts for. -/
theorem weigh_set (map : OrderedMap κ ν) (key : κ) (value : ν) (weight : κ → ν → Nat) :
    (map.set key value).weigh weight + map.weighAt weight key =
      map.weigh weight + weight key value :=
  sum_setEntry map.entries key value weight

/-- A change that keeps every weight keeps the weight of the map. -/
theorem weigh_modify (same : ∀ key value, weight key (change value) = weight key value)
    (map : OrderedMap κ ν) (key : κ) : (map.modify key change).weigh weight = map.weigh weight := by
  rw [modify]
  cases found : map.get key with
  | none => rfl
  | some value =>
    have exchanged := map.weigh_set key (change value) weight
    rw [weighAt_of_get found, same] at exchanged
    simp only
    omega

theorem weigh_foldl_modify (same : ∀ key value, weight key (change value) = weight key value)
    (keys : List κ) (map : OrderedMap κ ν) :
    (keys.foldl (fun map key => map.modify key change) map).weigh weight = map.weigh weight := by
  induction keys generalizing map with
  | nil => rfl
  | cons key keys ih => rw [List.foldl_cons, ih, weigh_modify same]

end OrderedMap

end Library
