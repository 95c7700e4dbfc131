/-
# Numbered blocks and their transcript

A writer numbers its blocks 0, 1, 2, … as it starts them. A block is started with
a value, changed any number of times and stopped once; the lines of several blocks
may be mixed. A reader rebuilds the blocks from the lines and refuses a line that
does not fit what it has read.

A reader may ask for one block at a time; then a block may not start while another
one is open.

The writer remembers which of its items a block belongs to. `Leads` says that some
lines take the blocks of a writer to others, as a reader sees them. A block that is
closed stays as it is.
-/

import Mathlib.Data.List.Basic
import Mathlib.Data.List.Range

namespace Library

universe u v w

namespace Transcript

inductive Line (β : Type u) (δ : Type v)
  | start (number : Nat) (value : β)
  | change (number : Nat) (change : δ)
  | stop (number : Nat)

structure Block (β : Type u) where
  value : β
  isOpen : Bool

section Reading

variable {β : Type u} {δ : Type v} (apply : β → δ → Option β) (oneAtATime : Bool)

def MayStart (blocks : List (Block β)) : Prop :=
  oneAtATime = true → ∀ block ∈ blocks, block.isOpen = false

instance (blocks : List (Block β)) : Decidable (MayStart oneAtATime blocks) :=
  inferInstanceAs (Decidable (_ → _))

/-- The blocks after one more line, if the line fits them. -/
def read (blocks : List (Block β)) : Line β δ → Option (List (Block β))
  | .start number value =>
    if number = blocks.length ∧ MayStart oneAtATime blocks then some (blocks ++ [⟨value, true⟩])
    else none
  | .change number change =>
    match blocks[number]? with
    | some ⟨value, true⟩ => (apply value change).map fun value => blocks.set number ⟨value, true⟩
    | _ => none
  | .stop number =>
    match blocks[number]? with
    | some ⟨value, true⟩ => some (blocks.set number ⟨value, false⟩)
    | _ => none

def readAll (blocks : List (Block β)) (lines : List (Line β δ)) : Option (List (Block β)) :=
  lines.foldlM (read apply oneAtATime) blocks

end Reading

/-- A block with the item it belongs to. -/
structure Track (ι : Type w) (β : Type u) where
  owner : ι
  value : β
  isOpen : Bool

namespace Track

variable {ι : Type w} {β : Type u}

def block (track : Track ι β) : Block β := ⟨track.value, track.isOpen⟩

/-- The values of the blocks of an item, in order. -/
def valuesOf [DecidableEq ι] (tracks : List (Track ι β)) (owner : ι) : List β :=
  (tracks.filter fun track => track.owner = owner).map Track.value

end Track

section Leads

variable {ι : Type w} {β : Type u} {δ : Type v} {apply : β → δ → Option β} {oneAtATime : Bool}
  {tracks next : List (Track ι β)} {lines : List (Line β δ)} {changes : List δ} {value final : β}

/-- Reading the lines takes the blocks of a writer to others, and leaves those that are
closed as they are. -/
def Leads (apply : β → δ → Option β) (oneAtATime : Bool) (lines : List (Line β δ))
    (tracks next : List (Track ι β)) : Prop :=
  readAll apply oneAtATime (tracks.map Track.block) lines = some (next.map Track.block) ∧
    ∀ (number : Nat) (track : Track ι β), tracks[number]? = some track → track.isOpen = false →
      next[number]? = some track

theorem Leads.refl (tracks : List (Track ι β)) : Leads apply oneAtATime [] tracks tracks :=
  ⟨rfl, fun _ _ there _ => there⟩

theorem Leads.trans {first second third : List (Track ι β)} {more : List (Line β δ)}
    (one : Leads apply oneAtATime lines first second)
    (two : Leads apply oneAtATime more second third) :
    Leads apply oneAtATime (lines ++ more) first third := by
  refine ⟨?_, fun number track there closed =>
    two.2 number track (one.2 number track there closed) closed⟩
  have one : lines.foldlM (read apply oneAtATime) (first.map Track.block) =
      some (second.map Track.block) := one.1
  show (lines ++ more).foldlM (read apply oneAtATime) (first.map Track.block) = _
  rw [List.foldlM_append, one]
  exact two.1

/-- Closed blocks stay in front. -/
theorem Leads.isPrefix (leads : Leads apply oneAtATime lines tracks next)
    (closed : ∀ track ∈ tracks, track.isOpen = false) : tracks <+: next := by
  refine List.prefix_iff_getElem?.mpr fun number bound => ?_
  exact leads.2 number _ (List.getElem?_eq_getElem bound) (closed _ (List.getElem_mem bound))

theorem leads_singleton {line : Line β δ}
    (reads : read apply oneAtATime (tracks.map Track.block) line = some (next.map Track.block))
    (kept : ∀ (number : Nat) (track : Track ι β), tracks[number]? = some track →
      track.isOpen = false → next[number]? = some track) :
    Leads apply oneAtATime [line] tracks next := by
  refine ⟨?_, kept⟩
  rw [readAll, List.foldlM_cons, reads]
  rfl

theorem getElem?_map_block {number : Nat} {track : Track ι β}
    (there : tracks[number]? = some track) :
    (tracks.map Track.block)[number]? = some track.block := by
  rw [List.getElem?_map, there]
  rfl

/-- A new block gets the next number. -/
theorem leads_start (owner : ι) (value : β)
    (alone : oneAtATime = true → ∀ track ∈ tracks, track.isOpen = false) :
    Leads apply oneAtATime [.start tracks.length value] tracks
      (tracks ++ [⟨owner, value, true⟩]) := by
  have may : MayStart oneAtATime (tracks.map Track.block) := by
    intro strict block member
    obtain ⟨track, isTrack, rfl⟩ := List.mem_map.mp member
    exact alone strict track isTrack
  have number : tracks.length = (tracks.map Track.block).length := by rw [List.length_map]
  refine leads_singleton ?_ fun other track there _ => ?_
  · rw [read, if_pos ⟨number, may⟩, List.map_append]
    rfl
  · obtain ⟨bound, -⟩ := List.getElem?_eq_some_iff.mp there
    rw [List.getElem?_append_left bound]
    exact there

/-- A closed block is not the open one that changes. -/
theorem getElem?_set_open {number other : Nat} {changed one track : Track ι β}
    (there : tracks[number]? = some one) (isOpen : one.isOpen = true)
    (found : tracks[other]? = some track) (closed : track.isOpen = false) :
    (tracks.set number changed)[other]? = some track := by
  rw [List.getElem?_set_ne, found]
  rintro rfl
  rw [there, Option.some.injEq] at found
  rw [found, closed] at isOpen
  cases isOpen

/-- An open block is changed. -/
theorem leads_change {number : Nat} {owner : ι} {value changed : β} {change : δ}
    (there : tracks[number]? = some ⟨owner, value, true⟩)
    (applies : apply value change = some changed) :
    Leads apply oneAtATime [.change number change] tracks
      (tracks.set number ⟨owner, changed, true⟩) := by
  refine leads_singleton ?_ fun _ _ => getElem?_set_open there rfl
  rw [read, getElem?_map_block there]
  simp only [Track.block, applies, Option.map_some, List.map_set]

/-- An open block is stopped. -/
theorem leads_stop {number : Nat} {owner : ι} {value : β}
    (there : tracks[number]? = some ⟨owner, value, true⟩) :
    Leads (δ := δ) apply oneAtATime [.stop number] tracks
      (tracks.set number ⟨owner, value, false⟩) := by
  refine leads_singleton ?_ fun _ _ => getElem?_set_open there rfl
  rw [read, getElem?_map_block there]
  simp only [Track.block, List.map_set]

/-- Any number of changes of the last block. -/
theorem leads_changes {owner : ι} (applies : changes.foldlM apply value = some final) :
    Leads apply oneAtATime (changes.map (.change tracks.length)) (tracks ++ [⟨owner, value, true⟩])
      (tracks ++ [⟨owner, final, true⟩]) := by
  induction changes generalizing value with
  | nil =>
    cases applies
    exact .refl _
  | cons change rest ih =>
    rw [List.foldlM_cons] at applies
    obtain ⟨changed, first, applies⟩ := Option.bind_eq_some_iff.mp applies
    have there : (tracks ++ [⟨owner, value, true⟩])[tracks.length]? =
        some (⟨owner, value, true⟩ : Track ι β) := List.getElem?_concat_length
    have one : Leads apply oneAtATime [.change tracks.length change] _ _ :=
      leads_change there first
    rw [List.set_append_right _ _ (Nat.le_refl _), Nat.sub_self, List.set_cons_zero] at one
    exact one.trans (ih applies)

/-- A whole block: started, changed, and stopped if it is closed. -/
theorem leads_whole (owner : ι) (closed : Bool) (applies : changes.foldlM apply value = some final)
    (alone : oneAtATime = true → ∀ track ∈ tracks, track.isOpen = false) :
    Leads apply oneAtATime (.start tracks.length value ::
      (changes.map (.change tracks.length) ++ if closed then [.stop tracks.length] else []))
      tracks (tracks ++ [⟨owner, final, !closed⟩]) := by
  have started : Leads apply oneAtATime
      ([.start tracks.length value] ++ changes.map (.change tracks.length)) tracks
      (tracks ++ [⟨owner, final, true⟩]) :=
    (leads_start owner value alone).trans (leads_changes applies)
  cases closed with
  | false =>
    rw [if_neg Bool.false_ne_true, List.append_nil]
    exact started
  | true =>
    have there : (tracks ++ [⟨owner, final, true⟩])[tracks.length]? =
        some (⟨owner, final, true⟩ : Track ι β) := List.getElem?_concat_length
    have stopped : Leads apply oneAtATime [.stop tracks.length] _ _ := leads_stop there
    rw [List.set_append_right _ _ (Nat.le_refl _), Nat.sub_self, List.set_cons_zero] at stopped
    exact started.trans stopped

end Leads

section Values

variable {ι : Type w} {β : Type u} [DecidableEq ι] {tracks : List (Track ι β)} {number : Nat}
  {owner other : ι} {value changed : β} {isOpen stillOpen : Bool}

theorem valuesOf_nil (owner : ι) : Track.valuesOf ([] : List (Track ι β)) owner = [] := rfl

theorem valuesOf_append (first second : List (Track ι β)) (owner : ι) :
    Track.valuesOf (first ++ second) owner =
      Track.valuesOf first owner ++ Track.valuesOf second owner := by
  rw [Track.valuesOf, List.filter_append, List.map_append]
  rfl

theorem valuesOf_cons (track : Track ι β) (rest : List (Track ι β)) (owner : ι) :
    Track.valuesOf (track :: rest) owner =
      (if track.owner = owner then [track.value] else []) ++ Track.valuesOf rest owner := by
  rw [Track.valuesOf, List.filter_cons]
  by_cases same : track.owner = owner
  · rw [if_pos (decide_eq_true same), if_pos same]
    rfl
  · rw [if_neg (by rw [decide_eq_false same]; exact Bool.false_ne_true), if_neg same]
    rfl

/-- A block started for an item. -/
theorem valuesOf_start (tracks : List (Track ι β)) (owner other : ι) (value : β) (isOpen : Bool) :
    Track.valuesOf (tracks ++ [⟨owner, value, isOpen⟩]) other =
      Track.valuesOf tracks other ++ if owner = other then [value] else [] := by
  rw [valuesOf_append, valuesOf_cons, valuesOf_nil, List.append_nil]

omit [DecidableEq ι] in
/-- The blocks before and after one of them. -/
theorem exists_split {track : Track ι β} (there : tracks[number]? = some track) :
    ∃ before after, tracks = before ++ track :: after ∧ before.length = number ∧
      ∀ replaced, tracks.set number replaced = before ++ replaced :: after := by
  obtain ⟨bound, rfl⟩ := List.getElem?_eq_some_iff.mp there
  refine ⟨tracks.take number, tracks.drop (number + 1), ?_, ?_, fun replaced => ?_⟩
  · rw [← List.drop_eq_getElem_cons bound, List.take_append_drop]
  · rw [List.length_take, Nat.min_eq_left (Nat.le_of_lt bound)]
  · rw [List.set_eq_take_append_cons_drop, if_pos bound]

/-- A block of another item is changed. -/
theorem valuesOf_set_of_ne (there : tracks[number]? = some ⟨owner, value, isOpen⟩)
    (apart : owner ≠ other) :
    Track.valuesOf (tracks.set number ⟨owner, changed, stillOpen⟩) other =
      Track.valuesOf tracks other := by
  obtain ⟨before, after, whole, -, replaced⟩ := exists_split there
  rw [replaced, whole, valuesOf_append, valuesOf_append, valuesOf_cons, valuesOf_cons,
    if_neg apart, if_neg apart]

/-- A block keeps its value. -/
theorem valuesOf_set_same (there : tracks[number]? = some ⟨owner, value, isOpen⟩) (other : ι) :
    Track.valuesOf (tracks.set number ⟨owner, value, stillOpen⟩) other =
      Track.valuesOf tracks other := by
  obtain ⟨before, after, whole, -, replaced⟩ := exists_split there
  rw [replaced, whole, valuesOf_append, valuesOf_append, valuesOf_cons, valuesOf_cons]

/-- The only block of an item is changed. -/
theorem valuesOf_set_only (there : tracks[number]? = some ⟨owner, value, isOpen⟩)
    (only : Track.valuesOf tracks owner = [value]) :
    Track.valuesOf (tracks.set number ⟨owner, changed, stillOpen⟩) owner = [changed] := by
  obtain ⟨before, after, whole, -, replaced⟩ := exists_split there
  rw [whole, valuesOf_append, valuesOf_cons, if_pos rfl] at only
  rw [replaced, valuesOf_append, valuesOf_cons, if_pos rfl]
  have lengths := congrArg List.length only
  simp only [List.length_append, List.length_cons, List.length_nil] at lengths
  have first : Track.valuesOf before owner = [] := List.length_eq_zero_iff.mp (by omega)
  have last : Track.valuesOf after owner = [] := List.length_eq_zero_iff.mp (by omega)
  rw [first, last]
  rfl

/-- The last block is changed. -/
theorem valuesOf_set_last (there : tracks[number]? = some ⟨owner, value, isOpen⟩)
    (last : number + 1 = tracks.length) :
    ∃ earlier, Track.valuesOf tracks owner = earlier ++ [value] ∧
      Track.valuesOf (tracks.set number ⟨owner, changed, stillOpen⟩) owner =
        earlier ++ [changed] := by
  obtain ⟨before, after, whole, length, replaced⟩ := exists_split there
  have nothing : after = [] := by
    rw [whole, List.length_append, List.length_cons] at last
    exact List.length_eq_zero_iff.mp (by omega)
  subst nothing
  refine ⟨Track.valuesOf before owner, ?_, ?_⟩
  · rw [whole, valuesOf_append, valuesOf_cons, if_pos rfl]
    rfl
  · rw [replaced, valuesOf_append, valuesOf_cons, if_pos rfl]
    rfl

end Values

end Transcript

end Library
