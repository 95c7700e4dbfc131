/-
# Taking turns

Work arrives, waits for its turn, runs alone and ends; work that waits may also be
withdrawn. Besides who runs and who waits the state keeps the history of a lane: what
arrived, what was withdrawn, what began and what ended, each in order. `Orderly` says what
the discipline means for the history, and it is kept by every move.
-/

import Mathlib.Data.List.Nodup

namespace Library

universe u

/-- A lane of work that runs one at a time, with its history. -/
@[ext]
structure Turns (ω : Type u) where
  running : List ω
  waiting : List ω
  arrived : List ω
  withdrawn : List ω
  started : List ω
  finished : List ω

namespace Turns

variable {ω : Type u} [DecidableEq ω]

def empty : Turns ω := ⟨[], [], [], [], [], []⟩

/-- Work that arrives begins at once if nothing runs. -/
def arrive (turns : Turns ω) (work : ω) : Turns ω :=
  if turns.running = [] then
    { turns with
      running := [work]
      arrived := turns.arrived ++ [work]
      started := turns.started ++ [work] }
  else
    { turns with
      waiting := turns.waiting ++ [work]
      arrived := turns.arrived ++ [work] }

def withdraw (turns : Turns ω) (work : ω) : Turns ω :=
  { turns with
    waiting := turns.waiting.erase work
    withdrawn := turns.withdrawn ++ [work] }

/-- What runs ends, and what has waited longest begins. -/
def finish (turns : Turns ω) (work : ω) : Turns ω :=
  { turns with
    running := turns.waiting.take 1
    waiting := turns.waiting.tail
    started := turns.started ++ turns.waiting.take 1
    finished := turns.finished ++ [work] }

inductive Move (turns : Turns ω) : Turns ω → Prop
  | arrive (work : ω) (fresh : work ∉ turns.arrived) : Move turns (turns.arrive work)
  | withdraw (work : ω) (waits : work ∈ turns.waiting) : Move turns (turns.withdraw work)
  | finish (work : ω) (runs : turns.running = [work]) : Move turns (turns.finish work)

/-- At most one runs, someone runs while anyone waits, and what was not withdrawn begins in
the order of arrival. -/
structure Orderly (turns : Turns ω) : Prop where
  single : turns.running.length ≤ 1
  busy : turns.waiting ≠ [] → turns.running ≠ []
  distinct : turns.arrived.Nodup
  known : ∀ work ∈ turns.withdrawn, work ∈ turns.arrived
  inOrder : turns.arrived.filter (· ∉ turns.withdrawn) = turns.started ++ turns.waiting
  ended : turns.started = turns.finished ++ turns.running

theorem orderly_empty : Orderly (empty : Turns ω) where
  single := Nat.zero_le 1
  busy waits := absurd rfl waits
  distinct := List.nodup_nil
  known _ member := nomatch member
  inOrder := rfl
  ended := rfl

namespace Orderly

variable {turns : Turns ω} {work : ω}

section

variable (orderly : Orderly turns)

include orderly

/-- What was withdrawn never begins. -/
theorem not_started (withdrawn : work ∈ turns.withdrawn) : work ∉ turns.started := by
  intro started
  have kept : work ∈ turns.arrived.filter (· ∉ turns.withdrawn) := by
    rw [orderly.inOrder]
    exact List.mem_append_left _ started
  simp [withdrawn] at kept

theorem arrived_of_waiting (waits : work ∈ turns.waiting) : work ∈ turns.arrived := by
  have kept : work ∈ turns.arrived.filter (· ∉ turns.withdrawn) := by
    rw [orderly.inOrder]
    exact List.mem_append_right _ waits
  exact List.mem_of_mem_filter kept

theorem arrive (fresh : work ∉ turns.arrived) : Orderly (turns.arrive work) := by
  have notWithdrawn : work ∉ turns.withdrawn := fun member => fresh (orderly.known work member)
  have distinct : (turns.arrived ++ [work]).Nodup := by
    rw [List.nodup_append]
    refine ⟨orderly.distinct, List.nodup_singleton work, ?_⟩
    intro other member last isLast same
    rw [same, List.mem_singleton.mp isLast] at member
    exact fresh member
  have known (other : ω) (member : other ∈ turns.withdrawn) : other ∈ turns.arrived ++ [work] :=
    List.mem_append_left _ (orderly.known other member)
  have inOrder : (turns.arrived ++ [work]).filter (· ∉ turns.withdrawn) =
      turns.started ++ turns.waiting ++ [work] := by
    rw [List.filter_append, orderly.inOrder]
    simp [notWithdrawn]
  rw [Turns.arrive]
  split
  case isTrue idle =>
    have noneWaits : turns.waiting = [] := by
      by_contra waits
      exact orderly.busy waits idle
    have ended := orderly.ended
    rw [idle, List.append_nil] at ended
    exact {
      single := Nat.le_refl 1
      busy := fun _ => List.cons_ne_nil work []
      distinct
      known
      inOrder := by simpa [noneWaits] using inOrder
      ended := by simp [ended] }
  case isFalse running =>
    exact {
      single := orderly.single
      busy := fun _ => running
      distinct
      known
      inOrder := by simpa using inOrder
      ended := orderly.ended }

theorem withdraw (waits : work ∈ turns.waiting) : Orderly (turns.withdraw work) := by
  have distinct : (turns.started ++ turns.waiting).Nodup :=
    orderly.inOrder ▸ orderly.distinct.filter _
  have notStarted : work ∉ turns.started := fun started =>
    (List.nodup_append.mp distinct).2.2 work started work waits rfl
  have inOrder : turns.arrived.filter (· ∉ turns.withdrawn ++ [work]) =
      turns.started ++ turns.waiting.erase work := by
    have split : turns.arrived.filter (· ∉ turns.withdrawn ++ [work]) =
        (turns.arrived.filter (· ∉ turns.withdrawn)).filter (· ≠ work) := by
      rw [List.filter_filter]
      apply List.filter_congr
      intro other _
      simp [and_comm]
    have startedKept : turns.started.filter (· ≠ work) = turns.started :=
      List.filter_eq_self.mpr fun other member => by
        simpa using fun same : other = work => notStarted (same ▸ member)
    rw [split, orderly.inOrder, List.filter_append, startedKept,
      (List.nodup_append.mp distinct).2.1.erase_eq_filter]
    simp [bne, BEq.beq]
  exact { orderly with
    busy := fun others => orderly.busy (List.ne_nil_of_mem waits)
    known := by
      intro other member
      cases List.mem_append.mp member with
      | inl before => exact orderly.known other before
      | inr now =>
        rw [List.mem_singleton.mp now]
        exact orderly.arrived_of_waiting waits
    inOrder
    ended := orderly.ended }

theorem finish (runs : turns.running = [work]) :
    Orderly (turns.finish work) where
  single := by
    simp only [Turns.finish, List.length_take]
    exact Nat.min_le_left 1 _
  busy waits none := by
    simp only [Turns.finish] at waits none
    cases queue : turns.waiting with
    | nil => simp [queue] at waits
    | cons next others => simp [queue] at none
  distinct := orderly.distinct
  known := orderly.known
  inOrder := by
    have split : turns.waiting.take 1 ++ turns.waiting.tail = turns.waiting := by
      cases turns.waiting <;> rfl
    simp only [Turns.finish]
    rw [List.append_assoc, split]
    exact orderly.inOrder
  ended := by
    simp only [Turns.finish]
    rw [orderly.ended, runs]

/-- Some of what waits is withdrawn at once. -/
theorem withdrawAll (goes : ω → Bool) :
    Orderly { turns with
      waiting := turns.waiting.filter fun work => !goes work
      withdrawn := turns.withdrawn ++ turns.waiting.filter goes } where
  single := orderly.single
  busy waits := orderly.busy fun none => waits (by rw [none]; rfl)
  distinct := orderly.distinct
  known := by
    intro other member
    cases List.mem_append.mp member with
    | inl before => exact orderly.known other before
    | inr now => exact orderly.arrived_of_waiting (List.mem_filter.mp now).1
  inOrder := by
    have distinct : (turns.started ++ turns.waiting).Nodup :=
      orderly.inOrder ▸ orderly.distinct.filter _
    have split : turns.arrived.filter (· ∉ turns.withdrawn ++ turns.waiting.filter goes) =
        (turns.arrived.filter (· ∉ turns.withdrawn)).filter
          (· ∉ turns.waiting.filter goes) := by
      rw [List.filter_filter]
      apply List.filter_congr
      intro other _
      simp [not_or]
      exact Bool.and_comm _ _
    have startedKept : turns.started.filter (· ∉ turns.waiting.filter goes) = turns.started :=
      List.filter_eq_self.mpr fun other member => by
        rw [decide_eq_true_eq]
        intro waits
        exact (List.nodup_append.mp distinct).2.2 other member other
          (List.mem_filter.mp waits).1 rfl
    have waitingKept : turns.waiting.filter (· ∉ turns.waiting.filter goes) =
        turns.waiting.filter fun work => !goes work :=
      List.filter_congr fun other member => by simp [member]
    rw [split, orderly.inOrder, List.filter_append, startedKept, waitingKept]
  ended := orderly.ended

/-- What is withdrawn at once was not withdrawn before. -/
theorem nodup_withdrawAll (once : turns.withdrawn.Nodup) (goes : ω → Bool) :
    (turns.withdrawn ++ turns.waiting.filter goes).Nodup := by
  have distinct : (turns.started ++ turns.waiting).Nodup :=
    orderly.inOrder ▸ orderly.distinct.filter _
  rw [List.nodup_append]
  refine ⟨once, (List.nodup_append.mp distinct).2.1.filter goes, ?_⟩
  rintro work withdrawn _ goes rfl
  have kept : work ∈ turns.arrived.filter (· ∉ turns.withdrawn) := by
    rw [orderly.inOrder]
    exact List.mem_append_right _ (List.mem_filter.mp goes).1
  simp [withdrawn] at kept

/-- Every work that arrived was withdrawn, has ended, runs or waits. -/
theorem accounted (once : turns.withdrawn.Nodup) :
    (turns.withdrawn ++ (turns.finished ++ turns.running ++ turns.waiting)).Perm
      turns.arrived := by
  have withdrawn : (turns.arrived.filter (· ∈ turns.withdrawn)).Perm turns.withdrawn := by
    rw [List.perm_ext_iff_of_nodup (orderly.distinct.filter _) once]
    intro work
    rw [List.mem_filter, decide_eq_true_eq]
    exact ⟨And.right, fun member => ⟨orderly.known work member, member⟩⟩
  rw [← orderly.ended, ← orderly.inOrder]
  have parts := List.filter_append_perm (fun work => decide (work ∈ turns.withdrawn)) turns.arrived
  refine (List.Perm.append withdrawn.symm (.of_eq ?_)).trans parts
  apply List.filter_congr
  intro work _
  simp

end

end Orderly

/-! ## One block after the other -/

/-- Where a history is a list of blocks and no block has two marks, what ends a block lies
between any two marks. -/
theorem ends_of_blocks {ι α : Type u} {mark : ι → α} {ends : ι → List α → Prop}
    (mono : ∀ {first events more}, ends first events → ends first (events ++ more))
    {blocks : List (List α)} {current : List α}
    (closed : ∀ block ∈ blocks, ∀ {before first tail}, block = before ++ mark first :: tail →
      (∀ other, mark other ∉ tail) ∧ ends first tail)
    (single : ∀ {before first tail}, current = before ++ mark first :: tail →
      ∀ other, mark other ∉ tail)
    {before middle after : List α} {first second : ι}
    (split : blocks.flatten ++ current =
      before ++ mark first :: (middle ++ mark second :: after)) : ends first middle := by
  induction blocks generalizing before with
  | nil => exact absurd (by simp) (single split second)
  | cons block blocks ih =>
    have later {before : List α} :=
      @ih (fun other member => closed other (List.mem_cons_of_mem _ member)) before
    rw [List.flatten_cons, List.append_assoc] at split
    obtain ⟨inner, -, here⟩ | ⟨inner, isBlock, here⟩ := List.append_eq_append_iff.mp split
    · exact later here
    · cases inner with
      | nil => exact @later [] here.symm
      | cons other rest =>
        obtain ⟨rfl, there⟩ := List.cons.inj here
        obtain ⟨noMark, ended⟩ := closed block List.mem_cons_self isBlock
        obtain ⟨more, isRest, beyond⟩ | ⟨more, rfl, -⟩ := List.append_eq_append_iff.mp there
        · cases more with
          | nil =>
            rw [isRest, List.append_nil] at ended
            exact ended
          | cons other more =>
            obtain ⟨rfl, -⟩ := List.cons.inj beyond
            exact absurd (by simp [isRest]) (noMark second)
        · exact mono ended

end Turns

end Library
