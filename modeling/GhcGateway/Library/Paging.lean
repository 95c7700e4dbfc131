/-
# Paging by key

Rows are listed in the order of their keys, a page at a time. A page that is not the last
names the key of its last row, and the next page has the rows after that key. What a page
names may be refused when it comes back, or lead back to rows already listed. A walk follows
the names from the first page to one that names nothing.
-/

import Mathlib.Data.List.Sort

namespace Library.Paging

universe u v w

/-! ## Rows in the order of their keys -/

section Ordered

variable {ρ : Type u} {κ : Type v} (key : ρ → κ) (le : κ → κ → Prop) [DecidableRel le]
  {rows : List ρ}

def ordered (rows : List ρ) : List ρ :=
  rows.insertionSort fun left right => le (key left) (key right)

def after (bound : κ) (row : ρ) : Bool := !decide (le (key row) bound)

theorem perm_ordered (rows : List ρ) : (ordered key le rows).Perm rows :=
  List.perm_insertionSort _ rows

variable [Std.Total le] [IsTrans κ le]

theorem pairwise_ordered (rows : List ρ) :
    (ordered key le rows).Pairwise fun left right => le (key left) (key right) := by
  have : Std.Total fun left right : ρ => le (key left) (key right) :=
    ⟨fun left right => Std.Total.total (key left) (key right)⟩
  have : IsTrans ρ fun left right => le (key left) (key right) :=
    ⟨fun _ _ _ first second => IsTrans.trans _ _ _ first second⟩
  exact List.pairwise_insertionSort _ rows

variable {key le} [Std.Antisymm le]

theorem eq_ordered {listed : List ρ} (distinct : (rows.map key).Nodup) (perm : listed.Perm rows)
    (ascending : listed.Pairwise fun left right => le (key left) (key right)) :
    listed = ordered key le rows := by
  refine (perm.trans (perm_ordered key le rows).symm).eq_of_pairwise ?_ ascending
    (pairwise_ordered key le rows)
  intro left right isLeft isRight up down
  exact List.inj_on_of_nodup_map distinct (perm.mem_iff.mp isLeft)
    ((perm_ordered key le rows).mem_iff.mp isRight) (Std.Antisymm.antisymm _ _ up down)

/-- Some of the rows are in the order that all have. -/
theorem ordered_filter (distinct : (rows.map key).Nodup) (condition : ρ → Bool) :
    ordered key le (rows.filter condition) = (ordered key le rows).filter condition := by
  symm
  apply eq_ordered (distinct.sublist (List.filter_sublist.map key))
  · exact (perm_ordered key le rows).filter condition
  · exact (pairwise_ordered key le rows).sublist List.filter_sublist

/-- The rows after a row are those that come after it in the order. -/
theorem filter_after {rows front back : List ρ} {row : ρ} (distinct : (rows.map key).Nodup)
    (split : ordered key le rows = front ++ row :: back) :
    (ordered key le rows).filter (after key le (key row)) = back := by
  have ascending := pairwise_ordered key le rows
  have different : ((ordered key le rows).map key).Nodup :=
    ((perm_ordered key le rows).map key).nodup_iff.mpr distinct
  rw [split] at ascending different ⊢
  obtain ⟨-, ascendingBack, before⟩ := List.pairwise_append.mp ascending
  have fresh : key row ∉ back.map key := by
    rw [List.map_append, List.map_cons] at different
    exact (List.nodup_cons.mp (List.nodup_append.mp different).2.1).1
  have noneBefore : front.filter (after key le (key row)) = [] := by
    apply List.filter_eq_nil_iff.mpr
    intro other member
    simp [after, before other member row List.mem_cons_self]
  have reflexive : le (key row) (key row) :=
    (Std.Total.total (key row) (key row)).elim id id
  have notItself : after key le (key row) row = false := by
    simp [after, reflexive]
  have allAfter : back.filter (after key le (key row)) = back := by
    apply List.filter_eq_self.mpr
    intro other member
    have up := (List.pairwise_cons.mp ascendingBack).1 other member
    rw [after, Bool.not_eq_true', decide_eq_false_iff_not]
    intro down
    have same : key row = key other := Std.Antisymm.antisymm _ _ up down
    exact fresh (same ▸ List.mem_map_of_mem member)
  rw [List.filter_append, noneBefore, List.filter_cons, notItself, allAfter]
  rfl

omit [Std.Antisymm le] in
/-- The rows after a bound are the last ones. -/
theorem exists_filter_after (rows : List ρ) (bound : κ) : ∃ before,
    ordered key le rows = before ++ (ordered key le rows).filter (after key le bound) := by
  have ascending := pairwise_ordered key le rows
  generalize ordered key le rows = listed at ascending
  induction listed with
  | nil => exact ⟨[], rfl⟩
  | cons row listed ih =>
    obtain ⟨least, ascending⟩ := List.pairwise_cons.mp ascending
    by_cases beyond : after key le bound row = true
    · have all : ∀ other ∈ row :: listed, after key le bound other = true := by
        intro other member
        cases List.mem_cons.mp member with
        | inl same => exact same ▸ beyond
        | inr later =>
          simp only [after, Bool.not_eq_true', decide_eq_false_iff_not] at beyond ⊢
          exact fun down => beyond (IsTrans.trans _ _ _ (least other later) down)
      exact ⟨[], by rw [List.filter_eq_self.mpr all]; rfl⟩
    · obtain ⟨before, split⟩ := ih ascending
      refine ⟨row :: before, ?_⟩
      rw [List.filter_cons_of_neg beyond, List.cons_append, ← split]

end Ordered

/-! ## Walks -/

variable {γ : Type u} {ε : Type v} {π : Type w} {pages : List π}

/-- The pages from a cursor to the last. -/
inductive Walk (fetch : Option γ → Except ε (π × Option γ)) : Option γ → List π → Prop
  | last {cursor : Option γ} {page : π} (fetched : fetch cursor = .ok (page, none)) :
      Walk fetch cursor [page]
  | more {cursor : Option γ} {page : π} {next : γ} {pages : List π}
      (fetched : fetch cursor = .ok (page, some next)) (others : Walk fetch (some next) pages) :
      Walk fetch cursor (page :: pages)

/-- How rows are fetched: the first page without a cursor, and with the cursor of a row the
page after it, where the cursor is accepted. One that is not is refused or leads back. -/
structure Keyset {ρ : Type u} (fetch : Option γ → Except ε (π × Option γ)) (rows : List ρ)
    (limit : Nat) (page : List ρ → π) (cursor : ρ → γ) (accepted : ρ → Prop) : Prop where
  positive : 0 < limit
  start : fetch none = .ok (page (rows.take limit),
    if limit < rows.length then (rows.take limit).getLast?.map cursor else none)
  resume : ∀ {front row back}, rows = front ++ row :: back → accepted row →
    fetch (some (cursor row)) = .ok (page (back.take limit),
      if limit < back.length then (back.take limit).getLast?.map cursor else none)
  stray : ∀ {front row back}, rows = front ++ row :: back → ¬ accepted row →
    (∃ error, fetch (some (cursor row)) = .error error) ∨
      ∃ before again, rows = before ++ again ∧ back.length < again.length ∧
        fetch (some (cursor row)) = .ok (page (again.take limit),
          if limit < again.length then (again.take limit).getLast?.map cursor else none)

variable {ρ : Type u} {fetch : Option γ → Except ε (π × Option γ)} {rows : List ρ} {limit : Nat}
  {page : List ρ → π} {cursor : ρ → γ} {accepted : ρ → Prop}

/-- The rows that end a page after which there are more are accepted. -/
def EndsAccepted (limit : Nat) (accepted : ρ → Prop) (rows : List ρ) : Prop :=
  ∀ n row, 0 < n → n * limit < rows.length → rows[n * limit - 1]? = some row → accepted row

theorem endsAccepted_of_short (short : rows.length ≤ limit) : EndsAccepted limit accepted rows := by
  intro n row isPage more
  have := Nat.mul_le_mul_right limit isPage
  omega

theorem endsAccepted_page {front back : List ρ} {row : ρ} (full : front.length + 1 = limit)
    (more : back ≠ []) :
    EndsAccepted limit accepted (front ++ row :: back) ↔
      accepted row ∧ EndsAccepted limit accepted back := by
  have length : (front ++ row :: back).length = limit + back.length := by
    rw [List.length_append, List.length_cons]
    omega
  have rest := List.length_pos_iff.mpr more
  have last : (front ++ row :: back)[1 * limit - 1]? = some row := by
    rw [Nat.one_mul, ← full, Nat.add_sub_cancel, List.getElem?_append_right (Nat.le_refl _),
      Nat.sub_self]
    rfl
  have later {n : Nat} (isPage : 0 < n) :
      (front ++ row :: back)[(n + 1) * limit - 1]? = back[n * limit - 1]? := by
    have := Nat.mul_pos isPage (Nat.lt_of_lt_of_eq (Nat.succ_pos front.length) full)
    rw [Nat.succ_mul, List.getElem?_append_right (by omega)]
    have index : n * limit + limit - 1 - front.length = (n * limit - 1) + 1 := by omega
    rw [index, List.getElem?_cons_succ]
  constructor
  · intro ends
    refine ⟨ends 1 row Nat.one_pos (by omega) last, fun n other isPage inside found => ?_⟩
    exact ends (n + 1) other (Nat.succ_pos n) (by rw [Nat.succ_mul]; omega)
      ((later isPage).trans found)
  · rintro ⟨first, others⟩ n other isPage inside found
    cases n with
    | zero => exact absurd isPage (Nat.lt_irrefl 0)
    | succ n =>
      cases Nat.eq_zero_or_pos n with
      | inl isFirst =>
        subst isFirst
        cases last.symm.trans found
        exact first
      | inr isLater =>
        rw [later isLater] at found
        rw [Nat.succ_mul] at inside
        exact others n other isLater (by omega) found

/-- A page that is full and not the last. -/
theorem exists_page {back : List ρ} (positive : 0 < limit) (more : limit < back.length) :
    ∃ front row rest, back = front ++ row :: rest ∧ front.length + 1 = limit ∧ rest ≠ [] ∧
      back.take limit = front ++ [row] := by
  obtain ⟨count, rfl⟩ : ∃ count, limit = count + 1 := ⟨limit - 1, by omega⟩
  have inside : count < back.length := Nat.lt_of_succ_lt more
  refine ⟨back.take count, back[count], back.drop (count + 1), ?_, ?_, ?_, ?_⟩
  · rw [← List.drop_eq_getElem_cons, List.take_append_drop]
  · rw [List.length_take, Nat.min_eq_left (Nat.le_of_lt inside)]
  · intro none
    have := List.drop_eq_nil_iff.mp none
    omega
  · rw [List.take_succ_eq_append_getElem inside]

/-- A walk from a cursor that names some rows shows just these, if what the pages name is
accepted, and more than these otherwise. -/
theorem Keyset.shows_from (keyset : Keyset fetch rows limit page cursor accepted) {start : Option γ}
    (walk : Walk fetch start pages) :
    ∀ {front back : List ρ}, rows = front ++ back →
      fetch start = .ok (page (back.take limit),
        if limit < back.length then (back.take limit).getLast?.map cursor else none) →
      ∃ parts : List (List ρ), pages = parts.map page ∧
        (EndsAccepted limit accepted back ∧ parts.flatten = back ∨
          ¬ EndsAccepted limit accepted back ∧ back.length < parts.flatten.length) := by
  induction walk with
  | last fetchedLast =>
    intro front back split fetched
    obtain ⟨isPage, isLast⟩ := Prod.mk.inj (Except.ok.inj (fetchedLast.symm.trans fetched))
    have short : back.length ≤ limit := by
      by_contra long
      have more := Nat.not_le.mp long
      obtain ⟨init, row, rest, -, -, -, ends⟩ := exists_page keyset.positive more
      rw [if_pos more, ends, List.getLast?_concat] at isLast
      cases isLast
    refine ⟨[back], ?_, .inl ⟨endsAccepted_of_short short, List.append_nil back⟩⟩
    rw [isPage, List.take_of_length_le short]
    rfl
  | more fetchedMore others ih =>
    intro front back split fetched
    have more : limit < back.length := by
      by_contra short
      rw [if_neg short] at fetched
      cases fetchedMore.symm.trans fetched
    obtain ⟨init, row, rest, rfl, full, nonempty, isPage⟩ := exists_page keyset.positive more
    rw [if_pos more, isPage, List.getLast?_concat, Option.map_some] at fetched
    cases fetchedMore.symm.trans fetched
    have place : rows = (front ++ init) ++ row :: rest := by
      rw [split, List.append_assoc]
    have size : (init ++ row :: rest).length = init.length + 1 + rest.length := by
      rw [List.length_append, List.length_cons]
      omega
    have flat (parts : List (List ρ)) : ((init ++ [row]) :: parts).flatten.length =
        init.length + 1 + parts.flatten.length := by
      rw [List.flatten_cons, List.length_append, List.length_append, List.length_singleton]
    rw [endsAccepted_page full nonempty]
    by_cases isAccepted : accepted row
    · obtain ⟨parts, rfl, ⟨ends, same⟩ | ⟨strays, longer⟩⟩ := @ih (front ++ init ++ [row]) rest
        (by rw [place, List.append_cons]) (keyset.resume place isAccepted)
      · refine ⟨(init ++ [row]) :: parts, rfl, .inl ⟨⟨isAccepted, ends⟩, ?_⟩⟩
        rw [List.flatten_cons, same, List.append_assoc]
        rfl
      · refine ⟨(init ++ [row]) :: parts, rfl, .inr ⟨fun both => strays both.2, ?_⟩⟩
        rw [flat, size]
        omega
    · rcases keyset.stray place isAccepted with
        ⟨error, refused⟩ | ⟨before, again, placeAgain, longer, fetchedAgain⟩
      · cases others with
        | last refetched => cases refused.symm.trans refetched
        | more refetched => cases refused.symm.trans refetched
      · obtain ⟨parts, rfl, shown⟩ := ih placeAgain fetchedAgain
        refine ⟨(init ++ [row]) :: parts, rfl, .inr ⟨fun both => isAccepted both.1, ?_⟩⟩
        have least : again.length ≤ parts.flatten.length := by
          rcases shown with ⟨-, same⟩ | ⟨-, more⟩
          · exact Nat.le_of_eq (congrArg List.length same.symm)
          · exact Nat.le_of_lt more
        rw [flat, size]
        omega

/-- Where what the pages name is accepted, a walk comes to its end. -/
theorem Keyset.exists_walk_from (keyset : Keyset fetch rows limit page cursor accepted)
    (size : Nat) : ∀ {front back : List ρ} {start : Option γ}, back.length ≤ size →
      rows = front ++ back →
      fetch start = .ok (page (back.take limit),
        if limit < back.length then (back.take limit).getLast?.map cursor else none) →
      EndsAccepted limit accepted back → ∃ pages, Walk fetch start pages := by
  induction size with
  | zero =>
    intro front back start small split fetched _
    rw [if_neg (Nat.not_lt.mpr (small.trans (Nat.zero_le limit)))] at fetched
    exact ⟨_, .last fetched⟩
  | succ size ih =>
    intro front back start small split fetched ends
    by_cases more : limit < back.length
    · obtain ⟨init, row, rest, rfl, full, nonempty, isPage⟩ := exists_page keyset.positive more
      rw [if_pos more, isPage, List.getLast?_concat, Option.map_some] at fetched
      obtain ⟨isAccepted, ends⟩ := (endsAccepted_page full nonempty).mp ends
      have place : rows = (front ++ init) ++ row :: rest := by
        rw [split, List.append_assoc]
      have smaller : rest.length ≤ size := by
        rw [List.length_append, List.length_cons] at small
        omega
      obtain ⟨pages, walk⟩ := @ih (front ++ init ++ [row]) rest (some (cursor row)) smaller
        (by rw [place, List.append_cons]) (keyset.resume place isAccepted) ends
      exact ⟨_, .more fetched walk⟩
    · rw [if_neg more] at fetched
      exact ⟨_, .last fetched⟩

/-- Where what the pages name is accepted, a walk shows every row once, in order. -/
theorem Keyset.exists_walk (keyset : Keyset fetch rows limit page cursor accepted)
    (ends : EndsAccepted limit accepted rows) :
    ∃ parts : List (List ρ), Walk fetch none (parts.map page) ∧ parts.flatten = rows := by
  obtain ⟨pages, walk⟩ := keyset.exists_walk_from rows.length (Nat.le_refl _)
    (List.nil_append rows).symm keyset.start ends
  obtain ⟨parts, rfl, ⟨-, same⟩ | ⟨strays, -⟩⟩ :=
    keyset.shows_from walk (List.nil_append rows).symm keyset.start
  · exact ⟨parts, walk, same⟩
  · exact absurd ends strays

/-- A walk that shows no more rows than there are names only what is accepted. -/
theorem Keyset.ends_of_walk (keyset : Keyset fetch rows limit page cursor accepted)
    (walk : Walk fetch none pages) :
    ∃ parts : List (List ρ), pages = parts.map page ∧
      (parts.flatten.length ≤ rows.length → EndsAccepted limit accepted rows) := by
  obtain ⟨parts, isPages, shown⟩ :=
    keyset.shows_from walk (List.nil_append rows).symm keyset.start
  refine ⟨parts, isPages, fun small => ?_⟩
  rcases shown with ⟨ends, -⟩ | ⟨-, longer⟩
  · exact ends
  · omega

end Library.Paging
