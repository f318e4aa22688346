import Mathlib.Data.List.Nodup
import Mathlib.Data.List.Perm.Subperm

/-! Ranked retrieval: the best items for a query, in an order that the items
themselves determine. Items carry an identity, so that no two items of one
store tie completely. -/

set_option autoImplicit false

namespace AgenticEnterprise.Library

structure Ranking {Item : Type} (Query : Type) (identity : Item → Nat) where
  score : Query → Item → Rat
  order : Query → List Item → List Item
  order_perm : ∀ query items, (order query items).Perm items
  order_sorted : ∀ query items,
    (order query items).Pairwise fun better worse => score query worse ≤ score query better
  order_congr : ∀ query {items others : List Item}, (items.map identity).Nodup →
    items.Perm others → order query items = order query others

namespace Ranking

variable {Query Item : Type} {identity : Item → Nat}

def top (ranking : Ranking Query identity) (query : Query) (limit : Nat) (items : List Item) :
    List Item :=
  (ranking.order query items).take limit

section

variable {ranking : Ranking Query identity} {query : Query} {limit : Nat} {items others : List Item}

theorem mem_of_mem_top {item : Item} (member : item ∈ ranking.top query limit items) :
    item ∈ items :=
  (ranking.order_perm query items).mem_iff.mp (List.mem_of_mem_take member)

theorem top_nil : ranking.top query limit [] = [] := by
  have empty : ranking.order query [] = [] := (ranking.order_perm query []).eq_nil
  simp [top, empty]

theorem top_singleton {item : Item} (asked : 0 < limit) :
    ranking.top query limit [item] = [item] := by
  have alone : ranking.order query [item] = [item] :=
    List.perm_singleton.mp (ranking.order_perm query [item])
  rw [top, alone, List.take_of_length_le (Nat.succ_le_of_lt asked)]

/-- When the filter comes before the cut, items outside it have no influence. -/
theorem top_filter_congr {allowed : Item → Bool} (unique : (items.map identity).Nodup)
    (same : (items.filter allowed).Perm (others.filter allowed)) :
    ranking.top query limit (items.filter allowed) =
      ranking.top query limit (others.filter allowed) := by
  have distinct : ((items.filter allowed).map identity).Nodup :=
    (List.filter_sublist.map identity).nodup unique
  rw [top, top, ranking.order_congr query distinct same]

end

/-! ## The best items -/

/-- As many items as asked for, the better ones first, and none is left out that beats
one of them. -/
structure Best (ranking : Ranking Query identity) (query : Query) (limit : Nat)
    (items chosen : List Item) : Prop where
  distinct : chosen.Nodup
  own : ∀ item ∈ chosen, item ∈ items
  count : chosen.length = min limit items.length
  sorted : chosen.Pairwise fun better worse =>
    ranking.score query worse ≤ ranking.score query better
  best : ∀ item ∈ items, item ∉ chosen → ∀ kept ∈ chosen,
    ranking.score query item ≤ ranking.score query kept

section

variable {ranking : Ranking Query identity} {query : Query} {limit : Nat}
  {items chosen : List Item}

theorem best_top (distinct : items.Nodup) :
    ranking.Best query limit items (ranking.top query limit items) where
  distinct :=
    (List.take_sublist _ _).nodup ((ranking.order_perm query items).nodup_iff.mpr distinct)
  own _ member := mem_of_mem_top member
  count := by rw [top, List.length_take, (ranking.order_perm query items).length_eq]
  sorted := (ranking.order_sorted query items).take
  best := by
    intro item member left kept here
    have sorted := ranking.order_sorted query items
    rw [← List.take_append_drop limit (ranking.order query items), List.pairwise_append] at sorted
    have ordered := (ranking.order_perm query items).mem_iff.mpr member
    rw [← List.take_append_drop limit (ranking.order query items), List.mem_append] at ordered
    exact sorted.2.2 kept here item (ordered.resolve_left left)

/-- Asked for all of them, nothing is left out. -/
theorem Best.complete (best : ranking.Best query limit items chosen)
    (enough : items.length ≤ limit) {item : Item} (member : item ∈ items) : item ∈ chosen := by
  have count := best.count
  rw [Nat.min_eq_right enough] at count
  have perm : chosen.Perm items :=
    (List.subperm_of_subset best.distinct best.own).perm_of_length_le (Nat.le_of_eq count.symm)
  exact perm.mem_iff.mpr member

end

/-! ## Ranking by a score, ties by identity -/

section

variable (score : Query → Item → Rat) (identity : Item → Nat)

def before (query : Query) (left right : Item) : Bool :=
  decide (score query right < score query left ∨
    (score query left = score query right ∧ identity left ≤ identity right))

theorem before_trans (query : Query) (first second third : Item)
    (left : before score identity query first second = true)
    (right : before score identity query second third = true) :
    before score identity query first third = true := by
  simp only [before, decide_eq_true_eq] at *
  grind

theorem before_total (query : Query) (left right : Item) :
    (before score identity query left right || before score identity query right left) = true := by
  simp only [before, Bool.or_eq_true, decide_eq_true_eq]
  grind

def ofScore : Ranking Query identity where
  score := score
  order query items := items.mergeSort (before score identity query)
  order_perm query items := List.mergeSort_perm items _
  order_sorted query items := by
    refine (List.pairwise_mergeSort (before_trans score identity query)
      (before_total score identity query) items).imp ?_
    intro better worse sorted
    simp only [before, decide_eq_true_eq] at sorted
    grind
  order_congr query items others unique same := by
    have sorted (list : List Item) :=
      List.pairwise_mergeSort (before_trans score identity query)
        (before_total score identity query) list
    refine List.Perm.eq_of_pairwise ?_ (sorted items) (sorted others)
      ((List.mergeSort_perm items _).trans (same.trans (List.mergeSort_perm others _).symm))
    intro left right leftMember rightMember forward backward
    have inItems : left ∈ items := (List.mergeSort_perm items _).mem_iff.mp leftMember
    have inOthers : right ∈ others := (List.mergeSort_perm others _).mem_iff.mp rightMember
    have tied : identity left = identity right := by
      simp only [before, decide_eq_true_eq] at forward backward
      grind
    exact List.inj_on_of_nodup_map unique inItems (same.mem_iff.mpr inOthers) tied

end

end Ranking

end AgenticEnterprise.Library
