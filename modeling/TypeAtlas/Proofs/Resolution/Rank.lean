import Mathlib.Data.List.Basic
import TypeAtlas.Graph.TypeGraph

namespace TypeAtlas

section Sorting

variable {α : Type} {key : α → Nat}

/-- The order of items by their keys. -/
def keyOrder (key : α → Nat) (a b : α) : Bool := decide (key a ≤ key b)

theorem keyOrder_trans (key : α → Nat) (a b c : α) (hab : keyOrder key a b)
    (hbc : keyOrder key b c) : keyOrder key a c := by
  simp only [keyOrder, decide_eq_true_eq] at hab hbc ⊢
  omega

theorem keyOrder_total (key : α → Nat) (a b : α) : keyOrder key a b || keyOrder key b a := by
  simp only [keyOrder, Bool.or_eq_true, decide_eq_true_eq]
  omega

theorem pairwise_sorted (key : α → Nat) (items : List α) :
    (items.mergeSort (keyOrder key)).Pairwise fun a b => key a ≤ key b := by
  have hsorted := List.pairwise_mergeSort (keyOrder_trans key) (keyOrder_total key) items
  simpa only [keyOrder, decide_eq_true_eq] using hsorted

theorem filter_sorted (key : α → Nat) (items : List α) (n : Nat) :
    (items.mergeSort (keyOrder key)).filter (fun item => decide (key item = n)) =
      items.filter fun item => decide (key item = n) := by
  have hsame : (items.filter fun item => decide (key item = n)).Pairwise
      fun a b => keyOrder key a b = true := by
    refine List.pairwise_of_forall_mem_list ?_
    intro a ha b hb
    simp only [List.mem_filter, decide_eq_true_eq] at ha hb
    simp [keyOrder, ha.2, hb.2]
  have hsublist := (List.sublist_mergeSort (keyOrder_trans key) (keyOrder_total key) hsame
    List.filter_sublist).filter fun item => decide (key item = n)
  simp only [List.filter_filter, Bool.and_self] at hsublist
  have hperm := (List.mergeSort_perm items (keyOrder key)).filter fun item => decide (key item = n)
  exact (hsublist.eq_of_length hperm.length_eq.symm).symm

variable [DecidableEq α]

/-- How many items come before an item when they are sorted by a key and items with equal keys keep
their order. -/
def sortedRank (key : α → Nat) (items : List α) (item : α) : Nat :=
  items.countP (fun other => decide (key other < key item)) +
    (items.takeWhile fun other => decide (other ≠ item)).countP
      fun other => decide (key other = key item)

theorem takeWhile_append_cons {front back : List α} {item : α} (h : item ∉ front) :
    (front ++ item :: back).takeWhile (fun other => decide (other ≠ item)) = front := by
  have hfront : ∀ other ∈ front, decide (other ≠ item) = true := by
    intro other hother
    simp only [decide_eq_true_eq]
    rintro rfl
    exact h hother
  rw [List.takeWhile_append_of_pos hfront, List.takeWhile_cons_of_neg (by simp), List.append_nil]

theorem filter_front_eq {items : List α} {front back listed rest : List α} {item : α}
    (hsorted : items.mergeSort (keyOrder key) = front ++ item :: back) (hfront : item ∉ front)
    (hlisted : items = listed ++ item :: rest) (hnot : item ∉ listed) :
    front.filter (fun other => decide (key other = key item)) =
      listed.filter fun other => decide (key other = key item) := by
  have hfilter := filter_sorted key items (key item)
  rw [hsorted] at hfilter
  nth_rewrite 1 [hlisted] at hfilter
  simp only [List.filter_append, List.filter_cons, decide_true, if_true] at hfilter
  have hcut := congrArg (List.takeWhile fun other => decide (other ≠ item)) hfilter
  have hfront' : item ∉ front.filter fun other => decide (key other = key item) :=
    fun h => hfront (List.mem_of_mem_filter h)
  have hnot' : item ∉ listed.filter fun other => decide (key other = key item) :=
    fun h => hnot (List.mem_of_mem_filter h)
  rwa [takeWhile_append_cons hfront', takeWhile_append_cons hnot'] at hcut

theorem sorted_eq_append (key : α → Nat) {items : List α} {item : α} (hitem : item ∈ items) :
    ∃ front back, items.mergeSort (keyOrder key) = front ++ item :: back ∧ item ∉ front ∧
      front.length = sortedRank key items item := by
  have hmem : item ∈ items.mergeSort (keyOrder key) := List.mem_mergeSort.mpr hitem
  obtain ⟨front, back, hsorted, hfront⟩ := List.eq_append_cons_of_mem hmem
  obtain ⟨listed, rest, hlisted, hnot⟩ := List.eq_append_cons_of_mem hitem
  refine ⟨front, back, hsorted, hfront, ?_⟩
  have hpairwise := pairwise_sorted key items
  rw [hsorted, List.pairwise_append, List.pairwise_cons] at hpairwise
  obtain ⟨-, ⟨hback, -⟩, hacross⟩ := hpairwise
  -- In front of the item stand the smaller keys, and of the equal ones those listed before it.
  have hbelow : items.countP (fun other => decide (key other < key item)) =
      front.countP fun other => decide (key other < key item) := by
    rw [← (List.mergeSort_perm items (keyOrder key)).countP_eq, hsorted, List.countP_append,
      List.countP_cons]
    have hzero : back.countP (fun other => decide (key other < key item)) = 0 := by
      rw [List.countP_eq_zero]
      intro other hother
      have hle := hback other hother
      simp only [decide_eq_true_eq]
      omega
    simp [hzero]
  have hequal : (listed.countP fun other => decide (key other = key item)) =
      front.countP fun other => decide (key other = key item) := by
    rw [List.countP_eq_length_filter, List.countP_eq_length_filter,
      filter_front_eq hsorted hfront hlisted hnot]
  have htake : items.takeWhile (fun other => decide (other ≠ item)) = listed := by
    rw [hlisted]
    exact takeWhile_append_cons hnot
  have hrest : front.countP (fun other => decide (key other = key item)) =
      front.countP fun other => decide ¬decide (key other < key item) = true := by
    refine List.countP_congr ?_
    intro other hother
    have hle := hacross other hother item List.mem_cons_self
    simp only [decide_eq_true_eq]
    omega
  rw [sortedRank, htake, hbelow, hequal, hrest]
  exact List.length_eq_countP_add_countP _

/-- An item that occurs once stands at its rank in a sorted list and nowhere else. -/
theorem getElem?_sorted_iff {items : List α} {item : α} (honce : items.count item = 1)
    {position : Nat} : (items.mergeSort (keyOrder key))[position]? = some item ↔
      position = sortedRank key items item := by
  have hitem : item ∈ items := List.count_pos_iff.mp (by omega)
  obtain ⟨front, back, hsorted, hfront, hlength⟩ := sorted_eq_append key hitem
  have hcount := (List.mergeSort_perm items (keyOrder key)).count_eq item
  rw [honce, hsorted, List.count_append, List.count_cons_self] at hcount
  have hback : item ∉ back := by
    rw [← List.count_eq_zero]
    omega
  rw [hsorted, ← hlength]
  constructor
  · intro h
    rcases Nat.lt_trichotomy position front.length with hlt | heq | hgt
    · rw [List.getElem?_append_left hlt] at h
      exact absurd (List.mem_of_getElem? h) hfront
    · exact heq
    · obtain ⟨offset, rfl⟩ := Nat.exists_eq_add_of_lt hgt
      rw [List.getElem?_append_right (by omega)] at h
      have hoffset : front.length + offset + 1 - front.length = offset + 1 := by omega
      rw [hoffset, List.getElem?_cons_succ] at h
      exact absurd (List.mem_of_getElem? h) hback
  · rintro rfl
    simp

theorem countP_lt_range' {n row : Nat} (hpos : 0 < row) (hle : row ≤ n) :
    (List.range' 1 n).countP (fun other => decide (other < row)) = row - 1 := by
  have hsplit : List.range' 1 n = List.range' 1 (row - 1) ++ List.range' row (n - (row - 1)) := by
    have happend := @List.range'_append_1 1 (row - 1) (n - (row - 1))
    rw [show 1 + (row - 1) = row by omega, show row - 1 + (n - (row - 1)) = n by omega] at happend
    exact happend.symm
  have hbelow : (List.range' 1 (row - 1)).countP (fun other => decide (other < row)) =
      (List.range' 1 (row - 1)).length := by
    rw [List.countP_eq_length]
    intro other hother
    rw [List.mem_range'_1] at hother
    simp only [decide_eq_true_eq]
    omega
  have habove : (List.range' row (n - (row - 1))).countP (fun other => decide (other < row)) =
      0 := by
    rw [List.countP_eq_zero]
    intro other hother
    rw [List.mem_range'_1] at hother
    simp only [decide_eq_true_eq]
    omega
  rw [hsplit, List.countP_append, hbelow, habove, List.length_range', Nat.add_zero]

/-- If the keys are the numbers from one on, the rank of an item is its key less one. -/
theorem sortedRank_of_perm {items : List α} {n : Nat} {item : α} (hitem : item ∈ items)
    (hkeys : (items.map key).Perm (List.range' 1 n)) :
    sortedRank key items item = key item - 1 := by
  have hrange : key item ∈ List.range' 1 n := hkeys.mem_iff.mp (List.mem_map_of_mem hitem)
  rw [List.mem_range'_1] at hrange
  have hbelow : items.countP (fun other => decide (key other < key item)) = key item - 1 := by
    have hmap := List.countP_map (p := fun row => decide (row < key item)) (f := key) (l := items)
    rw [hkeys.countP_eq, countP_lt_range' (by omega) (by omega)] at hmap
    exact hmap.symm
  have hnodup : (items.map key).Nodup := hkeys.nodup_iff.mpr List.nodup_range'
  obtain ⟨listed, rest, rfl, hnot⟩ := List.eq_append_cons_of_mem hitem
  have hequal : listed.countP (fun other => decide (key other = key item)) = 0 := by
    rw [List.countP_eq_zero]
    intro other hother heq
    rw [List.map_append, List.map_cons, List.nodup_append] at hnodup
    exact hnodup.2.2 _ (List.mem_map_of_mem hother) _ List.mem_cons_self (of_decide_eq_true heq)
  rw [sortedRank, hbelow, takeWhile_append_cons hnot, hequal, Nat.add_zero]

end Sorting

namespace TypeGraph

variable {graph : TypeGraph} {module : Module} {method : Nat}

/-- How many methods of a module come before a method in the order of their rows. -/
def rankOf (graph : TypeGraph) (module : Module) (method : Nat) : Nat :=
  sortedRank graph.rowOf (graph.listedMethods module) method

theorem getElem?_methodsOf_iff (honce : (graph.listedMethods module).count method = 1)
    {position : Nat} : (graph.methodsOf module)[position]? = some method ↔
      position = graph.rankOf module method :=
  getElem?_sorted_iff honce

theorem mem_methodsOf : method ∈ graph.methodsOf module ↔ method ∈ graph.listedMethods module :=
  List.mem_mergeSort

theorem length_methodsOf :
    (graph.methodsOf module).length = (graph.listedMethods module).length :=
  List.length_mergeSort _

end TypeGraph

end TypeAtlas
