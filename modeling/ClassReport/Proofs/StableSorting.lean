import Mathlib.Data.List.Nodup
import Mathlib.Data.List.Perm.Basic

/-!
# Sorting by a key

Merge sort by a key leaves items with one key in the order in which they stood. That and the order of the
keys fix the sorted list (`StablySorted.unique`), so that leaving items out and sorting can change places.
Where no two items have the same key it does not matter how they stood (`mergeSort_eq_of_perm`).
-/

namespace ClassReport

/-- The same items in the order of their keys; items with one key keep their order. -/
structure StablySorted {α κ : Type} [LE κ] [DecidableEq κ] (key : α → κ) (items sorted : List α) :
    Prop where
  perm : sorted.Perm items
  ordered : sorted.Pairwise fun a b => key a ≤ key b
  stable : ∀ k, sorted.filter (fun a => key a = k) = items.filter fun a => key a = k

section Sorting
variable {α κ : Type} {key : α → κ} {items sorted other : List α}

theorem mem_iff_of_stable [DecidableEq κ] (hstable : ∀ k, sorted.filter (fun a => key a = k) =
    other.filter fun a => key a = k) (item : α) : item ∈ sorted ↔ item ∈ other := by
  have hself (list : List α) :
      item ∈ list ↔ item ∈ list.filter fun a => key a = key item := by simp
  rw [hself sorted, hself other, hstable]

variable [LE κ]

/-- The order of other keys that compare in the same way is the same order. -/
theorem StablySorted.rekey [DecidableEq κ] {κ' : Type} [LE κ'] [DecidableEq κ'] {key' : α → κ'}
    (h : StablySorted key items sorted) (hle : ∀ a b, key a ≤ key b → key' a ≤ key' b)
    (heq : ∀ a b, key' a = key' b ↔ key a = key b) : StablySorted key' items sorted where
  perm := h.perm
  ordered := h.ordered.imp fun hab => hle _ _ hab
  stable k := by
    by_cases hk : ∃ item, key' item = k
    · obtain ⟨item, rfl⟩ := hk
      have hsame : (fun a => decide (key' a = key' item)) = fun a => decide (key a = key item) := by
        funext a
        exact decide_eq_decide.mpr (heq a item)
      rw [hsame]
      exact h.stable (key item)
    · have hnone (list : List α) : list.filter (fun a => key' a = k) = [] :=
        List.filter_eq_nil_iff.mpr fun a _ ha => hk ⟨a, of_decide_eq_true ha⟩
      rw [hnone, hnone]

theorem StablySorted.filter [DecidableEq κ] (h : StablySorted key items sorted) (keeps : α → Bool) :
    StablySorted key (items.filter keeps) (sorted.filter keeps) where
  perm := h.perm.filter keeps
  ordered := h.ordered.filter keeps
  stable k := by
    have hswap (list : List α) : (list.filter keeps).filter (fun a => key a = k) =
        (list.filter fun a => key a = k).filter keeps := by
      rw [List.filter_filter, List.filter_filter]
      exact List.filter_congr fun a _ => Bool.and_comm _ _
    rw [hswap, hswap, h.stable]

variable [Std.IsLinearOrder κ]

theorem eq_of_ordered_of_stable [DecidableEq κ]
    (hsorted : sorted.Pairwise fun a b => key a ≤ key b)
    (hother : other.Pairwise fun a b => key a ≤ key b)
    (hstable : ∀ k, sorted.filter (fun a => key a = k) = other.filter fun a => key a = k) :
    sorted = other := by
  induction sorted generalizing other with
  | nil =>
    cases other with
    | nil => rfl
    | cons b other =>
      exact absurd ((mem_iff_of_stable hstable b).mpr List.mem_cons_self) List.not_mem_nil
  | cons a sorted ih =>
    cases other with
    | nil => exact absurd ((mem_iff_of_stable hstable a).mp List.mem_cons_self) List.not_mem_nil
    | cons b other =>
      obtain ⟨hfirst, hrest⟩ := List.pairwise_cons.mp hsorted
      obtain ⟨hfirst', hrest'⟩ := List.pairwise_cons.mp hother
      -- Each of the two first items stands in both lists, so neither has the smaller key.
      have hle : key a ≤ key b := by
        rcases List.mem_cons.mp ((mem_iff_of_stable hstable b).mpr List.mem_cons_self) with rfl | hb
        · exact Std.le_refl _
        · exact hfirst b hb
      have hge : key b ≤ key a := by
        rcases List.mem_cons.mp ((mem_iff_of_stable hstable a).mp List.mem_cons_self) with rfl | ha
        · exact Std.le_refl _
        · exact hfirst' a ha
      have hkey : key b = key a := Std.le_antisymm hge hle
      have hheads := hstable (key a)
      rw [List.filter_cons_of_pos (by simp), List.filter_cons_of_pos (by simp [hkey])] at hheads
      obtain rfl : a = b := (List.cons.inj hheads).1
      have htails (k : κ) : sorted.filter (fun a => key a = k) =
          other.filter fun a => key a = k := by
        have hk := hstable k
        by_cases ha : key a = k
        · rw [List.filter_cons_of_pos (by simp [ha]), List.filter_cons_of_pos (by simp [ha])] at hk
          exact (List.cons.inj hk).2
        · rwa [List.filter_cons_of_neg (by simp [ha]), List.filter_cons_of_neg (by simp [ha])] at hk
      rw [ih hrest hrest' htails]

/-- There is one stably sorted list of some items. -/
theorem StablySorted.unique [DecidableEq κ] (h : StablySorted key items sorted)
    (h' : StablySorted key items other) : sorted = other :=
  eq_of_ordered_of_stable h.ordered h'.ordered fun k => (h.stable k).trans (h'.stable k).symm

variable [DecidableLE κ]

/-- What merge sort asks of an order, for the order of the keys. -/
theorem le_key_trans (key : α → κ) (a b c : α) (hab : decide (key a ≤ key b) = true)
    (hbc : decide (key b ≤ key c) = true) : decide (key a ≤ key c) = true := by
  rw [decide_eq_true_eq] at hab hbc ⊢
  exact Std.le_trans hab hbc

theorem le_key_total (key : α → κ) (a b : α) :
    (decide (key a ≤ key b) || decide (key b ≤ key a)) = true := by
  rw [Bool.or_eq_true, decide_eq_true_eq, decide_eq_true_eq]
  exact Std.le_total

theorem pairwise_mergeSort_key (key : α → κ) (items : List α) :
    (items.mergeSort fun a b => decide (key a ≤ key b)).Pairwise fun a b => key a ≤ key b :=
  (List.pairwise_mergeSort (le_key_trans key) (le_key_total key) items).imp of_decide_eq_true

theorem stablySorted_mergeSort [DecidableEq κ] (key : α → κ) (items : List α) :
    StablySorted key items (items.mergeSort fun a b => decide (key a ≤ key b)) where
  perm := List.mergeSort_perm _ _
  ordered := pairwise_mergeSort_key key items
  stable k := by
    have hequal : (items.filter fun a => key a = k).Pairwise
        fun a b => decide (key a ≤ key b) = true := by
      refine List.pairwise_of_forall_mem_list fun a ha b hb => ?_
      have hkey {a : α} (ha : a ∈ items.filter fun a => key a = k) : key a = k :=
        of_decide_eq_true (List.mem_filter.mp ha).2
      rw [decide_eq_true_eq, hkey ha, hkey hb]
      exact Std.le_refl _
    -- Equal items stand in order already, so sorting keeps them in a row of the same length.
    have hkept := (List.sublist_mergeSort (le_key_trans key) (le_key_total key) hequal
      List.filter_sublist).filter fun a => key a = k
    rw [List.filter_filter] at hkept
    simp only [Bool.and_self] at hkept
    have hlength := ((List.mergeSort_perm items fun a b => decide (key a ≤ key b)).filter
      fun a => key a = k).length_eq
    exact (hkept.eq_of_length hlength.symm).symm

theorem eq_mergeSort_of_perm (key : α → κ) (hsorted : items.Pairwise fun a b => key a ≤ key b)
    (hperm : items.Perm other) (hdistinct : (items.map key).Nodup) :
    items = other.mergeSort fun a b => decide (key a ≤ key b) := by
  have hall := hperm.trans (List.mergeSort_perm other fun a b => decide (key a ≤ key b)).symm
  refine hall.eq_of_pairwise ?_ hsorted (pairwise_mergeSort_key key other)
  intro a b ha hb hab hba
  exact List.inj_on_of_nodup_map hdistinct ha (hall.mem_iff.mpr hb) (Std.le_antisymm hab hba)

theorem mergeSort_eq_of_perm (key : α → κ) (hperm : items.Perm other) (hdistinct : (items.map key).Nodup) :
    (items.mergeSort fun a b => decide (key a ≤ key b)) =
      other.mergeSort fun a b => decide (key a ≤ key b) := by
  have hself := List.mergeSort_perm items fun a b => decide (key a ≤ key b)
  refine eq_mergeSort_of_perm key (pairwise_mergeSort_key key items) (hself.trans hperm) ?_
  exact (hself.map key).nodup_iff.mpr hdistinct

end Sorting

end ClassReport
