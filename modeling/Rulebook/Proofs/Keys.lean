import Mathlib.Data.Int.Order.Basic
import Mathlib.Data.List.Basic
import Mathlib.Data.Nat.Basic
import Mathlib.Order.Lattice

/-!
# Lists by keys

Fields, headers and entries of trees are kept as lists of keys with their values, in which the first value of a
key counts. What is found after the keys of a class are left, and after a key is set: its value is replaced
where it stands, or comes to the end (`lookup_set`).

Rules, actions, counts and executions are sorted by a key: they come in the order of the keys (`sorted_by_key`), and
those of one key in the order that they had (`filter_sorted_by_key`). Where the greatest comes first, the key is one of
the dual order.
-/

namespace Rulebook

section Lookup

variable {α β : Type} [BEq α] [LawfulBEq α]

/-- Looking up a key where the keys of a class are left. -/
theorem lookup_filter (l : List (α × β)) (keep : α → Bool) (key : α) :
    (l.filter fun x => keep x.1).lookup key = if keep key then l.lookup key else none := by
  induction l with
  | nil => simp
  | cons x l ih =>
      obtain ⟨k, v⟩ := x
      rw [List.filter_cons, List.lookup_cons]
      cases hkey : key == k with
      | true =>
          obtain rfl := eq_of_beq hkey
          cases hkeep : keep key with
          | true => simp
          | false => rw [if_neg Bool.false_ne_true, ih, hkeep]; rfl
      | false =>
          split
          · rw [List.lookup_cons, hkey, ih]
          · exact ih

/-- Looking up a key where the values of one key are replaced. -/
theorem lookup_replaced (l : List (α × β)) (k : α) (v : β) (key : α) :
    (l.map fun x => if x.1 == k then (k, v) else x).lookup key =
      if key == k then if l.any (·.1 == k) then some v else none else l.lookup key := by
  induction l with
  | nil => simp
  | cons x l ih =>
      rw [List.map_cons, List.lookup_cons, List.lookup_cons, List.any_cons]
      cases hx : x.1 == k with
      | true =>
          rw [if_pos rfl, Bool.true_or, if_pos rfl, eq_of_beq hx]
          cases hkey : key == k with
          | true => rfl
          | false => rw [ih, hkey]; rfl
      | false =>
          rw [if_neg Bool.false_ne_true, Bool.false_or, ih]
          cases hkey : key == k with
          | true => rw [eq_of_beq hkey, BEq.comm, hx]
          | false => rfl

/-- A key that is set has its value, and no other key changes. -/
theorem lookup_set (l : List (α × β)) (k : α) (v : β) (key : α) :
    (if l.any (·.1 == k) then l.map fun x => if x.1 == k then (k, v) else x else l ++ [(k, v)]).lookup key =
      if key == k then some v else l.lookup key := by
  split
  · next hany => rw [lookup_replaced, if_pos hany]
  · next hany =>
      rw [List.lookup_append, List.lookup_cons, List.lookup_nil]
      cases hkey : key == k with
      | true =>
          obtain rfl := eq_of_beq hkey
          have hnone : l.lookup key = none := by
            refine List.lookup_eq_none_iff.mpr fun x hx => bne_iff_ne.mpr fun heq => hany ?_
            exact List.any_eq_true.mpr ⟨x, hx, beq_iff_eq.mpr heq.symm⟩
          rw [hnone]
          rfl
      | false => exact Option.or_none

end Lookup

section Sorting

variable {α κ : Type} [LinearOrder κ]

/-- The order of keys can be passed on. -/
theorem le_key_trans (key : α → κ) (a b c : α) (hab : decide (key a ≤ key b) = true)
    (hbc : decide (key b ≤ key c) = true) : decide (key a ≤ key c) = true :=
  decide_eq_true (le_trans (of_decide_eq_true hab) (of_decide_eq_true hbc))

/-- Of two keys, one comes first. -/
theorem le_key_total (key : α → κ) (a b : α) : (decide (key a ≤ key b) || decide (key b ≤ key a)) = true := by
  simpa using le_total (key a) (key b)

/-- A list that is sorted by a key is in the order of the keys. -/
theorem sorted_by_key (key : α → κ) (l : List α) :
    (l.mergeSort fun a b => decide (key a ≤ key b)).Pairwise fun a b => key a ≤ key b :=
  (List.pairwise_mergeSort (le_key_trans key) (le_key_total key) l).imp of_decide_eq_true

/-- The items of a key stay in order when a list is sorted by keys. -/
theorem filter_sorted_by_key (key : α → κ) (k : κ) (l : List α) :
    (l.mergeSort fun a b => decide (key a ≤ key b)).filter (key · = k) = l.filter (key · = k) := by
  have hequal : (l.filter (key · = k)).Pairwise fun a b => decide (key a ≤ key b) = true := by
    refine List.pairwise_of_forall_mem_list fun a ha b hb => decide_eq_true (le_of_eq ?_)
    have hak : key a = k := of_decide_eq_true (List.mem_filter.mp ha).2
    have hbk : key b = k := of_decide_eq_true (List.mem_filter.mp hb).2
    exact hak.trans hbk.symm
  have hsub := List.sublist_mergeSort (le_key_trans key) (le_key_total key) hequal List.filter_sublist
  have hkept := hsub.filter (key · = k)
  rw [List.filter_eq_self.mpr fun a ha => (List.mem_filter.mp ha).2] at hkept
  exact (hkept.eq_of_length ((List.mergeSort_perm l _).filter _).length_eq.symm).symm

end Sorting

end Rulebook
