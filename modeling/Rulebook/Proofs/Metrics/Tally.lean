import Mathlib.Algebra.BigOperators.Group.List.Basic
import Mathlib.Algebra.GroupWithZero.Nat
import Mathlib.Data.List.Induction
import Mathlib.Data.List.Nodup
import Rulebook.Metrics
import Rulebook.Proofs.Keys

/-!
# Counting by keys

Counting items lists each item once, with the number of its occurrences (`tally_eq`). So what is counted key by key
adds up to what is counted in all (`sum_by_key`). When the counts are listed by frequency, none that is left out is
greater than one of the first (`le_of_not_taken`).
-/

namespace Rulebook

variable {α β : Type} [BEq α] [LawfulBEq α]

/-- An item is added to the different items if it is not among them. -/
theorem erase_dups_concat (items : List α) (a : α) :
    (items ++ [a]).eraseDups = if a ∈ items then items.eraseDups else items.eraseDups ++ [a] := by
  rw [List.eraseDups_append]
  split
  next h => simp [List.removeAll, h]
  next h => simp [List.removeAll, h, List.eraseDups_cons]

/-- The different items come once each. -/
theorem erase_dups_nodup (items : List α) : items.eraseDups.Nodup := by
  induction items using List.reverseRecOn with
  | nil => simp
  | append_singleton items a ih =>
      rw [erase_dups_concat]
      split
      next => exact ih
      next h =>
        refine List.nodup_append.mpr ⟨ih, List.nodup_singleton a, fun b hb c hc => ?_⟩
        rintro rfl
        exact h (List.mem_singleton.mp hc ▸ List.mem_eraseDups.mp hb)

/-- Each item that occurs is counted as often as it does. -/
theorem tally_eq (items : List α) : tally items = items.eraseDups.map fun a => (a, items.count a) := by
  -- by induction on the items from the last one on, which is the last to be counted
  induction items using List.reverseRecOn with
  | nil => simp [tally]
  | append_singleton items a ih =>
      have hstep : tally (items ++ [a]) = if (tally items).any (·.1 == a) then
          (tally items).map fun p => if p.1 == a then (p.1, p.2 + 1) else p
          else tally items ++ [(a, 1)] := by
        unfold tally
        rw [List.foldl_append]
        rfl
      have hany : (tally items).any (·.1 == a) = decide (a ∈ items) := by
        rw [Bool.eq_iff_iff, decide_eq_true_iff, ih]
        simp
      rw [hstep, hany, ih, erase_dups_concat]
      by_cases ha : a ∈ items
      · rw [if_pos (by simpa using ha), if_pos ha, List.map_map]
        refine List.map_congr_left fun b _ => ?_
        by_cases hb : b = a
        · simp [hb, List.count_append]
        · simp [hb, List.count_append, Ne.symm hb]
      · rw [if_neg (by simpa using ha), if_neg ha, List.map_append]
        congr 1
        · refine List.map_congr_left fun b hb => ?_
          have hne : b ≠ a := fun heq => ha (heq ▸ List.mem_eraseDups.mp hb)
          simp [List.count_append, hne.symm]
        · simp [List.count_append, List.count_eq_zero_of_not_mem ha]

/-- The keys of the counts are the different items. -/
theorem tally_keys (items : List α) : (tally items).map (·.1) = items.eraseDups := by
  rw [tally_eq, List.map_map]
  exact List.map_id _

/-- A count is that of its item. -/
theorem count_of_mem_tally {items : List α} {a : α} {n : Nat} (h : (a, n) ∈ tally items) : n = items.count a := by
  rw [tally_eq] at h
  obtain ⟨_, _, heq⟩ := List.mem_map.mp h
  obtain ⟨rfl, rfl⟩ := Prod.mk.inj heq
  rfl

omit [BEq α] [LawfulBEq α] in
/-- Counting is adding up ones. -/
theorem sum_of_ones (test : α → Bool) (l : List α) : (l.map fun a => if test a then 1 else 0).sum = l.countP test := by
  induction l with
  | nil => rfl
  | cons a l ih => rw [List.map_cons, List.sum_cons, ih, List.countP_cons, Nat.add_comm]

omit [BEq α] [LawfulBEq α] in
/-- What meets one of two tests that exclude each other is counted by both. -/
theorem count_of_either {first second either : α → Bool} (h : ∀ a, either a = (first a || second a))
    (hexclude : ∀ a, first a = true → second a = false) (l : List α) :
    l.countP first + l.countP second = l.countP either := by
  induction l with
  | nil => rfl
  | cons a l ih =>
      simp only [List.countP_cons, ← ih, h]
      cases hfirst : first a with
      | true =>
          rw [hexclude a hfirst]
          simp only [Bool.or_false, if_true, Bool.false_eq_true, if_false]
          omega
      | false =>
          simp only [Bool.false_or, Bool.false_eq_true, if_false]
          omega

/-- What meets a test, counted key by key, is what meets it in all. -/
theorem sum_by_key {keys : List α} (hkeys : keys.Nodup) {l : List β} (key : β → α) (test : β → Bool)
    (h : ∀ b ∈ l, key b ∈ keys) :
    (keys.map fun k => l.countP fun b => key b == k && test b).sum = l.countP test := by
  induction l with
  | nil => simp
  | cons b l ih =>
      obtain ⟨hb, hrest⟩ := List.forall_mem_cons.mp h
      -- the first item is counted under its own key alone
      have hone : (keys.map fun k => if key b == k && test b then 1 else 0).sum = if test b then 1 else 0 := by
        rw [sum_of_ones]
        cases test b with
        | false => simp
        | true =>
            have hcount : keys.countP (· == key b) = 1 := List.count_eq_one_of_mem hkeys hb
            simpa [Bool.beq_comm (a := key b)] using hcount
      simp only [List.countP_cons]
      rw [List.sum_map_add, ih hrest, hone]

omit [LawfulBEq α] in
/-- A key is counted as often as items have it. -/
theorem count_keys (key : β → α) (l : List β) (a : α) : (l.map key).count a = l.countP fun b => key b == a := by
  rw [List.count_eq_countP, List.countP_map]
  rfl

/-- The counts add up to the number of items. -/
theorem tally_sum (items : List α) : ((tally items).map (·.2)).sum = items.length := by
  have hsum := sum_by_key (erase_dups_nodup items) id (fun _ => true) fun a ha => List.mem_eraseDups.mpr ha
  simp only [Bool.and_true, id_eq, List.countP_true] at hsum
  rw [tally_eq, List.map_map]
  exact hsum

section Sorting

variable {α : Type} {counts : List (α × Nat)}

/-- The counts are listed by frequency. -/
theorem most_frequent_sorted (counts : List (α × Nat)) : (mostFrequent counts).Pairwise fun a b => b.2 ≤ a.2 :=
  sorted_by_key (fun a : α × Nat => OrderDual.toDual a.2) counts

/-- The counts that are listed are those that were taken. -/
theorem most_frequent_perm (counts : List (α × Nat)) : (mostFrequent counts).Perm counts :=
  List.mergeSort_perm _ _

/-- A count that is not among the first ones of a number is not greater than one of these, and there are that many. -/
theorem le_of_not_taken {limit : Nat} {a : α × Nat} (ha : a ∈ counts) (hleft : a ∉ (mostFrequent counts).take limit) :
    (∀ b ∈ (mostFrequent counts).take limit, a.2 ≤ b.2) ∧ ((mostFrequent counts).take limit).length = limit := by
  have hsplit := List.take_append_drop limit (mostFrequent counts)
  have hmem := (most_frequent_perm counts).mem_iff.mpr ha
  rw [← hsplit] at hmem
  have hdropped : a ∈ (mostFrequent counts).drop limit := (List.mem_append.mp hmem).resolve_left hleft
  have hsorted := most_frequent_sorted counts
  rw [← hsplit] at hsorted
  refine ⟨fun b hb => (List.pairwise_append.mp hsorted).2.2 b hb a hdropped, ?_⟩
  have hlength := List.length_pos_of_mem hdropped
  rw [List.length_drop] at hlength
  rw [List.length_take]
  omega

end Sorting

end Rulebook
