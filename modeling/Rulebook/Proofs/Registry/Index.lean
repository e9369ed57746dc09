import Rulebook.Proofs.Store.Keyed
import Rulebook.Registry.Basic

/-!
# What an index lists

`Index.Lists x key id` says that an identifier is listed under a key. Adding and dropping change that as
they say (`Index.lists_add_iff`, `Index.lists_drop_iff`), and they keep an index tidy: each key occurs once
and has something listed under it, nothing twice (`Index.Tidy`).
-/

namespace Rulebook.Index

/-- An identifier is listed under a key. -/
def Lists (x : Index) (key id : String) : Prop := ∃ ids, (key, ids) ∈ x.entries ∧ id ∈ ids

/-- Each key occurs once, and under each something is listed, nothing twice. -/
structure Tidy (x : Index) : Prop where
  keys : (x.entries.map (·.1)).Nodup
  listed : ∀ e ∈ x.entries, e.2 ≠ [] ∧ e.2.Nodup

/-- An entry with one more identifier, if it is the entry of the key. -/
def extend (key id : String) (e : String × List String) : String × List String :=
  if e.1 == key then (e.1, if e.2.contains id then e.2 else e.2 ++ [id]) else e

variable {x : Index} {key id key' id' : String}

/-- The empty index lists nothing. -/
theorem not_lists_empty : ¬empty.Lists key id := nofun

/-- The empty index is tidy. -/
theorem tidy_empty : empty.Tidy := ⟨List.nodup_nil, nofun⟩

/-- An extended entry keeps its key. -/
theorem extend_key (e : String × List String) : (extend key id e).1 = e.1 := by
  unfold extend
  split <;> rfl

/-- An extended entry lists one more identifier if it is the entry of the key. -/
theorem mem_extend (e : String × List String) :
    id' ∈ (extend key id e).2 ↔ id' ∈ e.2 ∨ e.1 = key ∧ id' = id := by
  unfold extend
  by_cases hkey : e.1 = key
  · by_cases hid : id ∈ e.2
    · have hmem : id' = id → id' ∈ e.2 := fun h => h ▸ hid
      simpa [hkey, hid] using hmem
    · simp [hkey, hid]
  · simp [hkey]

/-- Adding extends the entry of the key, or there is a new one. -/
theorem add_entries (x : Index) (key id : String) : (x.add key id).entries =
    if x.entries.any (·.1 == key) then x.entries.map (extend key id)
    else x.entries ++ [(key, [id])] := by
  unfold add
  split <;> rfl

/-- Adding lists one more identifier under a key. -/
theorem lists_add_iff : (x.add key id).Lists key' id' ↔ x.Lists key' id' ∨ key' = key ∧ id' = id := by
  unfold Lists
  rw [add_entries]
  by_cases hkey : x.entries.any (·.1 == key) = true
  · rw [if_pos hkey]
    constructor
    · rintro ⟨ids, hmem, hid⟩
      obtain ⟨e, he, heq⟩ := List.mem_map.mp hmem
      obtain rfl : e.1 = key' := (extend_key e).symm.trans (congrArg Prod.fst heq)
      obtain hold | hnew := (mem_extend e).mp (heq ▸ hid : id' ∈ (extend key id e).2)
      · exact .inl ⟨e.2, he, hold⟩
      · exact .inr hnew
    · rintro (⟨ids, hmem, hid⟩ | ⟨rfl, rfl⟩)
      · refine ⟨(extend key id (key', ids)).2, List.mem_map.mpr ⟨_, hmem, ?_⟩, ?_⟩
        · exact Prod.ext (extend_key _) rfl
        · exact (mem_extend (key', ids)).mpr (.inl hid)
      · obtain ⟨e, he, hek⟩ := List.any_eq_true.mp hkey
        obtain rfl := beq_iff_eq.mp hek
        refine ⟨(extend e.1 id' e).2, List.mem_map.mpr ⟨e, he, ?_⟩, ?_⟩
        · exact Prod.ext (extend_key e) rfl
        · exact (mem_extend e).mpr (.inr ⟨rfl, rfl⟩)
  · rw [if_neg hkey]
    constructor
    · rintro ⟨ids, hmem, hid⟩
      obtain hmem | hmem := List.mem_append.mp hmem
      · exact .inl ⟨ids, hmem, hid⟩
      · obtain ⟨rfl, rfl⟩ := Prod.mk.inj (List.mem_singleton.mp hmem)
        exact .inr ⟨rfl, List.mem_singleton.mp hid⟩
    · rintro (⟨ids, hmem, hid⟩ | ⟨rfl, rfl⟩)
      · exact ⟨ids, List.mem_append_left _ hmem, hid⟩
      · exact ⟨[id'], List.mem_append_right _ (List.mem_singleton_self _), List.mem_singleton_self _⟩

/-- Dropping takes an identifier away everywhere. -/
theorem lists_drop_iff : (x.drop id).Lists key' id' ↔ x.Lists key' id' ∧ id' ≠ id := by
  unfold Lists drop
  constructor
  · rintro ⟨ids', hmem, hid⟩
    obtain ⟨⟨k, ids⟩, he, heq⟩ := List.mem_map.mp (List.mem_of_mem_filter hmem)
    obtain ⟨rfl, rfl⟩ := Prod.mk.inj heq
    obtain ⟨hold, hne⟩ := List.mem_filter.mp hid
    exact ⟨⟨ids, he, hold⟩, by simpa using hne⟩
  · rintro ⟨⟨ids, he, hid⟩, hne⟩
    have hkept : id' ∈ ids.filter (· != id) := List.mem_filter.mpr ⟨hid, by simpa using hne⟩
    refine ⟨_, List.mem_filter.mpr ⟨List.mem_map.mpr ⟨_, he, rfl⟩, ?_⟩, hkept⟩
    simpa using ⟨id', hid, hne⟩

/-- Adding keeps an index tidy. -/
theorem Tidy.add (h : x.Tidy) (key id : String) : (x.add key id).Tidy := by
  by_cases hkey : x.entries.any (·.1 == key) = true
  · refine ⟨?_, ?_⟩
    · rw [add_entries, if_pos hkey, List.map_map]
      exact (List.map_congr_left fun e _ => extend_key e) ▸ h.keys
    · rw [add_entries, if_pos hkey]
      intro e' he'
      obtain ⟨e, he, rfl⟩ := List.mem_map.mp he'
      obtain ⟨hsome, hnodup⟩ := h.listed e he
      unfold extend
      by_cases hek : e.1 = key
      · by_cases hid : id ∈ e.2
        · simpa [hek, hid] using ⟨hsome, hnodup⟩
        · have hlast : (e.2 ++ [id]).Nodup := by
            rw [← List.concat_eq_append]
            exact hnodup.concat hid
          simpa [hek, hid] using hlast
      · simpa [hek] using ⟨hsome, hnodup⟩
  · have hnew : ∀ e ∈ x.entries, e.1 ≠ key := by
      intro e he hek
      exact hkey (List.any_eq_true.mpr ⟨e, he, beq_iff_eq.mpr hek⟩)
    refine ⟨?_, ?_⟩
    · rw [add_entries, if_neg hkey]
      exact Keyed.nodup_add h.keys hnew
    · rw [add_entries, if_neg hkey]
      intro e he
      obtain he | he := List.mem_append.mp he
      · exact h.listed e he
      · rw [List.mem_singleton.mp he]
        exact ⟨List.cons_ne_nil _ _, List.nodup_singleton id⟩

/-- Dropping keeps an index tidy. -/
theorem Tidy.drop (h : x.Tidy) (id : String) : (x.drop id).Tidy := by
  constructor
  · have hkeys : (x.entries.map fun e => (e.1, e.2.filter (· != id))).map (·.1) = x.entries.map (·.1) := by
      rw [List.map_map]
      rfl
    exact (hkeys ▸ h.keys).sublist (List.filter_sublist.map _)
  · intro e' he'
    obtain ⟨hmem, hsome⟩ := List.mem_filter.mp he'
    obtain ⟨e, he, rfl⟩ := List.mem_map.mp hmem
    exact ⟨by simpa using hsome, (h.listed e he).2.filter _⟩

/-- In a tidy index, what is found under a key is what is listed under it. -/
theorem Tidy.mem_get_iff (h : x.Tidy) : id ∈ x.get key ↔ x.Lists key id := by
  obtain ⟨entries⟩ := x
  have hkeys : (entries.map (·.1)).Nodup := h.keys
  unfold get Lists
  dsimp only
  clear h
  induction entries with
  | nil => exact iff_of_false List.not_mem_nil nofun
  | cons e entries ih =>
      obtain ⟨k, ids⟩ := e
      obtain ⟨hnew, hrest⟩ := List.nodup_cons.mp hkeys
      rw [List.lookup_cons]
      by_cases hk : key = k
      · subst hk
        have habsent : ∀ ids', (key, ids') ∉ entries := fun ids' hmem =>
          hnew (List.mem_map.mpr ⟨_, hmem, rfl⟩)
        simp [habsent]
      · rw [beq_false_of_ne hk]
        refine (ih hrest).trans ?_
        simp [hk]

/-- What is listed under the keys that are wanted is listed under one of them. -/
theorem mem_listed_iff {wanted : String → Bool} :
    id ∈ x.listed wanted ↔ ∃ key, wanted key = true ∧ x.Lists key id := by
  unfold listed Lists
  rw [List.mem_flatMap]
  constructor
  · rintro ⟨⟨key, ids⟩, he, hid⟩
    obtain ⟨hmem, hwanted⟩ := List.mem_filter.mp he
    exact ⟨key, hwanted, ids, hmem, hid⟩
  · rintro ⟨key, hwanted, ids, hmem, hid⟩
    exact ⟨(key, ids), List.mem_filter.mpr ⟨hmem, hwanted⟩, hid⟩

end Rulebook.Index
