/-
# Insertion-ordered dictionaries

The mappings of the worker (`_sessions`, `_recording_ids`) and the tables of the
database are finite maps that are both looked up and iterated.  The carrier is
Mathlib's association list without duplicate keys, so a key can never occur twice;
`Dict.set` keeps the order of first insertion, as a Python `dict` does (`AList.insert`
moves the key to the front), and `Dict.modify` updates a value in place.
-/
import Mathlib

/-- A dictionary: an association list without duplicate keys. -/
abbrev Dict (κ α : Type) := AList (fun _ : κ => α)

namespace Dict

variable {κ α : Type} [DecidableEq κ]

/-- Apply `f` to the value at `k`, if there is one. -/
def modify (k : κ) (f : α → α) (d : Dict κ α) : Dict κ α where
  entries := d.entries.map fun e => ⟨e.1, if e.1 = k then f e.2 else e.2⟩
  nodupKeys := by
    have hkeys : (d.entries.map fun e => (⟨e.1, if e.1 = k then f e.2 else e.2⟩ :
        Sigma fun _ : κ => α)).keys = d.entries.keys := by
      simp [List.keys, Function.comp_def]
    rw [List.NodupKeys, hkeys]
    exact d.nodupKeys

/-- `d[k] = v`: in place for a present key, at the end for a new one. -/
def set (k : κ) (v : α) (d : Dict κ α) : Dict κ α :=
  if k ∈ d.keys then modify k (fun _ => v) d else d ∪ AList.singleton k v

/-! ## Lookups -/

/-- A looked-up pair is an entry. -/
theorem mem_entries_iff {k : κ} {v : α} {d : Dict κ α} :
    (⟨k, v⟩ : Sigma fun _ : κ => α) ∈ d.entries ↔ d.lookup k = some v :=
  AList.mem_lookup_iff.symm

/-- Membership is having a value. -/
theorem mem_iff_exists_lookup {k : κ} {d : Dict κ α} :
    k ∈ d ↔ ∃ v, d.lookup k = some v := by
  rw [← AList.lookup_isSome, Option.isSome_iff_exists]

/-- **Lookup after an update in place.** -/
@[simp] theorem lookup_modify (k j : κ) (f : α → α) (d : Dict κ α) :
    (modify k f d).lookup j = if j = k then (d.lookup k).map f else d.lookup j := by
  have key : ∀ l : List (Sigma fun _ : κ => α),
      (l.map fun e => (⟨e.1, if e.1 = k then f e.2 else e.2⟩ : Sigma fun _ : κ => α)).dlookup j
        = if j = k then (l.dlookup k).map f else l.dlookup j := by
    intro l
    induction l with
    | nil => simp
    | cons e l ih =>
      obtain ⟨i, u⟩ := e
      by_cases hij : j = i
      · subst hij
        by_cases hjk : j = k
        · subst hjk; simp
        · simp [hjk]
      · rw [List.map_cons, List.dlookup_cons_ne _ ⟨i, _⟩ hij, ih]
        by_cases hjk : j = k
        · subst hjk
          simp [List.dlookup_cons_ne l ⟨i, u⟩ hij]
        · simp [hjk, List.dlookup_cons_ne l ⟨i, u⟩ hij]
  exact key d.entries

@[simp] theorem keys_modify (k : κ) (f : α → α) (d : Dict κ α) :
    (modify k f d).keys = d.keys := by
  simp [modify, AList.keys, List.keys, Function.comp_def]

@[simp] theorem mem_modify (k j : κ) (f : α → α) (d : Dict κ α) :
    j ∈ modify k f d ↔ j ∈ d := by
  rw [AList.mem_keys, keys_modify, ← AList.mem_keys]

/-- Two updates of one value are one. -/
theorem modify_modify (k : κ) (f g : α → α) (d : Dict κ α) :
    modify k g (modify k f d) = modify k (g ∘ f) d := by
  apply AList.ext
  refine (List.map_map ..).trans (List.map_congr_left fun e _ => ?_)
  by_cases he : e.1 = k <;> simp [he]

/-- An update that fixes the present value changes nothing. -/
theorem modify_of_fixed {k : κ} {f : α → α} {d : Dict κ α}
    (h : ∀ v, d.lookup k = some v → f v = v) : modify k f d = d := by
  apply AList.ext
  refine (List.map_congr_left fun e he => ?_).trans (List.map_id d.entries)
  obtain ⟨j, v⟩ := e
  by_cases hj : j = k
  · subst hj
    simp [h v (mem_entries_iff.mp he)]
  · simp [hj]

/-- **Lookup after an assignment.** -/
@[simp] theorem lookup_set (k j : κ) (v : α) (d : Dict κ α) :
    (set k v d).lookup j = if j = k then some v else d.lookup j := by
  unfold set
  by_cases hk : k ∈ d.keys
  · rw [if_pos hk, lookup_modify]
    obtain ⟨u, hu⟩ := mem_iff_exists_lookup.mp (AList.mem_keys.mpr hk)
    rw [hu, Option.map_some]
  · rw [if_neg hk]
    have hk' : k ∉ d := fun h => hk (AList.mem_keys.mp h)
    by_cases hj : j = k
    · subst hj
      rw [AList.lookup_union_right hk', if_pos rfl]
      simp [AList.lookup, AList.singleton]
    · rw [if_neg hj]
      by_cases hjd : j ∈ d
      · rw [AList.lookup_union_left hjd]
      · rw [AList.lookup_union_right hjd, AList.lookup_eq_none.mpr hjd]
        simp [AList.lookup, AList.singleton, hj]

/-- Assigning the present value changes nothing. -/
theorem set_of_lookup {k : κ} {v : α} {d : Dict κ α} (h : d.lookup k = some v) :
    set k v d = d := by
  have hk : k ∈ d.keys := AList.mem_keys.mp (mem_iff_exists_lookup.mpr ⟨v, h⟩)
  rw [set, if_pos hk]
  apply modify_of_fixed
  intro u hu
  exact Option.some.inj (h.symm.trans hu)

@[simp] theorem mem_set (k j : κ) (v : α) (d : Dict κ α) :
    j ∈ set k v d ↔ j = k ∨ j ∈ d := by
  rw [mem_iff_exists_lookup, mem_iff_exists_lookup, lookup_set]
  by_cases hj : j = k <;> simp [hj]

/-- **Lookup after a deletion.** -/
@[simp] theorem lookup_erase (k j : κ) (d : Dict κ α) :
    (d.erase k).lookup j = if j = k then none else d.lookup j := by
  by_cases hj : j = k
  · subst hj
    simp
  · rw [AList.lookup_erase_ne hj, if_neg hj]

/-- A new key comes last. -/
theorem entries_set_of_not_mem {k : κ} {v : α} {d : Dict κ α} (h : k ∉ d.keys) :
    (set k v d).entries = d.entries ++ [⟨k, v⟩] := by
  have key : ∀ l : List (Sigma fun _ : κ => α), k ∉ l.keys →
      l.kunion [⟨k, v⟩] = l ++ [⟨k, v⟩] := by
    intro l hl
    induction l with
    | nil => rfl
    | cons e l ih =>
      rw [List.keys_cons, List.mem_cons, not_or] at hl
      have hk : List.kerase e.1 [(⟨k, v⟩ : Sigma fun _ : κ => α)] = [⟨k, v⟩] :=
        List.kerase_of_notMem_keys (by simpa using Ne.symm hl.1)
      rw [List.kunion_cons, hk, ih hl.2, List.cons_append]
  unfold set
  rw [if_neg h, AList.union_entries]
  exact key d.entries h

/-- Where an assignment cannot be seen, the keys are the same. -/
theorem filter_keys_set {k : κ} {p : κ → Bool} (h : p k = false) (v : α) (d : Dict κ α) :
    (set k v d).keys.filter p = d.keys.filter p := by
  by_cases hk : k ∈ d.keys
  · unfold set
    rw [if_pos hk, keys_modify]
  · have hkeys : (set k v d).keys = d.keys ++ [k] := by
      show (set k v d).entries.keys = d.entries.keys ++ [k]
      rw [entries_set_of_not_mem hk, List.keys, List.map_append]
      rfl
    rw [hkeys, List.filter_append, List.filter_cons_of_neg (by simp [h]), List.filter_nil,
      List.append_nil]

end Dict
