import Mathlib.Data.List.Nodup
import Mathlib.Data.List.Perm.Basic

/-!
# Insertion-ordered maps

A finite map with the iteration order of a linked hash map: a key that is present keeps its place when it is put
again, a new key goes to the end. The key list carries its own distinctness, so `get` and membership in `entries`
are two readings of one relation (`get_eq_some_iff`), and every later lemma is stated on `get`.
-/

namespace FlowDemo

/-- A finite map from `κ` to `ν` in insertion order. -/
structure LinkedMap (κ ν : Type*) where
  entries : List (κ × ν)
  nodup : (entries.map Prod.fst).Nodup

namespace LinkedMap

variable {κ ν : Type*}

instance : EmptyCollection (LinkedMap κ ν) := ⟨⟨[], List.nodup_nil⟩⟩

instance : Inhabited (LinkedMap κ ν) := ⟨∅⟩

def keys (m : LinkedMap κ ν) : List κ := m.entries.map Prod.fst

def values (m : LinkedMap κ ν) : List ν := m.entries.map Prod.snd

theorem keys_filterMap_sublist (f : ν → Option ν) (l : List (κ × ν)) :
    ((l.filterMap fun e => (f e.2).map (e.1, ·)).map Prod.fst).Sublist (l.map Prod.fst) := by
  induction l with
  | nil => exact List.Sublist.slnil
  | cons e rest ih =>
      cases h : f e.2 with
      | none => simpa [List.filterMap_cons, h] using ih.cons e.1
      | some v => simpa [List.filterMap_cons, h] using ih.cons_cons e.1

variable [DecidableEq κ]

def get (m : LinkedMap κ ν) (k : κ) : Option ν := (m.entries.find? fun e => e.1 = k).map Prod.snd

/-- Overwrite the entry of `k` in place, or append one. -/
def putEntry (k : κ) (v : ν) : List (κ × ν) → List (κ × ν)
  | [] => [(k, v)]
  | e :: rest => if e.1 = k then (k, v) :: rest else e :: putEntry k v rest

theorem mem_keys_putEntry (k : κ) (v : ν) (l : List (κ × ν)) (k' : κ) :
    k' ∈ (putEntry k v l).map Prod.fst ↔ k' = k ∨ k' ∈ l.map Prod.fst := by
  induction l with
  | nil => simp [putEntry]
  | cons e rest ih =>
      unfold putEntry
      split
      · next he => simp [he]
      · rw [List.map_cons, List.mem_cons, ih, List.map_cons, List.mem_cons]
        tauto

theorem nodup_putEntry (k : κ) (v : ν) (l : List (κ × ν)) (hl : (l.map Prod.fst).Nodup) :
    ((putEntry k v l).map Prod.fst).Nodup := by
  induction l with
  | nil => simp [putEntry]
  | cons e rest ih =>
      rw [List.map_cons, List.nodup_cons] at hl
      unfold putEntry
      split
      · next he =>
          rw [List.map_cons, List.nodup_cons, ← he]
          exact hl
      · next he =>
          rw [List.map_cons, List.nodup_cons, mem_keys_putEntry]
          exact ⟨fun h => h.elim he hl.1, ih hl.2⟩

theorem putEntry_of_not_mem {k : κ} {v : ν} {l : List (κ × ν)} (h : k ∉ l.map Prod.fst) :
    putEntry k v l = l ++ [(k, v)] := by
  induction l with
  | nil => rfl
  | cons e rest ih =>
      rw [List.map_cons, List.mem_cons, not_or] at h
      rw [putEntry, if_neg (Ne.symm h.1), ih h.2, List.cons_append]

def put (m : LinkedMap κ ν) (k : κ) (v : ν) : LinkedMap κ ν :=
  ⟨putEntry k v m.entries, nodup_putEntry k v m.entries m.nodup⟩

def remove (m : LinkedMap κ ν) (k : κ) : LinkedMap κ ν :=
  ⟨m.entries.filter fun e => e.1 ≠ k, m.nodup.sublist (List.filter_sublist.map Prod.fst)⟩

/-- Rewrite every value, dropping the entries that become `none`. -/
def filterMapValues (m : LinkedMap κ ν) (f : ν → Option ν) : LinkedMap κ ν :=
  ⟨m.entries.filterMap fun e => (f e.2).map (e.1, ·), m.nodup.sublist (keys_filterMap_sublist f m.entries)⟩

/-! ## Reading -/

theorem get_eq_some_iff (m : LinkedMap κ ν) (k : κ) (v : ν) : m.get k = some v ↔ (k, v) ∈ m.entries := by
  obtain ⟨l, hl⟩ := m
  unfold get
  induction l with
  | nil => simp
  | cons e rest ih =>
      rw [List.map_cons, List.nodup_cons] at hl
      rw [List.find?_cons]
      by_cases he : e.1 = k
      · have hk : (k, v) ∉ rest := fun h => hl.1 (by rw [he]; exact List.mem_map_of_mem h)
        simp only [he, decide_true, Option.map_some, Option.some.injEq, List.mem_cons, hk, or_false]
        rw [Prod.ext_iff]
        exact ⟨fun h => ⟨he.symm, h.symm⟩, fun h => h.2.symm⟩
      · have hne : (k, v) ≠ e := fun h => he (by rw [← h])
        simp only [he, decide_false, List.mem_cons, hne, false_or]
        exact ih hl.2

theorem mem_values_iff (m : LinkedMap κ ν) (v : ν) : v ∈ m.values ↔ ∃ k, m.get k = some v := by
  simp only [values, List.mem_map, get_eq_some_iff, Prod.exists, exists_eq_right]

@[simp] theorem get_put_self (m : LinkedMap κ ν) (k : κ) (v : ν) : (m.put k v).get k = some v := by
  have key : ∀ l : List (κ × ν), (k, v) ∈ putEntry k v l := by
    intro l
    induction l with
    | nil => exact List.mem_singleton_self _
    | cons e rest ih =>
        unfold putEntry
        split
        · exact List.mem_cons_self
        · exact List.mem_cons_of_mem _ ih
  exact (get_eq_some_iff _ k v).mpr (key m.entries)

theorem get_put_of_ne (m : LinkedMap κ ν) {k k' : κ} (v : ν) (h : k' ≠ k) : (m.put k v).get k' = m.get k' := by
  have key : ∀ l : List (κ × ν), (putEntry k v l).find? (fun e => e.1 = k') = l.find? fun e => e.1 = k' := by
    intro l
    induction l with
    | nil => simp [putEntry, Ne.symm h]
    | cons e rest ih =>
        unfold putEntry
        split
        · next he => simp [he, Ne.symm h]
        · rw [List.find?_cons, List.find?_cons, ih]
  simp only [get, put, key]

theorem get_put (m : LinkedMap κ ν) (k k' : κ) (v : ν) :
    (m.put k v).get k' = if k' = k then some v else m.get k' := by
  split
  · next h => rw [h, get_put_self]
  · next h => exact get_put_of_ne m v h

theorem get_remove (m : LinkedMap κ ν) (k k' : κ) :
    (m.remove k).get k' = if k' = k then none else m.get k' := by
  apply Option.ext
  intro v
  rw [get_eq_some_iff, remove, List.mem_filter, decide_eq_true_eq]
  split
  · next h => simp [h]
  · next h => rw [get_eq_some_iff]; exact and_iff_left h

@[simp] theorem get_remove_self (m : LinkedMap κ ν) (k : κ) : (m.remove k).get k = none := by
  rw [get_remove, if_pos rfl]

theorem get_remove_of_ne (m : LinkedMap κ ν) {k k' : κ} (h : k' ≠ k) : (m.remove k).get k' = m.get k' := by
  rw [get_remove, if_neg h]

theorem get_filterMapValues (m : LinkedMap κ ν) (f : ν → Option ν) (k : κ) :
    (m.filterMapValues f).get k = (m.get k).bind f := by
  apply Option.ext
  intro v
  rw [get_eq_some_iff, filterMapValues, List.mem_filterMap, Option.bind_eq_some_iff]
  constructor
  · rintro ⟨⟨k', v'⟩, he, hf⟩
    rw [Option.map_eq_some_iff] at hf
    obtain ⟨w, hw, hkw⟩ := hf
    obtain ⟨rfl, rfl⟩ := Prod.mk.inj hkw
    exact ⟨v', (get_eq_some_iff m k' v').mpr he, hw⟩
  · rintro ⟨v', hv', hf⟩
    exact ⟨(k, v'), (get_eq_some_iff m k v').mp hv', by rw [hf]; rfl⟩

end LinkedMap

end FlowDemo
