import FlowDemo.Lib.LinkedMap

/-!
# Subscriptions that mirror a table

The entries of a table each run an effect, which makes one subscription or none; when an entry changes or goes, its
subscription is taken away first, and the effect of the new entry runs. The subscriptions lie in one list, in the order
in which they were made.

* `Synced`: the list has the subscriptions of the table's effects, one each;
* `Synced.cleanup`, `Synced.rerun`: an entry goes, or changes;
* `Synced.filter_owner`: what the list has for one key.
-/

namespace FlowDemo

/-- Effects of entries `α`, which make subscriptions `β` that know their key. -/
structure Effects (κ α β : Type*) where
  owner : β → κ
  run : κ → α → Option β
  owner_run : ∀ {k a b}, run k a = some b → owner b = k

namespace Effects

variable {κ α β : Type*} [DecidableEq κ] (E : Effects κ α β)

/-- **The subscriptions are those of the effects**, one each. -/
structure Synced (m : LinkedMap κ α) (l : List β) : Prop where
  owned : ∀ b ∈ l, ∃ a, m.get (E.owner b) = some a ∧ E.run (E.owner b) a = some b
  subscribed : ∀ k a b, m.get k = some a → E.run k a = some b → b ∈ l
  nodup : (l.map E.owner).Nodup

theorem synced_empty : E.Synced ∅ [] := ⟨nofun, nofun, List.nodup_nil⟩

namespace Synced

variable {E} {m m' : LinkedMap κ α} {l : List β} {k : κ}

/-- The entry of `k` goes, and its subscription with it. -/
theorem cleanup (h : E.Synced m l) (hother : ∀ k' ≠ k, m'.get k' = m.get k') (hk : m'.get k = none) :
    E.Synced m' (l.filter fun b => E.owner b ≠ k) := by
  refine ⟨fun b hb => ?_, fun k' a b ha hb => ?_, h.nodup.sublist (List.filter_sublist.map E.owner)⟩
  · obtain ⟨hmem, hne⟩ := List.mem_filter.mp hb
    rw [hother _ (of_decide_eq_true hne)]
    exact h.owned b hmem
  · have hne : k' ≠ k := by
      rintro rfl
      rw [hk] at ha
      cases ha
    rw [hother k' hne] at ha
    refine List.mem_filter.mpr ⟨h.subscribed k' a b ha hb, ?_⟩
    rw [E.owner_run hb]
    exact decide_eq_true hne

/-- The entry of `k` is another one: its subscription goes, and the new effect runs. -/
theorem rerun (h : E.Synced m l) {a : α} (hother : ∀ k' ≠ k, m'.get k' = m.get k') (hk : m'.get k = some a) :
    E.Synced m' ((l.filter fun b => E.owner b ≠ k) ++ (E.run k a).toList) := by
  refine ⟨fun b hb => ?_, fun k' a' b ha hb => ?_, ?_⟩
  · rcases List.mem_append.mp hb with hb | hb
    · obtain ⟨hmem, hne⟩ := List.mem_filter.mp hb
      rw [hother _ (of_decide_eq_true hne)]
      exact h.owned b hmem
    · have hrun := Option.mem_toList.mp hb
      rw [E.owner_run hrun]
      exact ⟨a, hk, hrun⟩
  · by_cases hne : k' = k
    · subst hne
      obtain rfl := Option.some.inj (hk.symm.trans ha)
      exact List.mem_append_right _ (Option.mem_toList.mpr hb)
    · rw [hother k' hne] at ha
      refine List.mem_append_left _ (List.mem_filter.mpr ⟨h.subscribed k' a' b ha hb, ?_⟩)
      rw [E.owner_run hb]
      exact decide_eq_true hne
  · have hold : ((l.filter fun b => E.owner b ≠ k).map E.owner).Nodup :=
      h.nodup.sublist (List.filter_sublist.map E.owner)
    cases hrun : E.run k a with
    | none => simpa using hold
    | some b =>
        rw [Option.toList_some, List.map_append, List.map_singleton, ← List.concat_eq_append]
        refine List.Nodup.concat (fun hin => ?_) hold
        obtain ⟨other, hother, heq⟩ := List.mem_map.mp hin
        exact of_decide_eq_true (List.mem_filter.mp hother).2 (heq.trans (E.owner_run hrun))

theorem filter_owner_ne (h : E.Synced m l) (hk : m.get k = none) : (l.filter fun b => E.owner b ≠ k) = l := by
  refine List.filter_eq_self.mpr fun b hb => decide_eq_true ?_
  rintro rfl
  obtain ⟨a, ha, -⟩ := h.owned b hb
  rw [hk] at ha
  cases ha

/-- A new entry runs its effect. -/
theorem add (h : E.Synced m l) (hk : m.get k = none) (a : α) : E.Synced (m.put k a) (l ++ (E.run k a).toList) := by
  have hrerun := h.rerun (fun k' hne => m.get_put_of_ne a hne) (m.get_put_self k a)
  rwa [h.filter_owner_ne hk] at hrerun

end Synced

theorem filter_eq_singleton {l : List β} (hl : l.Nodup) {b : β} (hb : b ∈ l) {q : β → Bool}
    (hq : ∀ b' ∈ l, q b' = true ↔ b' = b) : l.filter q = [b] := by
  have hnd : (l.filter q).Nodup := hl.sublist List.filter_sublist
  have hmem : ∀ b', b' ∈ l.filter q ↔ b' = b := by
    intro b'
    rw [List.mem_filter]
    constructor
    · exact fun h => (hq b' h.1).mp h.2
    · rintro rfl
      exact ⟨hb, (hq b' hb).mpr rfl⟩
  exact List.perm_singleton.mp ((List.perm_ext_iff_of_nodup hnd (List.nodup_singleton b)).mpr (by simpa using hmem))

/-- **The subscription of a key** is that of its entry's effect. -/
theorem Synced.filter_owner {E : Effects κ α β} {m : LinkedMap κ α} {l : List β} (h : E.Synced m l) (k : κ) :
    (l.filter fun b => E.owner b = k) = ((m.get k).bind (E.run k)).toList := by
  cases hrun : (m.get k).bind (E.run k) with
  | none =>
      rw [Option.toList_none, List.filter_eq_nil_iff]
      rintro b hb heq
      obtain rfl := of_decide_eq_true heq
      obtain ⟨a, ha, hb'⟩ := h.owned b hb
      rw [ha, Option.bind_some, hb'] at hrun
      cases hrun
  | some b =>
      obtain ⟨a, ha, hb⟩ := Option.bind_eq_some_iff.mp hrun
      refine filter_eq_singleton (List.Nodup.of_map _ h.nodup) (h.subscribed k a b ha hb) fun b' hb' => ?_
      rw [decide_eq_true_eq]
      constructor
      · rintro rfl
        obtain ⟨a', ha', hrun'⟩ := h.owned b' hb'
        obtain rfl := Option.some.inj (ha.symm.trans ha')
        exact Option.some.inj (hrun'.symm.trans hb)
      · rintro rfl
        exact E.owner_run hb

end Effects

end FlowDemo
