import Mathlib.Data.List.Destutter
import FlowDemo.Lib.Machine

/-!
# Change-only reporters

A reporter remembers the last key it was offered and reports a key, under an encoding, only when it differs from the
remembered one.

* `run_last`, `run_reports`: what it remembers is the last key offered, and what it reported is the encoding of the
  keys with repetitions in a row removed;
* `getLast?_reports`: the last report is of the last key offered;
* `isChain_reports`: no two reports in a row are equal, where the encoding tells the offered keys apart;
* `Sampling`: a value that changes, each change followed by a sample some time later, and what is reported of it.
-/

namespace FlowDemo

/-! ## Removing repetitions, from the end -/

section

variable {κ : Type*} [DecidableEq κ]

theorem destutter'_concat (a : κ) (ks : List κ) (k : κ) :
    (ks ++ [k]).destutter' (· ≠ ·) a =
      if (a :: ks).getLast? = some k then ks.destutter' (· ≠ ·) a else ks.destutter' (· ≠ ·) a ++ [k] := by
  induction ks generalizing a with
  | nil => by_cases h : a = k <;> simp [h]
  | cons b ks ih =>
      by_cases hab : a = b
      · subst hab
        rw [List.cons_append, List.destutter'_cons_neg _ (by simp), List.destutter'_cons_neg _ (by simp), ih a,
          List.getLast?_cons_cons]
      · rw [List.cons_append, List.destutter'_cons_pos _ hab, List.destutter'_cons_pos _ hab, ih b,
          List.getLast?_cons_cons]
        split
        · rfl
        · rfl

/-- A key put at the end stays exactly if it differs from the one before it. -/
theorem destutter_concat (ks : List κ) (k : κ) :
    (ks ++ [k]).destutter (· ≠ ·) =
      if ks.getLast? = some k then ks.destutter (· ≠ ·) else ks.destutter (· ≠ ·) ++ [k] := by
  cases ks with
  | nil => simp
  | cons a ks => exact destutter'_concat a ks k

theorem getLast?_destutter (ks : List κ) : (ks.destutter (· ≠ ·)).getLast? = ks.getLast? := by
  induction ks using List.reverseRecOn with
  | nil => rfl
  | append_singleton ks k ih =>
      rw [destutter_concat]
      split
      · next h => rw [ih, h, List.getLast?_concat]
      · rw [List.getLast?_concat, List.getLast?_concat]

end

/-! ## Reporters -/

structure Reporter (κ ρ : Type*) where
  last : Option κ := none
  reports : List ρ := []

namespace Reporter

variable {κ ρ : Type*} [DecidableEq κ] (f : κ → ρ)

/-- Report `k`, unless it is the key remembered. -/
def offer (r : Reporter κ ρ) (k : κ) : Reporter κ ρ :=
  if r.last = some k then r else ⟨some k, r.reports ++ [f k]⟩

/-- A reporter that was offered the keys `ks`. -/
def run (ks : List κ) : Reporter κ ρ := ks.foldl (offer f) {}

@[simp] theorem run_nil : run f [] = {} := rfl

@[simp] theorem run_concat (ks : List κ) (k : κ) : run f (ks ++ [k]) = (run f ks).offer f k := List.foldl_concat ..

@[simp] theorem offer_last (r : Reporter κ ρ) (k : κ) : (r.offer f k).last = some k := by
  rw [offer]
  split
  · next h => exact h
  · rfl

theorem run_last (ks : List κ) : (run f ks).last = ks.getLast? := by
  induction ks using List.reverseRecOn with
  | nil => rfl
  | append_singleton ks k => rw [run_concat, offer_last, List.getLast?_concat]

/-- **What is reported are the changes.** -/
theorem run_reports (ks : List κ) : (run f ks).reports = (ks.destutter (· ≠ ·)).map f := by
  induction ks using List.reverseRecOn with
  | nil => rfl
  | append_singleton ks k ih =>
      rw [run_concat, offer, run_last, destutter_concat]
      split
      · exact ih
      · rw [ih, List.map_append, List.map_singleton]

/-- The last report is of the last key offered. -/
theorem getLast?_reports (ks : List κ) : (run f ks).reports.getLast? = ks.getLast?.map f := by
  rw [run_reports, List.getLast?_map, getLast?_destutter]

theorem getLast?_reports_eq_last (ks : List κ) : (run f ks).reports.getLast? = (run f ks).last.map f := by
  rw [getLast?_reports, run_last]

theorem mem_reports {ks : List κ} {x : ρ} (h : x ∈ (run f ks).reports) : ∃ k ∈ ks, f k = x := by
  rw [run_reports, List.mem_map] at h
  obtain ⟨k, hk, hx⟩ := h
  exact ⟨k, (List.destutter_sublist _ ks).subset hk, hx⟩

/-- No two reports in a row are equal, where the encoding tells the offered keys apart. -/
theorem isChain_reports {ks : List κ} (hf : ∀ a ∈ ks, ∀ b ∈ ks, f a = f b → a = b) :
    (run f ks).reports.IsChain (· ≠ ·) := by
  have hsub := (List.destutter_sublist (· ≠ ·) ks).subset
  rw [run_reports, List.isChain_map]
  apply (List.isChain_destutter (· ≠ ·) ks).imp_of_mem_imp
  intro a b ha hb hne heq
  exact hne (hf a (hsub ha) b (hsub hb) heq)

/-! ### Reporters in use -/

/-- The reporter was offered keys that meet `P`, and no others. -/
def Offered (P : κ → Prop) (r : Reporter κ ρ) : Prop := ∃ ks, (∀ k ∈ ks, P k) ∧ r = run f ks

/-- `r` was offered keys that meet `P`, and no others, and is `r'` now. -/
def Fed (P : κ → Prop) (r r' : Reporter κ ρ) : Prop := ∃ ks : List κ, (∀ k ∈ ks, P k) ∧ r' = ks.foldl (offer f) r

section

variable {f} {P : κ → Prop} {r : Reporter κ ρ}

theorem Fed.refl : Fed f P r r := ⟨[], nofun, rfl⟩

theorem Fed.trans {r' r'' : Reporter κ ρ} (h : Fed f P r r') (h' : Fed f P r' r'') : Fed f P r r'' := by
  obtain ⟨ks, hks, rfl⟩ := h
  obtain ⟨ks', hks', rfl⟩ := h'
  exact ⟨ks ++ ks', List.forall_mem_append.mpr ⟨hks, hks'⟩, List.foldl_append.symm⟩

theorem fed_offer {k : κ} (hk : P k) : Fed f P r (r.offer f k) := ⟨[k], by simpa using hk, rfl⟩

theorem Fed.grows {r' : Reporter κ ρ} (h : Fed f P r r') : r.reports <+: r'.reports := by
  obtain ⟨ks, -, rfl⟩ := h
  induction ks generalizing r with
  | nil => exact List.prefix_rfl
  | cons k ks ih =>
      refine List.IsPrefix.trans ?_ ih
      rw [offer]
      split
      · exact List.prefix_rfl
      · exact List.prefix_append _ _

theorem offered_init : Offered f P {} := ⟨[], nofun, rfl⟩

theorem Offered.fed (h : Offered f P r) {r' : Reporter κ ρ} (h' : Fed f P r r') : Offered f P r' := by
  obtain ⟨ks, hks, rfl⟩ := h
  exact Fed.trans ⟨ks, hks, rfl⟩ h'

theorem Offered.getLast?_eq (h : Offered f P r) : r.reports.getLast? = r.last.map f := by
  obtain ⟨ks, -, rfl⟩ := h
  exact getLast?_reports_eq_last f ks

theorem Offered.mem (h : Offered f P r) {x : ρ} (hx : x ∈ r.reports) : ∃ k, P k ∧ f k = x := by
  obtain ⟨ks, hks, rfl⟩ := h
  obtain ⟨k, hk, heq⟩ := mem_reports f hx
  exact ⟨k, hks k hk, heq⟩

theorem Offered.isChain (h : Offered f P r) (hf : ∀ a b, P a → P b → f a = f b → a = b) :
    r.reports.IsChain (· ≠ ·) := by
  obtain ⟨ks, hks, rfl⟩ := h
  exact isChain_reports f fun a ha b hb => hf a b (hks a ha) (hks b hb)

end

end Reporter

/-! ## Sampling a value that changes -/

namespace Sampling

/-- `pending` samples are due; each offers the value as it is then. -/
structure State (κ ρ : Type*) where
  current : κ
  changes : Nat := 0
  pending : Nat := 0
  reporter : Reporter κ ρ := {}

inductive Event (κ : Type*)
  | change (k : κ)
  | sample

variable {κ ρ : Type*} [DecidableEq κ] (f : κ → ρ)

def allowed (s : State κ ρ) : Event κ → Prop
  | .change _ => True
  | .sample => 0 < s.pending

def step (s : State κ ρ) : Event κ → State κ ρ
  | .change k => { s with current := k, changes := s.changes + 1, pending := s.pending + 1 }
  | .sample => { s with pending := s.pending - 1, reporter := s.reporter.offer f s.current }

def machine (k : κ) : Machine (State κ ρ) (Event κ) := ⟨{ current := k }, allowed, step f⟩

/-- What was offered are samples, and with none due the last of them is of the value as it is. -/
structure Inv (s : State κ ρ) : Prop where
  offered : ∃ ks, s.reporter = Reporter.run f ks
  recent : 0 < s.changes → s.pending = 0 → s.reporter.last = some s.current

theorem inv_init (k : κ) : Inv f (machine f k).init := ⟨⟨[], rfl⟩, fun h => absurd h (lt_irrefl 0)⟩

theorem inv_step {s : State κ ρ} (h : Inv f s) (e : Event κ) : Inv f (step f s e) := by
  cases e with
  | change k => exact ⟨h.offered, fun _ hp => absurd hp (Nat.succ_ne_zero _)⟩
  | sample =>
      obtain ⟨ks, hks⟩ := h.offered
      constructor
      · refine ⟨ks ++ [s.current], ?_⟩
        rw [Reporter.run_concat, ← hks]
        rfl
      · intro _ _
        exact Reporter.offer_last f s.reporter s.current

variable {f} {k : κ} {es : List (Event κ)} (h : (machine f k).Admits (machine f k).init es)

include h

theorem inv_run : Inv f ((machine f k).run (machine f k).init es) :=
  Machine.run_induction (M := machine f k) (I := Inv f) (fun _ e hs _ => inv_step f hs e) (inv_init f k) h

/-- **With no sample due, the last report is of the value as it is**, once it has changed. -/
theorem getLast?_reports (hchanges : 0 < ((machine f k).run (machine f k).init es).changes)
    (hpending : ((machine f k).run (machine f k).init es).pending = 0) :
    ((machine f k).run (machine f k).init es).reporter.reports.getLast? =
      some (f ((machine f k).run (machine f k).init es).current) := by
  have hinv := inv_run h
  obtain ⟨ks, hks⟩ := hinv.offered
  have hlast := hinv.recent hchanges hpending
  rw [hks] at hlast ⊢
  rw [Reporter.getLast?_reports_eq_last, hlast, Option.map_some]

/-- **The reports alternate**, where the encoding tells the values apart. -/
theorem isChain_reports (hf : Function.Injective f) :
    ((machine f k).run (machine f k).init es).reporter.reports.IsChain (· ≠ ·) := by
  obtain ⟨ks, hks⟩ := (inv_run h).offered
  rw [hks]
  exact Reporter.isChain_reports f fun _ _ _ _ heq => hf heq

end Sampling

end FlowDemo
