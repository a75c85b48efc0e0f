import Mathlib.Data.List.Basic

/-!
# Overlays, of which one is remembered

Overlays are attached one after the other and numbered in that order. Only the last is remembered, and only what is
remembered can be taken off again.

* `Clears`: taking off the remembered overlay leaves none attached;
* `clears_attach`: a new overlay keeps that only if nothing was attached.
-/

namespace FlowDemo

/-- `attached` lists the overlays that are attached now, out of the `made` ones. -/
structure Overlays where
  made : Nat
  remembered : Option Nat
  attached : List Nat
  known : ∀ c ∈ attached, c < made

namespace Overlays

def empty : Overlays := ⟨0, none, [], fun _ h => absurd h List.not_mem_nil⟩

/-- A new overlay is attached and remembered instead of the last. -/
def attach (o : Overlays) : Overlays where
  made := o.made + 1
  remembered := some o.made
  attached := o.attached ++ [o.made]
  known := by
    intro c hc
    rcases List.mem_append.mp hc with hc | hc
    · exact Nat.lt_succ_of_lt (o.known c hc)
    · rw [List.mem_singleton.mp hc]
      exact Nat.lt_succ_self _

/-- The remembered overlay is taken off, if it still is attached. -/
def detach (o : Overlays) : Overlays where
  made := o.made
  remembered := o.remembered
  attached := o.attached.filter fun c => o.remembered ≠ some c
  known := fun c hc => o.known c (List.mem_of_mem_filter hc)

def forget (o : Overlays) : Overlays := { o with remembered := none }

/-- **Nothing but what is remembered is attached.** -/
def Clears (o : Overlays) : Prop := o.detach.attached = []

variable {o : Overlays}

theorem clears_of_attached (h : o.attached = []) : o.Clears := by
  change o.attached.filter _ = []
  rw [h, List.filter_nil]

theorem clears_attach (o : Overlays) : o.attach.Clears ↔ o.attached = [] := by
  have hold : o.attached.filter (fun c => some o.made ≠ some c) = o.attached := by
    rw [List.filter_eq_self]
    intro c hc
    have hlt := o.known c hc
    exact decide_eq_true fun heq => Nat.ne_of_gt hlt (Option.some.inj heq)
  change (o.attached ++ [o.made]).filter (fun c => some o.made ≠ some c) = [] ↔ _
  rw [List.filter_append, hold]
  simp

theorem Clears.detach (h : o.Clears) : o.detach.Clears := clears_of_attached h

end Overlays

end FlowDemo
