import FlowDemo.Js.Listeners
import FlowDemo.Js.Value

/-!
# What the submit listeners answer

A component's effect subscribes a listener that has the component's `handleSubmit` in its closure. The listener is an
`async` function: it calls the handler, waits for its promise inside a `try` block and answers by
`handleSubmitResponse`; the `catch` block answers too. Handlers change and components unmount while earlier calls are
still waiting.

* `handleSubmitListener_run`: once the promise has settled, a listener sends one answer, whatever it settled with;
* `called_filter`: the calls of one event;
* `answers_once`: what every run keeps.
-/

namespace FlowDemo.Js.Answers

/-- A `handleSubmit` function, by identity. -/
abbrev Handler := Nat

/-- A thrown value: an instance of `Error` with its `message`, or anything else. -/
inductive Thrown
  | error (message : Value)
  | other

/-- What the listener reads of the handler's result, each of which may throw: `result.success`, what
`...result.data` spreads, and `result.error`. On `undefined` and `null` all three throw. -/
structure Result where
  success : Except Thrown Value
  data : Except Thrown Object
  error : Except Thrown Value

inductive Settlement
  | fulfilled (result : Result)
  | rejected (error : Thrown)

structure Response where
  nativeModule : String
  requestId : String
  success : Value
  data : Object

/-- A call of a handler by the listener of a component. -/
structure Invocation where
  component : ComponentId
  kind : ComponentKind
  handler : Handler
  requestId : String
  argument : SessionData
  deriving DecidableEq

/-- The native module whose `handleSubmitResponse` the listener of a kind calls. -/
def nativeModule : Platform → ComponentKind → String
  | .ios, _ => "ApplePayModule"
  | .android, .googlePay => "GooglePayModule"
  | .android, _ => "CardModule"

/-! ## The listener, from the settled promise on -/

/-- Code that may throw and that calls a native module; the calls themselves do not throw. -/
abbrev Listening := ExceptT Thrown (StateM (List Response))

def handleSubmitResponse (response : Response) : Listening Unit := modify (· ++ [response])

def read {α : Type} (x : Except Thrown α) : Listening α := ExceptT.mk (pure x)

/-- `await` -/
def awaited : Settlement → Listening Result
  | .fulfilled result => pure result
  | .rejected error => throw error

/-- `error instanceof Error ? error.message : 'Unknown error'` -/
def message : Thrown → Value
  | .error message => message
  | .other => some (.str "Unknown error")

/-- The `try` statement of a listener. The one of `ApplePayView.tsx` writes the result to the log first. -/
def handleSubmitListener (p : Platform) (inv : Invocation) (settlement : Settlement) : Listening Unit :=
  tryCatch
    (do
      let result ← awaited settlement
      if inv.kind = .applePay then
        let _ ← read result.success
        let _ ← read result.error
      let success ← read result.success
      let data ← read result.data
      let error ← read result.error
      handleSubmitResponse ⟨nativeModule p inv.kind, inv.requestId, success, data.assign "error" error⟩)
    fun error =>
      handleSubmitResponse ⟨nativeModule p inv.kind, inv.requestId, some (.bool false), [("error", message error)]⟩

/-- What the listener is to answer: the result as far as it can be read, `false` otherwise. -/
def answer (p : Platform) (inv : Invocation) (settlement : Settlement) : Response :=
  let failure : Thrown → Response := fun error =>
    ⟨nativeModule p inv.kind, inv.requestId, some (.bool false), [("error", message error)]⟩
  match settlement with
  | .rejected error => failure error
  | .fulfilled result => match inv.kind, result.success, result.data, result.error with
    | _, .ok success, .ok data, .ok error =>
        ⟨nativeModule p inv.kind, inv.requestId, success, data.assign "error" error⟩
    | _, .error error, _, _ => failure error
    | .applePay, .ok _, _, .error error => failure error
    | _, .ok _, .error error, _ => failure error
    | _, .ok _, .ok _, .error error => failure error

theorem handleSubmitListener_run (p : Platform) (inv : Invocation) (settlement : Settlement) (sent : List Response) :
    (handleSubmitListener p inv settlement).run.run sent = (.ok (), sent ++ [answer p inv settlement]) := by
  obtain ⟨k, kind, h, r, arg⟩ := inv
  cases settlement with
  | rejected error => rfl
  | fulfilled result =>
      obtain ⟨success, data, error⟩ := result
      cases kind <;> cases success <;> cases data <;> cases error <;> rfl

def Settlement.success : Settlement → Value
  | .fulfilled ⟨.ok success, .ok _, .ok _⟩ => success
  | _ => some (.bool false)

theorem answer_fields (p : Platform) (inv : Invocation) (settlement : Settlement) :
    (answer p inv settlement).requestId = inv.requestId ∧ (answer p inv settlement).success = settlement.success := by
  obtain ⟨k, kind, h, r, arg⟩ := inv
  cases settlement with
  | rejected error => exact ⟨rfl, rfl⟩
  | fulfilled result =>
      obtain ⟨success, data, error⟩ := result
      cases kind <;> cases success <;> cases data <;> cases error <;> exact ⟨rfl, rfl⟩

/-- All iOS listeners share one native module; on Android the kinds have their own. -/
theorem answer_nativeModule (p : Platform) (inv : Invocation) (settlement : Settlement) :
    (p = .ios → (answer p inv settlement).nativeModule = "ApplePayModule") ∧
      (p = .android → inv.kind = .googlePay → (answer p inv settlement).nativeModule = "GooglePayModule") ∧
      (p = .android → inv.kind = .card → (answer p inv settlement).nativeModule = "CardModule") := by
  have hmodule : (answer p inv settlement).nativeModule = nativeModule p inv.kind := by
    obtain ⟨k, kind, h, r, arg⟩ := inv
    cases settlement with
    | rejected error => rfl
    | fulfilled result =>
        obtain ⟨success, data, error⟩ := result
        cases kind <;> cases success <;> cases data <;> cases error <;> rfl
  rw [hmodule]
  refine ⟨?_, ?_, ?_⟩
  · rintro rfl
    rfl
  · rintro rfl hkind
    rw [hkind]
    rfl
  · rintro rfl hkind
    rw [hkind]
    rfl

/-! ## Components, handlers and calls -/

/-- A mounted component: its kind and the `handleSubmit` of its last render, if it was given one. -/
structure Mounted where
  kind : ComponentKind
  handler : Option Handler
  deriving DecidableEq

/-- A subscription with the kind of its component and the handler in its closure. -/
structure Listener where
  subscription : Subscription
  kind : ComponentKind
  handler : Handler
  deriving DecidableEq

/-- The call of the handler, with the session data of the event. -/
def Listener.call (l : Listener) (e : SubmitEvent) : Invocation :=
  ⟨l.subscription.owner, l.kind, l.handler, e.sessionData.requestId,
    { id := e.sessionData.id, secret := e.sessionData.secret, sessionData := e.sessionData.sessionData }⟩

/-- What the effect of `k` subscribes, if it does. -/
def effect (p : Platform) (k : ComponentId) (m : Mounted) : Option Listener :=
  match m.handler, handleSubmitEffect p m.kind k with
  | some handler, some subscription => some ⟨subscription, m.kind, handler⟩
  | _, _ => none

/-- The mounted components, the listeners, the events delivered, each with the components mounted then, the handler
calls in order, how those settled whose promise has, and the answers sent, each with the number of its call. -/
structure State where
  mounted : LinkedMap ComponentId Mounted := ∅
  listeners : List Listener := []
  delivered : List (SubmitEvent × LinkedMap ComponentId Mounted) := []
  invocations : List Invocation := []
  settled : List (Nat × Settlement) := []
  responses : List (Nat × Response) := []

inductive Event
  | mount (k : ComponentId) (m : Mounted)
  | render (k : ComponentId) (handler : Option Handler)
  | unmount (k : ComponentId)
  | deliver (e : SubmitEvent)
  | settle (n : Nat) (settlement : Settlement)

namespace State

/-- `subscription.remove()` -/
def unsubscribe (s : State) (k : ComponentId) : State :=
  { s with listeners := s.listeners.filter fun l => l.subscription.owner ≠ k }

def subscribe (s : State) (p : Platform) (k : ComponentId) (m : Mounted) : State :=
  { s with listeners := s.listeners ++ (effect p k m).toList }

def mount (s : State) (p : Platform) (k : ComponentId) (m : Mounted) : State :=
  { s with mounted := s.mounted.put k m }.subscribe p k m

/-- A render cleans the effect up and runs it again if the handler is another one. -/
def render (s : State) (p : Platform) (k : ComponentId) (handler : Option Handler) : State :=
  match s.mounted.get k with
  | none => s
  | some m =>
      if m.handler = handler then s
      else ({ s with mounted := s.mounted.put k { m with handler := handler } }.unsubscribe k).subscribe p k
        { m with handler := handler }

def unmount (s : State) (k : ComponentId) : State := { s with mounted := s.mounted.remove k }.unsubscribe k

def called (s : State) (e : SubmitEvent) : List Invocation :=
  (s.listeners.filter fun l => l.subscription.receives e).map fun l => l.call e

def deliver (s : State) (e : SubmitEvent) : State :=
  { s with delivered := s.delivered ++ [(e, s.mounted)], invocations := s.invocations ++ s.called e }

/-- The promise of call `n` settles, and its listener goes on to its end. -/
def settle (s : State) (p : Platform) (n : Nat) (settlement : Settlement) : State :=
  match s.invocations[n]? with
  | none => s
  | some inv => { s with
      settled := s.settled ++ [(n, settlement)]
      responses := s.responses ++ ((handleSubmitListener p inv settlement).run.run []).2.map fun r => (n, r) }

def responsesTo (s : State) (n : Nat) : List Response := (s.responses.filter fun x => x.1 = n).map Prod.snd

def settlement (s : State) (n : Nat) : Option Settlement := s.settled.lookup n

end State

/-- A promise settles once. -/
def machine (p : Platform) : Machine State Event where
  init := {}
  allowed s e := match e with
    | .mount k _ => s.mounted.get k = none
    | .settle n _ => n < s.invocations.length ∧ n ∉ s.settled.map Prod.fst
    | _ => True
  step s e := match e with
    | .mount k m => s.mount p k m
    | .render k handler => s.render p k handler
    | .unmount k => s.unmount k
    | .deliver e => s.deliver e
    | .settle n settlement => s.settle p n settlement

/-! ## The property -/

/-- The listener of a component of this kind gets past its checks: the event is its own, on iOS tagged with the kind. -/
def hears (p : Platform) (kind : ComponentKind) (e : SubmitEvent) : Bool :=
  match p, kind with
  | .ios, .card => e.name = "onHandleSubmit" && e.sessionData.component = some "card"
  | .ios, .applePay => e.name = "onHandleSubmit" && e.sessionData.component = some "applepay"
  | .android, .card => e.name = "onCardHandleSubmit"
  | .android, .googlePay => e.name = "onHandleSubmit"
  | .ios, .googlePay | .android, .applePay => false

/-- The call that `e` is to cause in component `k`: of its present handler, with the session data of the event. -/
def callOf (p : Platform) (k : ComponentId) (m : Mounted) (e : SubmitEvent) : Option Invocation :=
  if hears p m.kind e then m.handler.map fun handler => ⟨k, m.kind, handler, e.sessionData.requestId,
    { id := e.sessionData.id, secret := e.sessionData.secret, sessionData := e.sessionData.sessionData }⟩
  else none

/-- **Once each.** A component has one listener at most; each event delivered has called the handler that every
component hearing it had then, once, and no other; a call is answered once when its promise has settled and not
before, through the native module of its component. -/
structure AnswersOnce (p : Platform) (s : State) : Prop where
  oneListener : (s.listeners.map fun l => l.subscription.owner).Nodup
  calls : ∀ k, s.invocations.filter (fun inv => inv.component = k) =
    s.delivered.filterMap fun d => (d.2.get k).bind fun m => callOf p k m d.1
  answered : ∀ n inv settlement, s.invocations[n]? = some inv → s.settlement n = some settlement →
    ∃ response, s.responsesTo n = [response] ∧ response.requestId = inv.requestId ∧
      response.success = settlement.success ∧
      (p = .ios → response.nativeModule = "ApplePayModule") ∧
      (p = .android → inv.kind = .googlePay → response.nativeModule = "GooglePayModule") ∧
      (p = .android → inv.kind = .card → response.nativeModule = "CardModule")
  unanswered : ∀ n, s.settlement n = none → s.responsesTo n = []

def effects (p : Platform) : Effects ComponentId Mounted Listener where
  owner l := l.subscription.owner
  run := effect p
  owner_run {k m l} h := by
    unfold effect at h
    split at h
    · cases h
      exact handleSubmitEffect_owner ‹_›
    · cases h

/-- The listeners are those of the mounted components' effects, one each, each event has made its calls, and each
settled call has its answer. -/
structure Inv (p : Platform) (s : State) : Prop where
  synced : (effects p).Synced s.mounted s.listeners
  calls : ∀ k, s.invocations.filter (fun inv => inv.component = k) =
    s.delivered.filterMap fun d => (d.2.get k).bind fun m => callOf p k m d.1
  settled : (s.settled.map Prod.fst).Nodup
  known : ∀ x ∈ s.settled, x.1 < s.invocations.length
  responses : s.responses = s.settled.filterMap fun x => s.invocations[x.1]?.map fun inv => (x.1, answer p inv x.2)

section Steps

variable {p : Platform} {s : State}

/-- A step that touches neither the events nor the calls nor the answers. -/
theorem Inv.of_synced (h : Inv p s) {m : LinkedMap ComponentId Mounted} {l : List Listener}
    (hl : (effects p).Synced m l) : Inv p { s with mounted := m, listeners := l } :=
  ⟨hl, h.calls, h.settled, h.known, h.responses⟩

theorem inv_mount (h : Inv p s) {k : ComponentId} (hk : s.mounted.get k = none) (m : Mounted) :
    Inv p (s.mount p k m) :=
  h.of_synced (h.synced.add hk m)

theorem inv_render (h : Inv p s) (k : ComponentId) (handler : Option Handler) : Inv p (s.render p k handler) := by
  unfold State.render
  cases hk : s.mounted.get k with
  | none => exact h
  | some m =>
      dsimp only
      split
      · exact h
      · exact h.of_synced (h.synced.rerun (fun _ hne => LinkedMap.get_put_of_ne _ _ hne) (LinkedMap.get_put_self _ _ _))

theorem inv_unmount (h : Inv p s) (k : ComponentId) : Inv p (s.unmount k) :=
  h.of_synced
    (h.synced.cleanup (fun _ hne => LinkedMap.get_remove_of_ne _ hne) (LinkedMap.get_remove_self _ _))

theorem handleSubmitEffect_eq (p : Platform) (kind : ComponentKind) (k : ComponentId) :
    handleSubmitEffect p kind k = (handleSubmitEffect p kind 0).map fun subscription =>
      { subscription with owner := k } := by
  cases p <;> cases kind <;> rfl

/-- The checks are those of the subscription that the effect makes. -/
theorem hears_eq (p : Platform) (kind : ComponentKind) (e : SubmitEvent) :
    hears p kind e = (handleSubmitEffect p kind 0).any fun subscription => subscription.receives e := by
  cases p <;> cases kind <;> simp [hears, handleSubmitEffect, Subscription.receives, eq_comm]

theorem effect_call (p : Platform) (k : ComponentId) (m : Mounted) (e : SubmitEvent) :
    (((effect p k m).toList.filter fun l => l.subscription.receives e).map fun l => l.call e) =
      (callOf p k m e).toList := by
  obtain ⟨kind, handler⟩ := m
  cases handler with
  | none =>
      have hcall : callOf p k ⟨kind, none⟩ e = none := by
        unfold callOf
        split <;> rfl
      rw [hcall]
      rfl
  | some handler =>
      cases hsub : handleSubmitEffect p kind 0 with
      | none =>
          have heffect : effect p k ⟨kind, some handler⟩ = none := by
            simp only [effect, handleSubmitEffect_eq p kind k, hsub, Option.map_none]
          have hcall : callOf p k ⟨kind, some handler⟩ e = none := by
            simp only [callOf, hears_eq, hsub, Option.any_none, Bool.false_eq_true, if_false]
          rw [heffect, hcall]
          rfl
      | some subscription =>
          -- whether an event gets past the checks does not depend on the owner
          have heffect : effect p k ⟨kind, some handler⟩ =
              some ⟨{ subscription with owner := k }, kind, handler⟩ := by
            simp only [effect, handleSubmitEffect_eq p kind k, hsub, Option.map_some]
          have hhears : hears p kind e = subscription.receives e := by
            simp only [hears_eq, hsub, Option.any_some]
          rw [heffect, Option.toList_some, callOf, hhears]
          have howner : Subscription.receives { subscription with owner := k } e = subscription.receives e := rfl
          rw [List.filter_cons, howner]
          cases subscription.receives e <;> rfl

/-- **An event calls the present handler of every component that hears it**, once. -/
theorem called_filter (h : (effects p).Synced s.mounted s.listeners) (e : SubmitEvent) (k : ComponentId) :
    (s.called e).filter (fun inv => inv.component = k) = ((s.mounted.get k).bind fun m => callOf p k m e).toList := by
  calc (s.called e).filter (fun inv => inv.component = k)
      = ((s.listeners.filter fun l => (effects p).owner l = k).filter fun l => l.subscription.receives e).map
          fun l => l.call e := by
        unfold State.called
        rw [List.filter_map, List.filter_comm]
        rfl
    _ = ((((s.mounted.get k).bind (effect p k)).toList.filter fun l => l.subscription.receives e).map
          fun l => l.call e) := by
        rw [h.filter_owner k]
        rfl
    _ = ((s.mounted.get k).bind fun m => callOf p k m e).toList := by
        cases s.mounted.get k with
        | none => rfl
        | some m => exact effect_call p k m e

theorem inv_deliver (h : Inv p s) (e : SubmitEvent) : Inv p (s.deliver e) := by
  refine ⟨h.synced, fun k => ?_, h.settled, fun x hx => ?_, ?_⟩
  · change (s.invocations ++ s.called e).filter _ = (s.delivered ++ [(e, s.mounted)]).filterMap _
    rw [List.filter_append, List.filterMap_append, h.calls k, called_filter h.synced e k]
    congr 1
  · change x.1 < (s.invocations ++ s.called e).length
    rw [List.length_append]
    exact Nat.lt_add_right _ (h.known x hx)
  · change s.responses = _
    rw [h.responses]
    refine List.filterMap_congr fun x hx => ?_
    change _ = (s.invocations ++ s.called e)[x.1]?.map _
    rw [List.getElem?_append_left (h.known x hx)]

theorem inv_settle (h : Inv p s) {n : Nat} (hn : n < s.invocations.length) (hnew : n ∉ s.settled.map Prod.fst)
    (settlement : Settlement) : Inv p (s.settle p n settlement) := by
  have hinv : s.invocations[n]? = some s.invocations[n] := List.getElem?_eq_getElem hn
  unfold State.settle
  rw [hinv]
  refine ⟨h.synced, h.calls, ?_, fun x hx => ?_, ?_⟩
  · change ((s.settled ++ [(n, settlement)]).map Prod.fst).Nodup
    rw [List.map_append, List.map_singleton, ← List.concat_eq_append]
    exact List.Nodup.concat hnew h.settled
  · rcases List.mem_append.mp hx with hx | hx
    · exact h.known x hx
    · rw [List.mem_singleton.mp hx]
      exact hn
  · change s.responses ++ _ = (s.settled ++ [(n, settlement)]).filterMap _
    rw [List.filterMap_append, ← h.responses, handleSubmitListener_run]
    simp [hinv]

theorem inv_step (s : State) (e : Event) (h : Inv p s) (he : (machine p).allowed s e) :
    Inv p ((machine p).step s e) := by
  cases e with
  | mount k m => exact inv_mount h he m
  | render k handler => exact inv_render h k handler
  | unmount k => exact inv_unmount h k
  | deliver e => exact inv_deliver h e
  | settle n settlement => exact inv_settle h he.1 he.2 settlement

theorem inv_init : Inv p (machine p).init :=
  ⟨Effects.synced_empty _, fun _ => rfl, List.nodup_nil, nofun, rfl⟩

end Steps

/-! ## Answers -/

/-- Results listed under their keys, read at one key. -/
theorem filterMap_key_eq_lookup {α β : Type} (f : Nat → α → Option β) (n : Nat) {l : List (Nat × α)}
    (hl : (l.map Prod.fst).Nodup) :
    ((l.filterMap fun x => (f x.1 x.2).map fun b => (x.1, b)).filter fun y => y.1 = n).map Prod.snd =
      ((l.lookup n).bind (f n)).toList := by
  induction l with
  | nil => rfl
  | cons x l ih =>
      obtain ⟨j, a⟩ := x
      obtain ⟨hj, hl⟩ := List.nodup_cons.mp hl
      have hrest := ih hl
      by_cases hjn : j = n
      · subst hjn
        have hnone : l.lookup j = none := by
          rw [List.lookup_eq_none_iff]
          refine fun y hy => bne_iff_ne.mpr fun heq => hj ?_
          change j ∈ l.map Prod.fst
          rw [heq]
          exact List.mem_map_of_mem hy
        rw [hnone, Option.bind_none, Option.toList_none] at hrest
        rw [List.lookup_cons_self, Option.bind_some]
        cases hf : f j a with
        | none => rw [List.filterMap_cons_none (by rw [hf]; rfl), hrest, Option.toList_none]
        | some b =>
            rw [List.filterMap_cons_some (b := (j, b)) (by rw [hf]; rfl), List.filter_cons_of_pos (by simp),
              List.map_cons, hrest, Option.toList_some]
      · rw [List.lookup_cons, beq_false_of_ne (Ne.symm hjn)]
        cases hf : f j a with
        | none => rwa [List.filterMap_cons_none (by rw [hf]; rfl)]
        | some b =>
            rwa [List.filterMap_cons_some (b := (j, b)) (by rw [hf]; rfl), List.filter_cons_of_neg (by simpa using hjn)]

theorem Inv.responsesTo_eq {p : Platform} {s : State} (h : Inv p s) (n : Nat) :
    s.responsesTo n =
      ((s.settlement n).bind fun settlement => s.invocations[n]?.map fun inv => answer p inv settlement).toList := by
  have hkeys : s.responses = s.settled.filterMap fun x =>
      (s.invocations[x.1]?.map fun inv => answer p inv x.2).map fun b => (x.1, b) := by
    rw [h.responses]
    simp only [Option.map_map, Function.comp_def]
  unfold State.responsesTo State.settlement
  rw [hkeys]
  exact filterMap_key_eq_lookup (fun j settlement => s.invocations[j]?.map fun inv => answer p inv settlement) n
    h.settled

theorem Inv.answersOnce {p : Platform} {s : State} (h : Inv p s) : AnswersOnce p s := by
  refine ⟨h.synced.nodup, h.calls, fun n inv settlement hinv hs => ?_, fun n hs => ?_⟩
  · obtain ⟨hid, hsuccess⟩ := answer_fields p inv settlement
    refine ⟨answer p inv settlement, ?_, hid, hsuccess, answer_nativeModule p inv settlement⟩
    rw [h.responsesTo_eq n, hs, hinv]
    rfl
  · rw [h.responsesTo_eq n, hs]
    rfl

/-- **Every run answers once.** Components mount, render other handlers and unmount, events come and promises settle
in any order. -/
theorem answers_once (p : Platform) {es : List Event} (h : (machine p).Admits (machine p).init es) :
    (machine p).Throughout (AnswersOnce p) (machine p).init es :=
  Machine.throughout_of_invariant inv_step (fun _ hs => hs.answersOnce) inv_init h

/-- The handler of a card is replaced between two events, and the card is gone when the promises settle: the later one
with a success, the earlier one with `undefined`. -/
theorem answers_once_unmounted :
    let undefinedRead : Thrown := .error (some (.str "Cannot read property of undefined"))
    let e : String → SubmitEvent := fun r => ⟨"onCardHandleSubmit", ⟨none, r, "ps_1", "secret_1", some "raw"⟩⟩
    let es : List Event :=
      [.mount 0 ⟨.card, some 1⟩, .deliver (e "req-1"), .render 0 (some 2), .deliver (e "req-2"), .unmount 0,
        .settle 1 (.fulfilled ⟨.ok (some (.bool true)), .ok [], .ok none⟩),
        .settle 0 (.fulfilled ⟨.error undefinedRead, .error undefinedRead, .error undefinedRead⟩)]
    let s := (machine .android).run (machine .android).init es
    s.invocations.map (fun inv => (inv.handler, inv.requestId)) = [(1, "req-1"), (2, "req-2")] ∧
      s.responses.map (fun x => (x.1, x.2.requestId)) = [(1, "req-2"), (0, "req-1")] ∧
      (machine .android).Throughout (AnswersOnce .android) (machine .android).init es := by
  intro undefinedRead e es s
  refine ⟨by decide, by decide, answers_once .android ?_⟩
  exact ⟨rfl, trivial, trivial, trivial, trivial, ⟨by decide, by decide⟩, ⟨by decide, by decide⟩, trivial⟩

end FlowDemo.Js.Answers
