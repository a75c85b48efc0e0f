import FlowDemo.Js.Answers

/-!
# The other effects of the components

Besides `handleSubmit`, `CardView.tsx` has four handlers and `ApplePayView.tsx` one, each with an effect of its own that
subscribes a listener to a device event. A render cleans up the effects whose handler is another one, and runs those
again; the others keep their subscriptions.

* `argument`: what a listener reads of an event and hands to its handler, if it gets that far;
* `Reaches`: one subscription for each handler of a mounted component, and each event in the hands of the handlers that
  were there when it came;
* `tokenized_answers_once`: what becomes of the calls of `onTokenized`.
-/

namespace FlowDemo.Js.Hooks

open Answers (Handler Thrown message)

/-- An effect, called as the handler it depends on. -/
inductive Hook
  | onTokenized
  | onPaymentChange
  | onCardValidityChange
  | onCardNativeHeight
  deriving DecidableEq

def hooks : List Hook := [.onTokenized, .onPaymentChange, .onCardValidityChange, .onCardNativeHeight]

theorem mem_hooks (h : Hook) : h ∈ hooks := by
  cases h <;> decide

theorem nodup_hooks : hooks.Nodup := by decide

/-! ## Device events -/

/-- The events the native views emit. The height of a card goes with its `component` on iOS only. -/
inductive DeviceEvent
  | handleTokenized (component requestId : String) (tokenizationResult : Value)
  | paymentChange (component : String)
  | cardValidityChange (isValid : Bool)
  | cardNativeHeight (component : Option String) (height : Int)

def DeviceEvent.name : DeviceEvent → String
  | .handleTokenized _ _ _ => "onHandleTokenized"
  | .paymentChange _ => "onFlowPaymentChange"
  | .cardValidityChange _ => "onCardValidityChange"
  | .cardNativeHeight _ _ => "onCardNativeHeight"

def DeviceEvent.requestId : DeviceEvent → Option String
  | .handleTokenized _ requestId _ => some requestId
  | _ => none

inductive Argument
  | tokenizationResult (value : Value)
  | component (component : String)
  | isValid (isValid : Bool)
  | height (height : Int)

/-- The event an effect subscribes to; `ApplePayView.tsx` has the first effect only, `GooglePayView.tsx` none. -/
def eventName : Platform → ComponentKind → Hook → Option String
  | .android, .card, .onTokenized => some "onCardHandleTokenized"
  | .ios, .card, .onTokenized => some "onHandleTokenized"
  | .ios, .applePay, .onTokenized => some "onHandleTokenized"
  | _, .card, .onPaymentChange => some "onFlowPaymentChange"
  | _, .card, .onCardValidityChange => some "onCardValidityChange"
  | _, .card, .onCardNativeHeight => some "onCardNativeHeight"
  | _, _, _ => none

/-- The `component` the tokenization listeners of iOS insist on. -/
def tokenizedComponent : ComponentKind → String
  | .applePay => "applepay"
  | _ => "card"

/-- What a listener calls its handler with, unless one of its checks makes it return. -/
def argument (p : Platform) (kind : ComponentKind) : Hook → DeviceEvent → Option Argument
  | .onTokenized, .handleTokenized component _ tokenizationResult =>
      if p = .ios ∧ component ≠ tokenizedComponent kind then none else some (.tokenizationResult tokenizationResult)
  | .onPaymentChange, .paymentChange component => some (.component component)
  | .onCardValidityChange, .cardValidityChange isValid => some (.isValid isValid)
  | .onCardNativeHeight, .cardNativeHeight component height =>
      -- `event?.component && event.component !== 'card'`
      if p = .ios ∧ component.any (fun c => c ≠ "" && c ≠ "card") then none
      else if 0 < height then some (.height height) else none
  | _, _ => none

/-! ## Components and listeners -/

structure Mounted where
  kind : ComponentKind
  handler : Hook → Option Handler

structure Listener where
  owner : ComponentId
  kind : ComponentKind
  hook : Hook
  eventName : String
  handler : Handler

/-- A call of a handler, with the request it is to answer, if any. -/
structure Call where
  component : ComponentId
  kind : ComponentKind
  hook : Hook
  handler : Handler
  argument : Argument
  requestId : Option String

def effect (p : Platform) (k : ComponentId) (m : Mounted) (hook : Hook) : Option Listener :=
  match m.handler hook, eventName p m.kind hook with
  | some handler, some name => some ⟨k, m.kind, hook, name, handler⟩
  | _, _ => none

def Listener.call (p : Platform) (l : Listener) (e : DeviceEvent) : Option Call :=
  if l.eventName = e.name then
    (argument p l.kind l.hook e).map fun a => ⟨l.owner, l.kind, l.hook, l.handler, a, e.requestId⟩
  else none

/-- What `onTokenized` resolves with, as far as it can be read, or what it rejects with. -/
inductive Settlement
  | fulfilled (accepted rejectionMessage : Except Thrown Value)
  | rejected (error : Thrown)

structure Response where
  requestId : String
  accepted : Value
  rejectionMessage : Value

/-- The mounted components and the listeners, oldest first, the events delivered, each with the components mounted then,
the handler calls, and how those of `onTokenized` settled and were answered. -/
structure State where
  mounted : LinkedMap ComponentId Mounted := ∅
  listeners : List Listener := []
  delivered : List (DeviceEvent × LinkedMap ComponentId Mounted) := []
  calls : List Call := []
  settled : List (Nat × Settlement) := []
  responses : List (Nat × Response) := []

inductive Event
  | mount (k : ComponentId) (m : Mounted)
  | render (k : ComponentId) (handler : Hook → Option Handler)
  | unmount (k : ComponentId)
  | deliver (e : DeviceEvent)
  | settle (n : Nat) (settlement : Settlement)

/-! ## The tokenization listener, from the settled promise on -/

abbrev Listening := ExceptT Thrown (StateM (List Response))

/-- The `CardModule` of Android has no method of this name, and what calls it throws. -/
def handleTokenizedResponse : Platform → Response → Listening Unit
  | .ios, response => modify (· ++ [response])
  | .android, _ => throw (.error (some (.str "undefined is not a function")))

def read (x : Except Thrown Value) : Listening Value := ExceptT.mk (pure x)

/-- The `try` statement of a listener. The one of `ApplePayView.tsx` writes `accepted` to the log first. -/
def handleTokenizedListener (p : Platform) (kind : ComponentKind) (requestId : String) (settlement : Settlement) :
    Listening Unit :=
  tryCatch
    (match settlement with
      | .rejected error => throw error
      | .fulfilled accepted rejectionMessage => do
          if kind = .applePay then
            let _ ← read accepted
          let accepted ← read accepted
          let rejectionMessage ← read rejectionMessage
          handleTokenizedResponse p ⟨requestId, accepted, rejectionMessage⟩)
    fun error => handleTokenizedResponse p ⟨requestId, some (.bool false), message error⟩

/-- What an iOS listener is to answer: the result as far as it can be read, `false` otherwise. -/
def answer (requestId : String) : Settlement → Response
  | .fulfilled (.ok accepted) (.ok rejectionMessage) => ⟨requestId, accepted, rejectionMessage⟩
  | .fulfilled (.ok _) (.error error) => ⟨requestId, some (.bool false), message error⟩
  | .fulfilled (.error error) _ => ⟨requestId, some (.bool false), message error⟩
  | .rejected error => ⟨requestId, some (.bool false), message error⟩

theorem handleTokenizedListener_run (kind : ComponentKind) (requestId : String) (settlement : Settlement)
    (sent : List Response) :
    (handleTokenizedListener .ios kind requestId settlement).run.run sent =
      (.ok (), sent ++ [answer requestId settlement]) := by
  cases settlement with
  | rejected error => rfl
  | fulfilled accepted rejectionMessage =>
      cases kind <;> cases accepted <;> cases rejectionMessage <;> rfl

/-! ## Steps -/

namespace State

def tokenizedCall (s : State) (n : Nat) : Option (Call × String) :=
  s.calls[n]?.bind fun c => c.requestId.map fun requestId => (c, requestId)

def mount (s : State) (p : Platform) (k : ComponentId) (m : Mounted) : State :=
  { s with
    mounted := s.mounted.put k m
    listeners := s.listeners ++ hooks.filterMap (effect p k m) }

/-- The effects whose handler is another one are cleaned up, and then run again. -/
def render (s : State) (p : Platform) (k : ComponentId) (handler : Hook → Option Handler) : State :=
  match s.mounted.get k with
  | none => s
  | some m => { s with
      mounted := s.mounted.put k { m with handler := handler }
      listeners := (s.listeners.filter fun l => ¬ (l.owner = k ∧ m.handler l.hook ≠ handler l.hook)) ++
        (hooks.filter fun hook => m.handler hook ≠ handler hook).filterMap
          (effect p k { m with handler := handler }) }

def unmount (s : State) (k : ComponentId) : State :=
  { s with
    mounted := s.mounted.remove k
    listeners := s.listeners.filter fun l => l.owner ≠ k }

def deliver (s : State) (p : Platform) (e : DeviceEvent) : State :=
  { s with
    delivered := s.delivered ++ [(e, s.mounted)]
    calls := s.calls ++ s.listeners.filterMap fun l => l.call p e }

/-- The promise of call `n`, one of `onTokenized`, settles, and its listener goes on to its end. -/
def settle (s : State) (p : Platform) (n : Nat) (settlement : Settlement) : State :=
  match s.tokenizedCall n with
  | none => s
  | some (c, requestId) => { s with
      settled := s.settled ++ [(n, settlement)]
      responses := s.responses ++
        ((handleTokenizedListener p c.kind requestId settlement).run.run []).2.map fun r => (n, r) }

def responsesTo (s : State) (n : Nat) : List Response := (s.responses.filter fun x => x.1 = n).map Prod.snd

def settlement (s : State) (n : Nat) : Option Settlement := s.settled.lookup n

end State

/-- A promise settles once. -/
def machine (p : Platform) : Machine State Event where
  init := {}
  allowed s e := match e with
    | .mount k _ => s.mounted.get k = none
    | .settle n _ => (s.tokenizedCall n).isSome = true ∧ n ∉ s.settled.map Prod.fst
    | _ => True
  step s e := match e with
    | .mount k m => s.mount p k m
    | .render k handler => s.render p k handler
    | .unmount k => s.unmount k
    | .deliver e => s.deliver p e
    | .settle n settlement => s.settle p n settlement

/-! ## One subscription a handler -/

/-- The call `e` is to cause in component `k`: of its present handler, with what the event says. A tokenization is for
the iOS component that it names, the other events are for the cards; a height is passed on if it is positive, and on iOS
only if it names no other component. -/
def callOf (p : Platform) (k : ComponentId) (m : Mounted) (hook : Hook) (e : DeviceEvent) : Option Call :=
  let call : Argument → Option String → Option Call := fun argument requestId =>
    (m.handler hook).map fun handler => ⟨k, m.kind, hook, handler, argument, requestId⟩
  match hook, e with
  | .onTokenized, .handleTokenized component requestId tokenizationResult =>
      if p = .ios ∧ (m.kind = .card ∧ component = "card" ∨ m.kind = .applePay ∧ component = "applepay") then
        call (.tokenizationResult tokenizationResult) (some requestId)
      else none
  | .onPaymentChange, .paymentChange component => if m.kind = .card then call (.component component) none else none
  | .onCardValidityChange, .cardValidityChange isValid =>
      if m.kind = .card then call (.isValid isValid) none else none
  | .onCardNativeHeight, .cardNativeHeight component height =>
      if m.kind = .card ∧ 0 < height ∧
          (p = .ios → component = none ∨ component = some "" ∨ component = some "card") then
        call (.height height) none
      else none
  | _, _ => none

/-- **Each handler of a mounted component has one subscription, and there is no other**; each event has called the
handlers that heard it when it came, once each, and no other. -/
structure Reaches (p : Platform) (s : State) : Prop where
  subscribed : ∀ k hook, s.listeners.filter (fun l => l.owner = k ∧ l.hook = hook) =
    ((s.mounted.get k).bind fun m => effect p k m hook).toList
  called : ∀ k hook, s.calls.filter (fun c => c.component = k ∧ c.hook = hook) =
    s.delivered.filterMap fun d => (d.2.get k).bind fun m => callOf p k m hook d.1

section

variable {p : Platform} {s : State} {k : ComponentId} {m : Mounted} {hook : Hook}

theorem any_foreign_eq_false_iff (component : Option String) :
    component.any (fun c => c ≠ "" && c ≠ "card") = false ↔
      component = none ∨ component = some "" ∨ component = some "card" := by
  cases component with
  | none => simp
  | some c => by_cases h : c = "" <;> simp [h]

theorem argument_cardNativeHeight (p : Platform) (kind : ComponentKind) (component : Option String) (height : Int) :
    argument p kind .onCardNativeHeight (.cardNativeHeight component height) =
      if 0 < height ∧ (p = .ios → component = none ∨ component = some "" ∨ component = some "card") then
        some (.height height)
      else none := by
  simp only [← any_foreign_eq_false_iff, argument]
  cases p with
  | android => simp
  | ios => cases component.any (fun c => c ≠ "" && c ≠ "card") <;> simp

/-- **The effects call as they are to.** -/
theorem effect_call (p : Platform) (k : ComponentId) (m : Mounted) (hook : Hook) (e : DeviceEvent) :
    ((effect p k m hook).bind fun l => l.call p e) = callOf p k m hook e := by
  obtain ⟨kind, handlers⟩ := m
  cases hhandler : handlers hook with
  | none => cases hook <;> cases e <;> simp [effect, callOf, hhandler]
  | some handler =>
      cases hook with
      | onTokenized =>
          cases e <;> cases p <;> cases kind <;>
            simp [effect, callOf, hhandler, eventName, Listener.call, DeviceEvent.name, argument, tokenizedComponent,
              DeviceEvent.requestId]
      | onPaymentChange =>
          cases e <;> cases kind <;>
            simp [effect, callOf, hhandler, eventName, Listener.call, DeviceEvent.name, argument, DeviceEvent.requestId]
      | onCardValidityChange =>
          cases e <;> cases kind <;>
            simp [effect, callOf, hhandler, eventName, Listener.call, DeviceEvent.name, argument, DeviceEvent.requestId]
      | onCardNativeHeight =>
          cases e with
          | cardNativeHeight component height =>
              cases kind with
              | card =>
                  simp only [effect, callOf, hhandler, eventName, Listener.call, DeviceEvent.name,
                    DeviceEvent.requestId, Option.bind_some, if_true, true_and, Option.map_some]
                  rw [argument_cardNativeHeight]
                  split <;> rfl
              | _ => simp [effect, callOf, hhandler, eventName]
          | _ =>
              cases kind <;>
                simp [effect, callOf, hhandler, eventName, Listener.call, DeviceEvent.name]

theorem effect_owner {l : Listener} (h : effect p k m hook = some l) : l.owner = k ∧ l.hook = hook := by
  unfold effect at h
  split at h
  · cases h
    exact ⟨rfl, rfl⟩
  · cases h

theorem filter_filterMap_effect (p : Platform) (k k' : ComponentId) (m : Mounted) (hook : Hook) {l : List Hook}
    (hl : l.Nodup) :
    (l.filterMap (effect p k m)).filter (fun x => x.owner = k' ∧ x.hook = hook) =
      if k' = k ∧ hook ∈ l then (effect p k m hook).toList else [] := by
  induction l with
  | nil => simp
  | cons h l ih =>
      obtain ⟨hnot, hl⟩ := List.nodup_cons.mp hl
      cases heff : effect p k m h with
      | none =>
          rw [List.filterMap_cons_none heff, ih hl]
          by_cases hh : hook = h
          · subst hh
            simp [hnot, heff]
          · simp [hh]
      | some x =>
          obtain ⟨howner, hhook⟩ := effect_owner heff
          rw [List.filterMap_cons_some heff, List.filter_cons, ih hl, howner, hhook]
          by_cases hk : k = k'
          · subst hk
            by_cases hh : h = hook
            · subst hh
              simp [hnot, heff]
            · simp [hh, Ne.symm hh]
          · simp [hk, Ne.symm hk]

theorem effect_congr (handler : Hook → Option Handler) (h : m.handler hook = handler hook) :
    effect p k { m with handler := handler } hook = effect p k m hook := by
  unfold effect
  rw [h]

theorem reaches_mount (h : Reaches p s) (hk : s.mounted.get k = none) (m : Mounted) : Reaches p (s.mount p k m) := by
  refine ⟨fun k' hook => ?_, h.called⟩
  change (s.listeners ++ hooks.filterMap (effect p k m)).filter _ =
    (((s.mounted.put k m).get k').bind fun m => effect p k' m hook).toList
  rw [List.filter_append, h.subscribed, filter_filterMap_effect p k k' m hook nodup_hooks, LinkedMap.get_put]
  by_cases hkk : k' = k
  · subst hkk
    simp [hk, mem_hooks]
  · simp [hkk]

/-- The listeners left when those of `k` that are stale have gone, looked through for one effect. -/
theorem filter_stale (l : List Listener) (k k' : ComponentId) (hook : Hook) (stale : Hook → Bool) :
    (l.filter fun x => ¬ (x.owner = k ∧ stale x.hook = true)).filter (fun x => x.owner = k' ∧ x.hook = hook) =
      if k' = k ∧ stale hook = true then [] else l.filter fun x => x.owner = k' ∧ x.hook = hook := by
  induction l with
  | nil => simp
  | cons x l ih =>
      rw [List.filter_cons, List.filter_cons]
      by_cases hx : x.owner = k' ∧ x.hook = hook
      · obtain ⟨rfl, rfl⟩ := hx
        by_cases hstale : x.owner = k ∧ stale x.hook = true
        · rw [if_neg (by simp [hstale]), ih, if_pos hstale, if_pos hstale]
        · rw [if_pos (decide_eq_true hstale), List.filter_cons, ih, if_neg hstale, if_neg hstale]
      · rw [if_neg (c := decide (x.owner = k' ∧ x.hook = hook) = true) (by simpa using hx)]
        split
        · rw [List.filter_cons, if_neg (by simpa using hx), ih]
        · exact ih

/-- **A render touches the subscriptions of the handlers that are others**, and no more. -/
theorem reaches_render (h : Reaches p s) (k : ComponentId) (handler : Hook → Option Handler) :
    Reaches p (s.render p k handler) := by
  unfold State.render
  cases hk : s.mounted.get k with
  | none => exact h
  | some m =>
      refine ⟨fun k' hook => ?_, h.called⟩
      have hkept := filter_stale s.listeners k k' hook fun hook => decide (m.handler hook ≠ handler hook)
      simp only [decide_eq_true_eq] at hkept
      rw [List.filter_append, hkept, h.subscribed, LinkedMap.get_put,
        filter_filterMap_effect p k k' _ hook (nodup_hooks.filter _)]
      by_cases hkk : k' = k
      · subst hkk
        by_cases hchanged : m.handler hook = handler hook
        · simp [hchanged, hk, effect_congr handler hchanged]
        · simp [hchanged, mem_hooks]
      · simp [hkk]

/-- **A component that goes leaves no subscription.** -/
theorem reaches_unmount (h : Reaches p s) (k : ComponentId) : Reaches p (s.unmount k) := by
  refine ⟨fun k' hook => ?_, h.called⟩
  have hkept := filter_stale s.listeners k k' hook fun _ => true
  simp only [and_true] at hkept
  change (s.listeners.filter fun l => l.owner ≠ k).filter _ =
    (((s.mounted.remove k).get k').bind fun m => effect p k' m hook).toList
  rw [hkept, LinkedMap.get_remove]
  split
  · rfl
  · exact h.subscribed k' hook

theorem call_component {l : Listener} {e : DeviceEvent} {c : Call} (h : l.call p e = some c) :
    c.component = l.owner ∧ c.hook = l.hook := by
  unfold Listener.call at h
  split at h
  · obtain ⟨a, -, rfl⟩ := Option.map_eq_some_iff.mp h
    exact ⟨rfl, rfl⟩
  · cases h

/-- **An event calls the present handlers that hear it**, once each. -/
theorem called_filter (h : Reaches p s) (e : DeviceEvent) (k : ComponentId) (hook : Hook) :
    (s.listeners.filterMap fun l => l.call p e).filter (fun c => c.component = k ∧ c.hook = hook) =
      ((s.mounted.get k).bind fun m => callOf p k m hook e).toList := by
  calc (s.listeners.filterMap fun l => l.call p e).filter (fun c => c.component = k ∧ c.hook = hook)
      = (s.listeners.filter fun l => l.owner = k ∧ l.hook = hook).filterMap fun l => l.call p e := by
        rw [List.filter_filterMap, List.filterMap_filter]
        refine List.filterMap_congr fun l _ => ?_
        cases hc : l.call p e with
        | none => simp
        | some c =>
            obtain ⟨hcomponent, hhook⟩ := call_component hc
            rw [Option.filter_some, hcomponent, hhook]
    _ = (((s.mounted.get k).bind fun m => effect p k m hook).toList).filterMap fun l => l.call p e := by
        rw [h.subscribed]
    _ = ((s.mounted.get k).bind fun m => callOf p k m hook e).toList := by
        cases s.mounted.get k with
        | none => rfl
        | some m =>
            change ((effect p k m hook).toList).filterMap _ = (callOf p k m hook e).toList
            rw [← effect_call]
            cases effect p k m hook with
            | none => rfl
            | some l => cases hc : l.call p e <;> simp [hc]

theorem reaches_deliver (h : Reaches p s) (e : DeviceEvent) : Reaches p (s.deliver p e) := by
  refine ⟨h.subscribed, fun k hook => ?_⟩
  change (s.calls ++ s.listeners.filterMap fun l => l.call p e).filter _ =
    (s.delivered ++ [(e, s.mounted)]).filterMap _
  rw [List.filter_append, List.filterMap_append, h.called, called_filter h]
  cases hc : (s.mounted.get k).bind fun m => callOf p k m hook e <;> simp [hc]

theorem effect_of_mem (h : Reaches p s) {l : Listener} (hl : l ∈ s.listeners) :
    ∃ m, s.mounted.get l.owner = some m ∧ effect p l.owner m l.hook = some l := by
  have hin : l ∈ s.listeners.filter fun x => x.owner = l.owner ∧ x.hook = l.hook :=
    List.mem_filter.mpr ⟨hl, by simp⟩
  rw [h.subscribed, Option.mem_toList] at hin
  exact Option.bind_eq_some_iff.mp hin

end

/-! ## Answers -/

/-- **On iOS a call of `onTokenized` is answered once, when its promise has settled and not before**; on Android there
is no such call. -/
structure AnswersOnce (p : Platform) (s : State) : Prop where
  ios : ∀ c ∈ s.calls, c.hook = .onTokenized → p = .ios
  answered : ∀ n c requestId settlement, s.tokenizedCall n = some (c, requestId) → s.settlement n = some settlement →
    s.responsesTo n = [answer requestId settlement]
  unanswered : ∀ n, s.settlement n = none → s.responsesTo n = []

structure Inv (p : Platform) (s : State) : Prop where
  reaches : Reaches p s
  tokenized : ∀ c ∈ s.calls, c.hook = .onTokenized ∨ c.requestId ≠ none → p = .ios
  settled : (s.settled.map Prod.fst).Nodup
  known : ∀ x ∈ s.settled, x.1 < s.calls.length
  responses : s.responses = s.settled.filterMap fun x => (s.tokenizedCall x.1).map fun c => (x.1, answer c.2 x.2)

section

variable {p : Platform} {s : State}

theorem effect_eventName {k : ComponentId} {m : Mounted} {hook : Hook} {l : Listener}
    (h : effect p k m hook = some l) : eventName p m.kind hook = some l.eventName := by
  unfold effect at h
  split at h
  · next hname =>
      cases h
      exact hname
  · cases h

/-- The requests are heard by the first effect alone, and it hears nothing else. -/
theorem argument_requestId {kind : ComponentKind} {hook : Hook} {e : DeviceEvent} {a : Argument}
    (h : argument p kind hook e = some a) : hook = .onTokenized ↔ e.requestId ≠ none := by
  cases hook <;> cases e <;> simp [argument, DeviceEvent.requestId] at h ⊢

theorem name_of_requestId {e : DeviceEvent} (h : e.requestId ≠ none) : e.name = "onHandleTokenized" := by
  cases e with
  | handleTokenized component requestId tokenizationResult => rfl
  | _ => exact absurd rfl h

/-- The Android listener for tokenizations is for an event that is never emitted. -/
theorem eventName_android (kind : ComponentKind) : eventName .android kind .onTokenized ≠ some "onHandleTokenized" := by
  cases kind <;> decide

theorem ios_of_call {k : ComponentId} {m : Mounted} {l : Listener} {e : DeviceEvent} {c : Call}
    (heffect : effect p k m l.hook = some l) (hc : l.call p e = some c)
    (htokenized : c.hook = .onTokenized ∨ c.requestId ≠ none) : p = .ios := by
  have hname := effect_eventName heffect
  unfold Listener.call at hc
  split at hc
  · next heq =>
      obtain ⟨a, ha, rfl⟩ := Option.map_eq_some_iff.mp hc
      have hrequest : e.requestId ≠ none := htokenized.elim (argument_requestId ha).mp id
      have hhook : l.hook = .onTokenized := (argument_requestId ha).mpr hrequest
      rw [hhook, heq, name_of_requestId hrequest] at hname
      cases p with
      | ios => rfl
      | android => exact absurd hname (eventName_android m.kind)
  · cases hc

theorem tokenizedCall_append {n : Nat} (hn : n < s.calls.length) (calls : List Call) :
    (State.tokenizedCall { s with calls := s.calls ++ calls } n) = s.tokenizedCall n := by
  unfold State.tokenizedCall
  rw [List.getElem?_append_left hn]

theorem inv_deliver (h : Inv p s) (e : DeviceEvent) : Inv p (s.deliver p e) := by
  refine ⟨reaches_deliver h.reaches e, fun c hc htokenized => ?_, h.settled, fun x hx => ?_, ?_⟩
  · rcases List.mem_append.mp hc with hc | hc
    · exact h.tokenized c hc htokenized
    · obtain ⟨l, hl, hcall⟩ := List.mem_filterMap.mp hc
      obtain ⟨m, -, heffect⟩ := effect_of_mem h.reaches hl
      exact ios_of_call heffect hcall htokenized
  · change x.1 < (s.calls ++ _).length
    rw [List.length_append]
    exact Nat.lt_add_right _ (h.known x hx)
  · change s.responses = _
    rw [h.responses]
    refine List.filterMap_congr fun x hx => ?_
    exact congrArg (Option.map fun c => (x.1, answer c.2 x.2)) (tokenizedCall_append (h.known x hx) _).symm

theorem inv_settle (h : Inv p s) {n : Nat} (hn : (s.tokenizedCall n).isSome = true)
    (hnew : n ∉ s.settled.map Prod.fst) (settlement : Settlement) : Inv p (s.settle p n settlement) := by
  obtain ⟨⟨c, requestId⟩, hcall⟩ := Option.isSome_iff_exists.mp hn
  obtain ⟨c', hget, hrequest⟩ := Option.bind_eq_some_iff.mp hcall
  obtain ⟨r, hr, heq⟩ := Option.map_eq_some_iff.mp hrequest
  obtain ⟨rfl, rfl⟩ := Prod.mk.inj heq
  have hios : p = .ios := by
    refine h.tokenized c' (List.mem_of_getElem? hget) (Or.inr ?_)
    rw [hr]
    exact Option.some_ne_none r
  subst hios
  unfold State.settle
  rw [hcall]
  refine ⟨⟨h.reaches.subscribed, h.reaches.called⟩, h.tokenized, ?_, fun x hx => ?_, ?_⟩
  · change ((s.settled ++ [(n, settlement)]).map Prod.fst).Nodup
    rw [List.map_append, List.map_singleton, ← List.concat_eq_append]
    exact List.Nodup.concat hnew h.settled
  · rcases List.mem_append.mp hx with hx | hx
    · exact h.known x hx
    · rw [List.mem_singleton.mp hx]
      exact (List.getElem?_eq_some_iff.mp hget).1
  · change s.responses ++ _ = (s.settled ++ [(n, settlement)]).filterMap fun x =>
      (s.tokenizedCall x.1).map fun c => (x.1, answer c.2 x.2)
    rw [List.filterMap_append, ← h.responses, handleTokenizedListener_run]
    simp [hcall]

theorem render_rest (s : State) (k : ComponentId) (handler : Hook → Option Handler) :
    (s.render p k handler).calls = s.calls ∧ (s.render p k handler).settled = s.settled ∧
      (s.render p k handler).responses = s.responses := by
  unfold State.render
  split <;> exact ⟨rfl, rfl, rfl⟩

theorem inv_step (s : State) (e : Event) (h : Inv p s) (he : (machine p).allowed s e) :
    Inv p ((machine p).step s e) := by
  have hsame : ∀ t : State, Reaches p t → t.calls = s.calls → t.settled = s.settled → t.responses = s.responses →
      Inv p t := by
    intro t ht hcalls hsettled hresponses
    refine ⟨ht, ?_, ?_, ?_, ?_⟩
    · rw [hcalls]
      exact h.tokenized
    · rw [hsettled]
      exact h.settled
    · rw [hsettled, hcalls]
      exact h.known
    · rw [hresponses, hsettled, h.responses]
      unfold State.tokenizedCall
      rw [hcalls]
  cases e with
  | mount k m => exact hsame _ (reaches_mount h.reaches he m) rfl rfl rfl
  | render k handler =>
      obtain ⟨hcalls, hsettled, hresponses⟩ := render_rest (p := p) s k handler
      exact hsame _ (reaches_render h.reaches k handler) hcalls hsettled hresponses
  | unmount k => exact hsame _ (reaches_unmount h.reaches k) rfl rfl rfl
  | deliver e => exact inv_deliver h e
  | settle n settlement => exact inv_settle h he.1 he.2 settlement

theorem inv_init : Inv p (machine p).init :=
  ⟨⟨fun _ _ => rfl, fun _ _ => rfl⟩, nofun, List.nodup_nil, nofun, rfl⟩

theorem Inv.responsesTo_eq (h : Inv p s) (n : Nat) :
    s.responsesTo n =
      ((s.settlement n).bind fun settlement => (s.tokenizedCall n).map fun c => answer c.2 settlement).toList := by
  have hkeys : s.responses = s.settled.filterMap fun x =>
      ((s.tokenizedCall x.1).map fun c => answer c.2 x.2).map fun b => (x.1, b) := by
    rw [h.responses]
    simp only [Option.map_map, Function.comp_def]
  unfold State.responsesTo State.settlement
  rw [hkeys]
  exact Answers.filterMap_key_eq_lookup (fun j settlement => (s.tokenizedCall j).map fun c => answer c.2 settlement) n
    h.settled

theorem Inv.answersOnce (h : Inv p s) : AnswersOnce p s := by
  refine ⟨fun c hc hhook => h.tokenized c hc (Or.inl hhook), fun n c requestId settlement hcall hs => ?_,
    fun n hs => ?_⟩
  · rw [h.responsesTo_eq n, hs, hcall]
    rfl
  · rw [h.responsesTo_eq n, hs]
    rfl

end

/-! ## Runs -/

section

variable {p : Platform} {es : List Event} (h : (machine p).Admits (machine p).init es)

include h

/-- **Every run reaches the handlers**, as components mount, render other handlers and unmount, and events come, in any
order. -/
theorem hooks_reached : (machine p).Throughout (Reaches p) (machine p).init es :=
  Machine.throughout_of_invariant inv_step (fun _ hs => hs.reaches) inv_init h

/-- **Every run answers the tokenizations once.** -/
theorem tokenized_answers_once : (machine p).Throughout (AnswersOnce p) (machine p).init es :=
  Machine.throughout_of_invariant inv_step (fun _ hs => hs.answersOnce) inv_init h

end

instance (p : Platform) (s : State) : (e : Event) → Decidable ((machine p).allowed s e)
  | .mount k _ => decidable_of_iff ((s.mounted.get k).isNone = true) Option.isNone_iff_eq_none
  | .settle n _ =>
      inferInstanceAs (Decidable ((s.tokenizedCall n).isSome = true ∧ n ∉ s.settled.map Prod.fst))
  | .render _ _ | .unmount _ | .deliver _ => isTrue trivial

def allHandlers (handler : Handler) : Hook → Option Handler := fun _ => some handler

/-- A card has all of its handlers replaced between two changes of its validity; neither a height of 0 nor one of
another component gets through. -/
def replacing : List Event :=
  [.mount 0 ⟨.card, allHandlers 1⟩, .deliver (.cardValidityChange true), .render 0 (allHandlers 2),
    .deliver (.cardValidityChange false), .deliver (.cardNativeHeight (some "card") 0),
    .deliver (.cardNativeHeight (some "applepay") 80), .deliver (.cardNativeHeight (some "card") 120)]

theorem hooks_reached_replacing :
    (machine .ios).Throughout (Reaches .ios) (machine .ios).init replacing ∧
      ((machine .ios).run (machine .ios).init replacing).calls.map (fun c => (c.hook, c.handler)) =
        [(.onCardValidityChange, 1), (.onCardValidityChange, 2), (.onCardNativeHeight, 2)] :=
  ⟨hooks_reached (by decide +kernel), by decide +kernel⟩

/-- A card and an Apple Pay button both listen for tokenizations, and each answers for its own, the card after it is
gone and with what it threw. -/
def tokenizing : List Event :=
  [.mount 0 ⟨.card, allHandlers 1⟩, .mount 1 ⟨.applePay, allHandlers 2⟩,
    .deliver (.handleTokenized "card" "req-1" none),
    .deliver (.handleTokenized "applepay" "req-2" none), .unmount 0,
    .settle 1 (.fulfilled (.ok (some (.bool true))) (.ok none)),
    .settle 0 (.rejected (.error (some (.str "declined"))))]

theorem tokenized_answers_once_unmounted :
    (machine .ios).Throughout (AnswersOnce .ios) (machine .ios).init tokenizing ∧
      ((machine .ios).run (machine .ios).init tokenizing).calls.map (fun c => (c.component, c.requestId)) =
        [(0, some "req-1"), (1, some "req-2")] ∧
      ((machine .ios).run (machine .ios).init tokenizing).responses.map (fun x => (x.1, x.2.requestId)) =
        [(1, "req-2"), (0, "req-1")] :=
  ⟨tokenized_answers_once (by decide +kernel), by decide +kernel, by decide +kernel⟩

end FlowDemo.Js.Hooks
