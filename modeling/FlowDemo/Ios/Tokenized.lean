import FlowDemo.Ios.Bridge

/-!
# The `onTokenized` callbacks of the iOS views

Each view's `initialize` puts an `onTokenized` callback among its component's callbacks. Both views build one that asks
JavaScript; `CardPayView` passes it on, `ApplePayView` passes one that accepts. A tokenization result the SDK hands to
a view either makes its callback return at once or suspends it until a response resumes it.

* `decides_by_answer`: a callback that was suspended returns what JavaScript answers to its request, and only then;
* `decision_enforced_iff`: whose callbacks are.
-/

namespace FlowDemo.Ios.Tokenized

/-- What `initialize` passes as `onTokenized`. -/
inductive OnTokenized
  | none
  | accepting
  | bridging
  deriving DecidableEq

/-- `ApplePayView` passes a closure of its own instead of the `onTokenizedCallback` it has built. -/
def onTokenized (hasOnTokenizedListener : Bool) : ViewClass → OnTokenized
  | .applePay => .accepting
  | .card => if hasOnTokenizedListener then .bridging else .none

/-- A callback the SDK has called: it has returned, or it waits for its request. -/
inductive Call
  | returned (result : CallbackResult)
  | suspended (c : Continuation)

/-- The views; their `hasOnTokenizedListener`, now and as `initialize` read it; and the calls of their callbacks, in
order. -/
structure State (D : Type) where
  ios : Ios.State D := {}
  hasOnTokenizedListener : ViewId → Bool := fun _ => false
  initializedWith : ViewId → Bool := fun _ => false
  calls : List Call := []

inductive Event
  | ios (e : Ios.Event)
  | setHasOnTokenizedListener (v : ViewId) (value : Bool)
  | tokenize (v : ViewId) (requestId : String)

/-- What JavaScript responds to a tokenization request, if the event is a response to it. -/
def Event.answer (r : String) : Event → Option (Bool × Option String)
  | .ios (.handleTokenizedResponse r' accepted message _) => if r' = r then some (accepted, message) else none
  | _ => none

def firstAnswer (r : String) : List Event → Option (Bool × Option String)
  | [] => none
  | e :: es => (e.answer r).or (firstAnswer r es)

def decision {D : Type} : Result D → Option CallbackResult
  | .tokenized result => some result
  | .submit _ => none

namespace State

variable {D : Type}

def callback (s : State D) (v : ViewId) : OnTokenized :=
  Tokenized.onTokenized (s.initializedWith v) (s.ios.view v).viewClass

/-- A task that starts `initialize` has it read the flag. -/
def beginInitialize (s : State D) (t : InitializeTask) : State D :=
  { s with
    ios := s.ios.beginInitialize t
    initializedWith := if (s.ios.view t.view).hasInitialized then s.initializedWith
      else Function.update s.initializedWith t.view (s.hasOnTokenizedListener t.view) }

/-- The bridging callback asks JavaScript unless the view is gone or listens no more. -/
def asks (s : State D) (v : ViewId) : Bool :=
  s.callback v = .bridging && s.ios.Live v && s.hasOnTokenizedListener v

/-- The SDK hands a tokenization result to the callback of `v`; `requestId` is the `UUID()` drawn if it asks. -/
def tokenize (s : State D) (v : ViewId) (requestId : String) : State D :=
  if s.asks v then
    { s with
      ios := s.ios.bridgeOnTokenized v requestId
      calls := s.calls ++ [.suspended s.ios.calls] }
  else { s with calls := s.calls ++ [.returned .accepted] }

/-- What the `n`-th call has returned to the SDK. -/
def returned (s : State D) (n : Nat) : List CallbackResult :=
  match s.calls[n]? with
  | some (.returned result) => [result]
  | some (.suspended c) => (resumptions s.ios c).filterMap decision
  | none => []

end State

variable {D : Type}

/-- The views with the SDK's tokenizations: a result is handed only to a callback that was passed. -/
def machine (Session : Set String) (decode : String → Option D) : Machine (State D) Event where
  init := {}
  allowed s e := match e with
    | .ios e => (∀ v r, e ≠ .bridgeOnTokenized v r) ∧ (Ios.machine Session decode).allowed s.ios e
    | .setHasOnTokenizedListener v _ => s.ios.Live v
    | .tokenize v r => (s.ios.view v).initializedFor ≠ none ∧ s.callback v ≠ .none ∧ r ∉ Session ∧ r ∉ s.ios.issued
  step s e := match e with
    | .ios (.beginInitialize t) => s.beginInitialize t
    | .ios e => { s with ios := (Ios.machine Session decode).step s.ios e }
    | .setHasOnTokenizedListener v value => { s with
        ios := s.ios.setProperty v .other
        hasOnTokenizedListener := Function.update s.hasOnTokenizedListener v value }
    | .tokenize v r => s.tokenize v r

/-! ## The views below -/

variable {Session : Set String} {decode : String → Option D}

def moves (s : State D) : Event → List Ios.Event
  | .ios e => [e]
  | .setHasOnTokenizedListener v _ => [.setProperty v .other]
  | .tokenize v r => if s.asks v then [.bridgeOnTokenized v r] else []

theorem moves_tokenize (s : State D) (v : ViewId) (r : String) :
    moves s (.tokenize v r) = if s.asks v then [.bridgeOnTokenized v r] else [] := rfl

theorem step_ios (s : State D) (e : Ios.Event) :
    ((machine Session decode).step s (.ios e)).ios = (Ios.machine Session decode).step s.ios e ∧
      ((machine Session decode).step s (.ios e)).calls = s.calls := by
  cases e <;> exact ⟨rfl, rfl⟩

theorem asks_iff (s : State D) (v : ViewId) :
    s.asks v = true ↔ s.callback v = .bridging ∧ s.ios.Live v ∧ s.hasOnTokenizedListener v = true := by
  simp [State.asks, and_assoc]

/-- **The views with their callbacks are views.** -/
def views (Session : Set String) (decode : String → Option D) :
    Simulation (machine Session decode) (Ios.machine Session decode) where
  rel s t := s.ios = t ∧ t.Inv Session
  moves := moves
  init := ⟨rfl, inv_init⟩
  step s t e h he := by
    obtain ⟨rfl, hinv⟩ := h
    cases e with
    | ios e =>
        rw [(step_ios s e).1]
        exact ⟨⟨he.2, trivial⟩, rfl, inv_step s.ios e hinv he.2⟩
    | setHasOnTokenizedListener v value =>
        have ha : (Ios.machine Session decode).allowed s.ios (.setProperty v .other) := ⟨he, nofun⟩
        exact ⟨⟨ha, trivial⟩, rfl, inv_step s.ios _ hinv ha⟩
    | tokenize v r =>
        obtain ⟨hinit, -, hsession, hissued⟩ := he
        cases hasks : s.asks v with
        | false =>
            have hstep : (s.tokenize v r).ios = s.ios := by
              simp only [State.tokenize, hasks, Bool.false_eq_true, if_false]
            rw [moves_tokenize, hasks]
            exact ⟨trivial, hstep, hinv⟩
        | true =>
            obtain ⟨id, hid⟩ := Option.ne_none_iff_exists'.mp hinit
            have hgiven := List.ne_nil_of_mem (hinv.built.given v id hid)
            have hmay : s.ios.MayAsk Session v r := ⟨((asks_iff s v).mp hasks).2.1, hgiven, hsession, hissued⟩
            have hstep : (s.tokenize v r).ios = s.ios.bridgeOnTokenized v r := by
              simp only [State.tokenize, hasks, if_true]
            rw [moves_tokenize, hasks]
            exact ⟨⟨hmay, trivial⟩, hstep, inv_step s.ios (.bridgeOnTokenized v r) hinv hmay⟩

theorem step_inv {s : State D} {e : Event} (hinv : s.ios.Inv Session)
    (he : (machine Session decode).allowed s e) :
    ((machine Session decode).step s e).ios.Inv Session ∧
      s.ios.issued ⊆ ((machine Session decode).step s e).ios.issued := by
  obtain ⟨hadm, heq, hinv'⟩ := (views Session decode).step s s.ios e ⟨rfl, hinv⟩ he
  have hissued : (((Ios.machine Session decode).run s.ios ((views Session decode).moves s e)).Inv Session) ∧
      s.ios.issued ⊆ ((Ios.machine Session decode).run s.ios ((views Session decode).moves s e)).issued :=
    Machine.run_induction (I := fun t => t.Inv Session ∧ s.ios.issued ⊆ t.issued)
      (fun t e ht he => ⟨inv_step t e ht.1 he, List.Subset.trans ht.2 (issued_step he ht.1)⟩)
      ⟨hinv, List.Subset.refl _⟩ hadm
  rw [heq]
  exact ⟨hinv', hissued.2⟩

theorem firstResponse_trace (r : String) (s : State D) (es : List Event) :
    firstResponse decode .tokenized r ((views Session decode).trace s es) =
      (firstAnswer r es).map fun answer => .tokenized (tokenizedResult answer.1 answer.2) := by
  induction es generalizing s with
  | nil => rfl
  | cons e es ih =>
      have hmoves : (views Session decode).moves s e = moves s e := rfl
      rw [Simulation.trace, hmoves, firstAnswer]
      cases e with
      | setHasOnTokenizedListener v value => exact ih _
      | tokenize v r' =>
          rw [moves_tokenize]
          cases s.asks v with
          | true => exact ih _
          | false => exact ih _
      | ios e =>
          rw [moves, List.singleton_append, firstResponse]
          cases e with
          | handleSubmitResponse r' success data order =>
              have hne : ¬ ((Result.submit (D := D) (submissionResult decode success data)).channel = .tokenized ∧
                r' = r) := fun h => by cases h.1
              rw [Ios.Event.response]
              exact (if_neg hne).trans (ih _)
          | handleTokenizedResponse r' accepted message order =>
              rw [Ios.Event.response, Event.answer]
              by_cases hr : r' = r
              · rw [if_pos hr]
                exact if_pos ⟨rfl, hr⟩
              · rw [if_neg hr]
                exact (if_neg fun h => hr h.2).trans (ih _)
          | _ => exact ih _

theorem calls_step (Session : Set String) (decode : String → Option D) (s : State D) (e : Event) :
    ∃ l, ((machine Session decode).step s e).calls = s.calls ++ l := by
  cases e with
  | ios e => exact ⟨[], (step_ios s e).2.trans (List.append_nil _).symm⟩
  | setHasOnTokenizedListener v value => exact ⟨[], (List.append_nil _).symm⟩
  | tokenize v r =>
      change ∃ l, (s.tokenize v r).calls = s.calls ++ l
      unfold State.tokenize
      split <;> exact ⟨_, rfl⟩

theorem calls_run (Session : Set String) (decode : String → Option D) (s : State D) (es : List Event) :
    s.calls <+: ((machine Session decode).run s es).calls := by
  induction es generalizing s with
  | nil => exact List.prefix_refl _
  | cons e es ih =>
      obtain ⟨l, hl⟩ := calls_step Session decode s e
      refine List.IsPrefix.trans ?_ (ih _)
      rw [hl]
      exact List.prefix_append _ _

/-! ## Whose decision counts -/

theorem getElem?_calls_run {s : State D} {calls : List Call} {call : Call} (h : s.calls = calls ++ [call])
    (es : List Event) : ((machine Session decode).run s es).calls[calls.length]? = some call := by
  obtain ⟨l, hl⟩ := calls_run Session decode s es
  rw [← hl, h, List.append_assoc, List.getElem?_append_right (le_refl _), Nat.sub_self]
  rfl

/-- **A callback that asks** returns what JavaScript answers to its own request, and nothing before that. -/
theorem decides_by_answer {pre post : List Event} {v : ViewId} {r : String}
    (h : (machine Session decode).Admits (machine Session decode).init (pre ++ .tokenize v r :: post))
    (hasks : ((machine Session decode).run (machine Session decode).init pre).asks v = true) :
    ((machine Session decode).run (machine Session decode).init (pre ++ .tokenize v r :: post)).returned
      ((machine Session decode).run (machine Session decode).init pre).calls.length =
      ((firstAnswer r post).map fun answer => tokenizedResult answer.1 answer.2).toList := by
  obtain ⟨hpre, -, hpost⟩ := (Machine.admits_append _ _ _ _).mp h
  obtain ⟨hadm, hrel, -⟩ := (views Session decode).run_rel (views Session decode).init h
  obtain ⟨-, hrelpre, -⟩ := (views Session decode).run_rel (views Session decode).init hpre
  have hmoves : (views Session decode).moves ((machine Session decode).run (machine Session decode).init pre)
      (.tokenize v r) = [.bridgeOnTokenized v r] := by
    exact (moves_tokenize _ v r).trans (if_pos hasks)
  rw [Simulation.trace_append, Simulation.trace, hmoves, List.singleton_append] at hadm hrel
  have hout := outcome_of_request hadm ⟨_, _, rfl, rfl, rfl⟩
  rw [firstResponse_trace, ← hrelpre] at hout
  rw [Machine.run_append, Machine.run_cons] at hrel ⊢
  generalize hs : (machine Session decode).run (machine Session decode).init pre = s at *
  have hcalls : ((machine Session decode).step s (.tokenize v r)).calls = s.calls ++ [.suspended s.ios.calls] := by
    change (s.tokenize v r).calls = _
    simp only [State.tokenize, hasks, if_true]
  rw [State.returned, getElem?_calls_run hcalls]
  dsimp only
  rw [hrel]
  cases hfirst : firstAnswer r post with
  | none =>
      rw [hfirst] at hout
      rw [hout.1]
      rfl
  | some answer =>
      rw [hfirst] at hout
      rw [hout.1]
      rfl

/-- A callback that does not ask accepts at once. -/
theorem accepts_of_not_asks {s : State D} {v : ViewId} (hasks : s.asks v = false) (r : String) (es : List Event) :
    ((machine Session decode).run ((machine Session decode).step s (.tokenize v r)) es).returned s.calls.length =
      [.accepted] := by
  have hcalls : ((machine Session decode).step s (.tokenize v r)).calls = s.calls ++ [.returned .accepted] := by
    change (s.tokenize v r).calls = _
    simp only [State.tokenize, hasks, Bool.false_eq_true, if_false]
  rw [State.returned, getElem?_calls_run hcalls]

/-- From the moment the SDK hands a result to `v`, through every part of the run that follows: the callback has not
returned while JavaScript has not answered the request `r`, has accepted if it has answered `true`, and has rejected
with its message if it has answered `false`. -/
def Enforced (Session : Set String) (decode : String → Option D) (pre : List Event) (v : ViewId) (r : String)
    (post : List Event) : Prop :=
  ∀ post', post' <+: post →
    let returned := ((machine Session decode).run (machine Session decode).init
      (pre ++ .tokenize v r :: post')).returned
        ((machine Session decode).run (machine Session decode).init pre).calls.length
    (firstAnswer r post' = none → returned = []) ∧
      (∀ message, firstAnswer r post' = some (true, message) → returned = [.accepted]) ∧
      ∀ message, firstAnswer r post' = some (false, message) → returned = [.rejected message]

/-- **JavaScript's decision is enforced** for a view that announced its listener exactly if the view is a `CardPayView`
that is still there. -/
theorem decision_enforced_iff (Session : Set String) (decode : String → Option D) (pre post : List Event) (v : ViewId)
    (r : String) (h : (machine Session decode).Admits (machine Session decode).init (pre ++ .tokenize v r :: post))
    (hinit : ((machine Session decode).run (machine Session decode).init pre).initializedWith v = true)
    (hkept : ((machine Session decode).run (machine Session decode).init pre).hasOnTokenizedListener v = true) :
    Enforced Session decode pre v r post ↔
      (((machine Session decode).run (machine Session decode).init pre).ios.view v).viewClass = .card ∧
        ((machine Session decode).run (machine Session decode).init pre).ios.Live v := by
  have hiff : ((machine Session decode).run (machine Session decode).init pre).asks v = true ↔
      (((machine Session decode).run (machine Session decode).init pre).ios.view v).viewClass = .card ∧
        ((machine Session decode).run (machine Session decode).init pre).ios.Live v := by
    rw [asks_iff, State.callback, hinit, hkept]
    cases (((machine Session decode).run (machine Session decode).init pre).ios.view v).viewClass with
    | applePay => simp [onTokenized]
    | card => simp [onTokenized]
  rw [← hiff]
  constructor
  · intro he
    by_contra hasks
    have hnow := (he [] List.nil_prefix).1 rfl
    rw [Machine.run_append, Machine.run_cons, accepts_of_not_asks (Bool.eq_false_iff.mpr hasks)] at hnow
    cases hnow
  · rintro hasks post' ⟨rest, rfl⟩
    rw [← List.cons_append, ← List.append_assoc] at h
    have hreturned := decides_by_answer ((Machine.admits_append _ _ _ _).mp h).1 hasks
    refine ⟨fun hnone => ?_, fun message hyes => ?_, fun message hno => ?_⟩
    · rw [hreturned, hnone]
      rfl
    · rw [hreturned, hyes]
      rfl
    · rw [hreturned, hno]
      rfl

def sampleView (c : ViewClass) : List Event :=
  [.ios (.create 0 c), .setHasOnTokenizedListener 0 true, .ios (.setProperty 0 (.paymentSessionID (some "ps_1"))),
    .ios (.setProperty 0 (.paymentSessionSecret (some "pss"))), .ios (.setProperty 0 (.publicKey (some "pk"))),
    .ios (.beginInitialize ⟨0, "ps_1", "pss", "pk"⟩),
    .ios (.finishInitialize ⟨0, "ps_1", "pss", "pk"⟩ (.created (some true) true))]

theorem sampleView_admits (c : ViewClass) :
    (machine (D := Unit) {"ps_1"} fun _ => none).Admits (machine {"ps_1"} fun _ => none).init (sampleView c) := by
  refine ⟨⟨nofun, rfl⟩, rfl, ⟨nofun, rfl, Property.session_mem rfl⟩, ⟨nofun, rfl, nofun⟩, ⟨nofun, rfl, nofun⟩,
    ⟨nofun, List.mem_singleton_self _⟩, ⟨nofun, List.mem_singleton_self _⟩, trivial⟩

/-- Two results for one card view, the second one answered first. -/
theorem decision_enforced_for_card :
    Enforced (D := Unit) {"ps_1"} (fun _ => none) (sampleView .card) 0 "req-1"
      [.tokenize 0 "req-2", .ios (.handleTokenizedResponse "req-2" true none [("ps_1", [0])]),
        .ios (.handleTokenizedResponse "req-1" false (some "no") [("ps_1", [0])])] := by
  refine (decision_enforced_iff {"ps_1"} (fun _ => none) (sampleView .card) _ 0 "req-1" ?_ rfl rfl).mpr ⟨rfl, rfl⟩
  have hfresh : ∀ {r : String}, r ≠ "ps_1" → r ∉ ({"ps_1"} : Set String) := fun hne h => hne h
  refine (Machine.admits_append _ _ _ _).mpr ⟨sampleView_admits .card, ⟨nofun, nofun, hfresh (by decide), nofun⟩,
    ⟨nofun, nofun, hfresh (by decide), by decide⟩, ⟨nofun, List.Perm.refl _⟩, ⟨nofun, List.Perm.refl _⟩, trivial⟩

/-- **`ApplePayView` accepts without asking**: JavaScript is never told of the result, let alone waited for. -/
theorem applePay_accepts_unasked :
    let M := machine (D := Unit) {"ps_1"} fun _ => none
    let s := M.run M.init (sampleView .applePay)
    let s' := M.run M.init (sampleView .applePay ++ [.tokenize 0 "req-1"])
    M.Admits M.init (sampleView .applePay ++ [.tokenize 0 "req-1"]) ∧ s.initializedWith 0 = true ∧
      s.hasOnTokenizedListener 0 = true ∧ s'.returned s.calls.length = [.accepted] ∧ s'.ios.emitted = [] ∧
      ¬ Enforced {"ps_1"} (fun _ => none : String → Option Unit) (sampleView .applePay) 0 "req-1" [] := by
  refine ⟨?_, rfl, rfl, rfl, rfl, fun he => ?_⟩
  · have hfresh : "req-1" ∉ ({"ps_1"} : Set String) := fun h => absurd h (by decide : "req-1" ≠ "ps_1")
    exact (Machine.admits_append _ _ _ _).mpr ⟨sampleView_admits .applePay, ⟨nofun, nofun, hfresh, nofun⟩, trivial⟩
  · cases (he [] List.nil_prefix).1 rfl

end FlowDemo.Ios.Tokenized
