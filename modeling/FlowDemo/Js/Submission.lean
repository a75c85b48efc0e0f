import FlowDemo.Lib.Ends
import FlowDemo.Js.AppRuns

/-!
# The submissions in JavaScript's hands

Any number of `CardView`s are mounted, each with `handleSubmit` of `App.tsx` as its handler. The listener of every one
mounted then hears an event of the native views; each has `handleSubmit` post the submission to the backend, and hands
what comes of it to the native module. Events, replies and responses take their time, and overtake each other.

* `Answers`: what comes of a submission is made of a reply to its own `POST`, or there was nothing to post;
* `Answers.cases`: what that is, on the screen and in the response;
* `Handled`: the invariant of the loop over the listeners, and `Inv`: the traffic is that of a relay, and a submission
  was posted as many times as it was heard;
* `Stage`: where a submission is.
-/

namespace FlowDemo.Js.Submission

open App (Screen Request Reply ApiCallResult Approves Garbles Succeeds Fails responseData submitRequest beginSubmit
  settleSubmit catchSubmit)

/-- The `POST` of a submission, unless there is no session data to submit. -/
def submitPost (J : JsonText) (q : SessionData) : Option Request :=
  match q.sessionData with
  | none | some "" => none
  | some raw => some (submitRequest J q.id raw)

/-- What comes of a submission: the reply to its `POST`, if there was one, what the App then shows, and the call of
`handleSubmitResponse`. -/
structure Answer where
  reply : Option Reply
  screen : Screen
  response : NativeResponse

/-- `handleSubmit` goes on to its end, and then the listener. -/
def settled (J : JsonText) (requestId : String) (screen : Screen) (reply : Option Reply) : Answer :=
  let done := match reply with
    | none => catchSubmit screen "No session data available for submission"
    | some reply => settleSubmit J screen reply
  ⟨reply, done.1, onCardHandleSubmit requestId (.ok done.2)⟩

/-! ## The machine -/

structure State where
  mounted : List ComponentId := []
  traffic : Relay.State String SessionData Answer := {}
  posts : List (String × Request) := []
  screen : Screen := {}

inductive Event
  /-- a `CardView` subscribes, and takes its subscription back -/
  | mount (c : ComponentId)
  | unmount (c : ComponentId)
  /-- a native view emits the event of a submission -/
  | emit (requestId : String) (q : SessionData)
  /-- the event reaches JavaScript -/
  | listen (requestId : String)
  | reply (requestId : String) (reply : Reply)
  /-- the native module gets the response -/
  | deliver (requestId : String)
  /-- whatever else the App shows -/
  | shows (screen : Screen)

namespace State

variable (J : JsonText)

def emit (s : State) (requestId : String) (q : SessionData) : State :=
  { s with traffic := Relay.step s.traffic (.ask requestId q) }

/-- A listener hears the event, and `handleSubmit` runs up to its `fetch` or to its end. -/
def handle (s : State) (requestId : String) (q : SessionData) : State :=
  match submitPost J q with
  | none =>
      let answer := settled J requestId (beginSubmit s.screen) none
      { s with traffic := Relay.step s.traffic (.finish requestId answer), screen := answer.screen }
  | some post => { s with posts := s.posts ++ [(requestId, post)], screen := beginSubmit s.screen }

/-- The device event goes to the listener of every mounted component. -/
def listen (s : State) (requestId : String) : State :=
  match s.traffic.travelling.lookup requestId with
  | none => s
  | some q =>
      s.mounted.foldl (fun t _ => t.handle J requestId q)
        { s with traffic := Relay.step s.traffic (.hear requestId s.mounted.length) }

def reply (s : State) (requestId : String) (reply : Reply) : State :=
  let answer := settled J requestId s.screen (some reply)
  { s with
    traffic := Relay.step s.traffic (.finish requestId answer)
    screen := answer.screen }

def deliver (s : State) (requestId : String) : State :=
  { s with traffic := Relay.step s.traffic (.deliver requestId) }

def postsOf (s : State) (requestId : String) : List Request :=
  (s.posts.filter fun x => x.1 = requestId).map Prod.snd

def answerTo (s : State) (requestId : String) : Option Answer := s.traffic.delivered.lookup requestId

end State

/-- The request ids are fresh. -/
def machine (J : JsonText) : Machine State Event where
  init := {}
  allowed s e := match e with
    | .mount c => c ∉ s.mounted
    | .unmount _ => True
    | .emit r _ => ∀ q, (r, q) ∉ s.traffic.asked
    | .listen r => ∃ q, s.traffic.travelling.lookup r = some q
    | .reply r _ => ∃ q, s.traffic.working.lookup r = some q
    | .deliver r => ∃ a, s.traffic.returning.lookup r = some a
    | .shows _ => True
  step s e := match e with
    | .mount c => { s with mounted := s.mounted ++ [c] }
    | .unmount c => { s with mounted := s.mounted.erase c }
    | .emit r q => s.emit r q
    | .listen r => s.listen J r
    | .reply r reply => s.reply J r reply
    | .deliver r => s.deliver r
    | .shows screen => { s with screen := screen }

/-! ## Answers -/

/-- There is session data to submit. -/
def Submittable (q : SessionData) : Prop := ∃ raw, q.sessionData = some raw ∧ raw ≠ ""

/-- **An answer to `q` under `r`** is made of a reply to its `POST`, or of none if there is nothing to submit. -/
def Answers (J : JsonText) (r : String) (q : SessionData) (a : Answer) : Prop :=
  ∃ screen reply, a = settled J r screen reply ∧ (reply = none ↔ ¬ Submittable q)

/-- The App approves the reply, whose document is `doc`. -/
def Approved (J : JsonText) (a : Answer) (doc : Json) : Prop :=
  ∃ status body, a.reply = some (.response status body) ∧
    (J.parse body).getD (.obj [("raw", .str body)]) = doc ∧ Approves status doc

/-- A success is on the screen, and the response carries the document. -/
structure HandsOver (J : JsonText) (a : Answer) (doc : Json) : Prop where
  shown : a.screen.ShowsSuccess
  error : a.screen.error = none
  success : a.response.success = true
  data : ∃ rest, a.response.data = ("response", some (.str (J.stringify doc))) :: rest

/-- An error is on the screen, and the response carries one. -/
structure Refuses (a : Answer) : Prop where
  notShown : ¬ a.screen.ShowsSuccess
  error : a.screen.error.isSome = true
  success : a.response.success = false
  data : ∃ e, a.response.data = [("error", e)]

section

variable {J : JsonText} {r : String} {q : SessionData} {a : Answer}

theorem submitPost_eq_none_iff (J : JsonText) (q : SessionData) : submitPost J q = none ↔ ¬ Submittable q := by
  unfold submitPost Submittable
  cases hraw : q.sessionData with
  | none => simp
  | some raw =>
      by_cases hempty : raw = ""
      · simp [hempty]
      · simp [hempty]

theorem Answers.requestId (h : Answers J r q a) : a.response.requestId = r := by
  obtain ⟨screen, reply, rfl, -⟩ := h
  rfl

theorem settleSubmit_succeeds {status : Nat} {body : String} (h : Approves status (responseData J body))
    (screen : Screen) : Succeeds J (responseData J body) (settleSubmit J screen (.response status body)) := by
  obtain ⟨done, hdone, hs⟩ := App.onOk_approved J h screen
  simp only [settleSubmit, if_pos h.1, hdone]
  exact hs

theorem settleSubmit_fails {reply : Reply} (h : ¬ reply.Approves J) (screen : Screen) :
    ∃ e, Fails e (settleSubmit J screen reply) := by
  cases reply with
  | rejected error => exact ⟨_, App.catchSubmit_fails screen error⟩
  | response status body =>
      have hrefused : ¬ Approves status (responseData J body) := fun ha => h ⟨status, body, rfl, ha⟩
      cases hok : App.ok status with
      | true =>
          obtain ⟨e, he⟩ := App.onOk_refused J hok hrefused screen
          refine ⟨some (.str e), ?_⟩
          simp only [settleSubmit, hok, if_true, he]
          exact App.catchSubmit_fails screen e
      | false =>
          obtain ⟨hgarbles, hplain⟩ := App.onNotOk_cases J (responseData J body) hok screen
          by_cases hg : Garbles status (responseData J body)
          · obtain ⟨done, hdone, hf⟩ := hgarbles hg
            simp only [settleSubmit, hok, Bool.false_eq_true, if_false, hdone]
            exact ⟨_, hf⟩
          · rcases hplain hg with ⟨e, he⟩ | ⟨message, done, hdone, hf⟩
            · simp only [settleSubmit, hok, Bool.false_eq_true, if_false, he]
              exact ⟨_, App.catchSubmit_fails screen e⟩
            · simp only [settleSubmit, hok, Bool.false_eq_true, if_false, hdone]
              exact ⟨_, hf⟩

/-- The listener puts the error last, and drops an earlier one. -/
theorem handsOver_of_succeeds {doc : Json} {done : Screen × ApiCallResult} (h : Succeeds J doc done)
    (reply : Option Reply) (r : String) : HandsOver J ⟨reply, done.1, onCardHandleSubmit r (.ok done.2)⟩ doc := by
  obtain ⟨rest, hdata⟩ := h.data
  refine ⟨h.shown, h.noError, h.success, ?_⟩
  simp [onCardHandleSubmit, hdata, Object.assign]

theorem refuses_of_fails {e : Value} {done : Screen × ApiCallResult} (h : Fails e done) (reply : Option Reply)
    (r : String) : Refuses ⟨reply, done.1, onCardHandleSubmit r (.ok done.2)⟩ := by
  refine ⟨h.notShown, h.error, h.success, e, ?_⟩
  simp [onCardHandleSubmit, h.data, h.returned, Object.assign]

/-- **What comes of a submission**: the App approves the reply and hands its document over, or it refuses. -/
theorem Answers.cases (h : Answers J r q a) :
    (∃ doc, Approved J a doc ∧ HandsOver J a doc) ∨ (∀ doc, ¬ Approved J a doc) ∧ Refuses a := by
  obtain ⟨screen, reply, rfl, -⟩ := h
  cases reply with
  | none =>
      have hf := App.catchSubmit_fails screen "No session data available for submission"
      refine Or.inr ⟨?_, refuses_of_fails hf none r⟩
      rintro doc ⟨status, body, heq, -⟩
      cases heq
  | some reply =>
      by_cases happ : reply.Approves J
      · obtain ⟨status, body, rfl, happ⟩ := happ
        exact Or.inl ⟨_, ⟨status, body, rfl, rfl, happ⟩, handsOver_of_succeeds (settleSubmit_succeeds happ screen) _ r⟩
      · obtain ⟨e, hf⟩ := settleSubmit_fails happ screen
        refine Or.inr ⟨?_, refuses_of_fails hf _ r⟩
        rintro doc ⟨status, body, heq, rfl, ha⟩
        obtain rfl := Option.some.inj heq
        exact happ ⟨status, body, rfl, ha⟩

end

/-! ## The invariant -/

/-- The `POST`s of a submission that `n` listeners handle. -/
def postsFor (J : JsonText) (q : SessionData) (n : Nat) : List Request :=
  match q.sessionData with
  | none | some "" => []
  | some raw => List.replicate n
      { url := "https://api.sandbox.checkout.com/payment-sessions/" ++ q.id ++ "/submit"
        method := "POST"
        body := J.stringify (.obj [("session_data", .str raw), ("3ds", .obj [("enabled", .bool true)])]) }

/-- **Of the listeners of each request, as many as `handled` says have run.** They posted it once each, or answered it
at once if there was nothing to post. -/
structure Handled (J : JsonText) (handled : String → Nat) (s : State) : Prop where
  sound : Relay.Sound (Answers J) s.traffic
  unasked : ∀ r, (∀ q, (r, q) ∉ s.traffic.asked) → s.postsOf r = []
  posts : ∀ x ∈ s.traffic.asked, s.postsOf x.1 = postsFor J x.2 (handled x.1)
  answered : ∀ x ∈ s.traffic.asked, submitPost J x.2 = none →
    Relay.copies s.traffic.working x.1 + handled x.1 = s.traffic.hearers x.1

/-- **The traffic is that of a relay, and all the listeners have run.** -/
def Inv (J : JsonText) (s : State) : Prop := Handled J s.traffic.hearers s

section

variable {J : JsonText} {s : State}

theorem inv_init : Inv J (machine J).init := by
  have hsound : Relay.Sound (Answers J) (Relay.machine (Answers J)).init := Relay.sound_init
  constructor
  case sound => exact hsound
  case unasked => exact fun r _ => rfl
  case posts => exact fun x hx => absurd hx List.not_mem_nil
  case answered => exact fun x hx => absurd hx List.not_mem_nil

theorem postsFor_eq (J : JsonText) (q : SessionData) (n : Nat) :
    postsFor J q n = match submitPost J q with
      | none => []
      | some post => List.replicate n post := by
  unfold postsFor submitPost
  split <;> rfl

theorem postsFor_zero (J : JsonText) (q : SessionData) : postsFor J q 0 = [] := by
  rw [postsFor_eq]
  split <;> rfl

theorem postsFor_of_none {q : SessionData} (h : submitPost J q = none) (n : Nat) : postsFor J q n = [] := by
  rw [postsFor_eq, h]

theorem postsFor_succ {q : SessionData} {post : Request} (h : submitPost J q = some post) (n : Nat) :
    postsFor J q (n + 1) = postsFor J q n ++ [post] := by
  rw [postsFor_eq, postsFor_eq, h]
  exact List.replicate_succ'

theorem Inv.emit (h : Inv J s) {r : String} (hr : ∀ q, (r, q) ∉ s.traffic.asked) (q : SessionData) :
    Inv J (s.emit r q) := by
  have hzero : s.traffic.hearers r = 0 := congrArg (Option.getD · 0) (h.sound.not_heard_of_not_asked hr)
  refine ⟨Relay.sound_ask h.sound hr q, fun r' hr' => ?_, fun x hx => ?_, fun x hx hnone => ?_⟩
  · exact h.unasked r' fun q' hq' => hr' q' (List.mem_append_left _ hq')
  · rcases List.mem_append.mp hx with hx | hx
    · exact h.posts x hx
    · rw [List.mem_singleton.mp hx]
      change s.postsOf r = postsFor J q (s.traffic.hearers r)
      rw [h.unasked r hr, hzero, postsFor_zero]
  · rcases List.mem_append.mp hx with hx | hx
    · exact h.answered x hx hnone
    · rw [List.mem_singleton.mp hx]
      have hworking : Relay.copies s.traffic.working r = 0 :=
        Relay.copies_eq_zero_iff.mpr fun q' hq' => hr q' (h.sound.working _ hq')
      change Relay.copies s.traffic.working r + s.traffic.hearers r = s.traffic.hearers r
      rw [hworking, Nat.zero_add]

/-- What is worked on was posted. -/
theorem Inv.posted (h : Inv J s) {r : String} {q : SessionData} (hq : (r, q) ∈ s.traffic.working) :
    submitPost J q ≠ none := by
  intro hnone
  have hanswered := h.answered _ (h.sound.working _ hq) hnone
  have hpos := Relay.copies_pos hq
  change Relay.copies s.traffic.working r + s.traffic.hearers r = s.traffic.hearers r at hanswered
  omega

/-! ### The loop over the listeners -/

/-- The event is in the hands of the listeners, and none has run. -/
theorem Inv.hear (h : Inv J s) {r : String} {q : SessionData} (hq : s.traffic.travelling.lookup r = some q) (n : Nat) :
    Handled J s.traffic.hearers { s with traffic := Relay.step s.traffic (.hear r n) } := by
  have hmem := Relay.mem_of_lookup hq
  have hsound := Relay.sound_hear h.sound hq n
  have hhearers := h.sound.hearers_hear hq n
  have hzero : s.traffic.hearers r = 0 := congrArg (Option.getD · 0) (h.sound.not_heard hmem)
  rw [Relay.hear_eq hq] at hsound hhearers ⊢
  refine ⟨hsound, h.unasked, h.posts, fun x hx hpost => ?_⟩
  have hanswered := h.answered x hx hpost
  rw [hhearers]
  change Relay.copies (s.traffic.working ++ List.replicate n (r, q)) x.1 + s.traffic.hearers x.1 = _
  rw [Relay.copies_append, Relay.copies_replicate]
  by_cases hr : r = x.1
  · rw [← hr] at hanswered ⊢
    rw [if_pos rfl, Function.update_self]
    omega
  · rw [if_neg hr, Function.update_of_ne (Ne.symm hr)]
    omega

theorem postsOf_concat (s : State) (r : String) (post : Request) (r' : String) :
    State.postsOf { s with posts := s.posts ++ [(r, post)] } r' = s.postsOf r' ++ if r = r' then [post] else [] := by
  change ((s.posts ++ [(r, post)]).filter fun x => x.1 = r').map Prod.snd = _
  rw [List.filter_append, List.map_append]
  by_cases hr : r = r' <;> simp [State.postsOf, hr]

variable {handled : String → Nat}

theorem Handled.same (h : Handled J handled s) {r : String} {q : SessionData} (hq : (r, q) ∈ s.traffic.asked)
    {x : String × SessionData} (hx : x ∈ s.traffic.asked) (hr : x.1 = r) : x = (r, q) := by
  obtain ⟨_, q'⟩ := x
  obtain rfl := hr
  rw [h.sound.unique hx hq]

/-- One more listener runs, and there is nothing to post. -/
theorem Handled.answer (h : Handled J handled s) {r : String} {q : SessionData} (hq : (r, q) ∈ s.traffic.asked)
    (hlt : handled r < s.traffic.hearers r) (hpost : submitPost J q = none) (screen : Screen) :
    Handled J (Function.update handled r (handled r + 1))
      { s with
        traffic := Relay.step s.traffic (.finish r (settled J r (beginSubmit s.screen) none))
        screen := screen } := by
  have hcopies : Relay.copies s.traffic.working r + handled r = s.traffic.hearers r := h.answered _ hq hpost
  have hpos : 0 < Relay.copies s.traffic.working r := by omega
  have hans : Answers J r q (settled J r (beginSubmit s.screen) none) :=
    ⟨_, none, rfl, iff_of_true rfl ((submitPost_eq_none_iff J q).mp hpost)⟩
  refine ⟨Relay.sound_finish h.sound (h.sound.lookup_working hq hpos) hans, h.unasked, fun x hx => ?_,
    fun x hx hnone => ?_⟩
  · by_cases hxr : x.1 = r
    · obtain rfl := h.same hq hx hxr
      rw [postsFor_of_none hpost]
      exact (h.posts _ hx).trans (postsFor_of_none hpost _)
    · rw [Function.update_of_ne hxr]
      exact h.posts x hx
  · have hanswered := h.answered x hx hnone
    have hmove := Relay.copies_without_add hpos x.1
    change Relay.copies (Relay.without s.traffic.working r) x.1 + _ = s.traffic.hearers x.1
    by_cases hxr : x.1 = r
    · rw [if_pos hxr.symm] at hmove
      rw [hxr] at hanswered hmove ⊢
      rw [Function.update_self]
      omega
    · rw [if_neg (Ne.symm hxr)] at hmove
      rw [Function.update_of_ne hxr]
      omega

/-- One more listener runs, and posts. -/
theorem Handled.post (h : Handled J handled s) {r : String} {q : SessionData} (hq : (r, q) ∈ s.traffic.asked)
    {post : Request} (hpost : submitPost J q = some post) (screen : Screen) :
    Handled J (Function.update handled r (handled r + 1))
      { s with posts := s.posts ++ [(r, post)], screen := screen } := by
  refine ⟨h.sound, fun r' hr' => ?_, fun x hx => ?_, fun x hx hnone => ?_⟩
  · have hne : r ≠ r' := by
      rintro rfl
      exact hr' q hq
    refine (postsOf_concat s r post r').trans ?_
    rw [if_neg hne, List.append_nil]
    exact h.unasked r' hr'
  · refine (postsOf_concat s r post x.1).trans ?_
    rw [h.posts x hx]
    by_cases hxr : x.1 = r
    · obtain rfl := h.same hq hx hxr
      rw [if_pos rfl, Function.update_self, postsFor_succ hpost]
    · rw [if_neg (Ne.symm hxr), List.append_nil, Function.update_of_ne hxr]
  · by_cases hxr : x.1 = r
    · obtain rfl := h.same hq hx hxr
      rw [hpost] at hnone
      cases hnone
    · rw [Function.update_of_ne hxr]
      exact h.answered x hx hnone

theorem Handled.handle (h : Handled J handled s) {r : String} {q : SessionData} (hq : (r, q) ∈ s.traffic.asked)
    (hlt : handled r < s.traffic.hearers r) :
    Handled J (Function.update handled r (handled r + 1)) (s.handle J r q) := by
  unfold State.handle
  cases hpost : submitPost J q with
  | none => exact h.answer hq hlt hpost _
  | some post => exact h.post hq hpost _

theorem handle_frame (s : State) (r : String) (q : SessionData) :
    (s.handle J r q).traffic.asked = s.traffic.asked ∧ (s.handle J r q).traffic.delivered = s.traffic.delivered ∧
      (s.handle J r q).traffic.heard = s.traffic.heard := by
  unfold State.handle
  split <;> exact ⟨rfl, rfl, rfl⟩

theorem Handled.foldl (h : Handled J handled s) {r : String} {q : SessionData}
    (hq : (r, q) ∈ s.traffic.asked) {left : List ComponentId}
    (hleft : handled r + left.length = s.traffic.hearers r) :
    Handled J (Function.update handled r (s.traffic.hearers r)) (left.foldl (fun t _ => t.handle J r q) s) := by
  induction left generalizing s handled with
  | nil =>
      rw [← hleft, List.length_nil, Nat.add_zero, Function.update_eq_self]
      exact h
  | cons c left ih =>
      rw [List.length_cons] at hleft
      have hframe := handle_frame (J := J) s r q
      have hhearers : (s.handle J r q).traffic.hearers = s.traffic.hearers := by
        unfold Relay.State.hearers
        rw [hframe.2.2]
      have hnext := ih (h.handle hq (by omega)) (hframe.1 ▸ hq) (by
        rw [hhearers, Function.update_self]
        omega)
      rw [hhearers, Function.update_idem] at hnext
      exact hnext

theorem foldl_frame (s : State) (r : String) (q : SessionData) (left : List ComponentId) :
    (left.foldl (fun t _ => t.handle J r q) s).traffic.asked = s.traffic.asked ∧
      (left.foldl (fun t _ => t.handle J r q) s).traffic.delivered = s.traffic.delivered ∧
      (left.foldl (fun t _ => t.handle J r q) s).traffic.heard = s.traffic.heard := by
  induction left generalizing s with
  | nil => exact ⟨rfl, rfl, rfl⟩
  | cons c left ih =>
      obtain ⟨hasked, hdelivered, hheard⟩ := handle_frame (J := J) s r q
      obtain ⟨hasked', hdelivered', hheard'⟩ := ih (s.handle J r q)
      exact ⟨hasked'.trans hasked, hdelivered'.trans hdelivered, hheard'.trans hheard⟩

/-- What a hearing leaves of the traffic, and what it adds. -/
theorem listen_frame {r : String} {q : SessionData} (hq : s.traffic.travelling.lookup r = some q) :
    (s.listen J r).traffic.asked = s.traffic.asked ∧ (s.listen J r).traffic.delivered = s.traffic.delivered ∧
      (s.listen J r).traffic.heard = s.traffic.heard ++ [(r, s.mounted.length)] := by
  unfold State.listen
  rw [hq]
  dsimp only
  rw [Relay.hear_eq hq]
  exact foldl_frame _ r q s.mounted

theorem Inv.listen (h : Inv J s) {r : String} {q : SessionData} (hq : s.traffic.travelling.lookup r = some q) :
    Inv J (s.listen J r) := by
  have hmem := Relay.mem_of_lookup hq
  have hhearers := h.sound.hearers_hear hq s.mounted.length
  have hzero : s.traffic.hearers r = 0 := congrArg (Option.getD · 0) (h.sound.not_heard hmem)
  have hasked : (r, q) ∈ (Relay.step s.traffic (.hear r s.mounted.length)).asked := by
    rw [Relay.hear_eq hq]
    exact h.sound.travelling _ hmem
  have hleft : s.traffic.hearers r + s.mounted.length =
      (Relay.step s.traffic (.hear r s.mounted.length)).hearers r := by
    rw [hhearers, Function.update_self, hzero, Nat.zero_add]
  have hrun := (h.hear hq s.mounted.length).foldl hasked hleft
  have hheard := (foldl_frame (J := J) { s with traffic := Relay.step s.traffic (.hear r s.mounted.length) } r q
    s.mounted).2.2
  rw [hhearers, Function.update_self, ← hhearers] at hrun
  unfold Inv State.listen
  rw [hq]
  unfold Relay.State.hearers at hrun ⊢
  rw [hheard]
  exact hrun

theorem Inv.reply (h : Inv J s) {r : String} {q : SessionData} (hq : s.traffic.working.lookup r = some q)
    (reply : Reply) : Inv J (s.reply J r reply) := by
  have hmem := Relay.mem_of_lookup hq
  have hposted := h.posted hmem
  have hans : Answers J r q (settled J r s.screen (some reply)) :=
    ⟨_, some reply, rfl, iff_of_false (Option.some_ne_none reply) fun hno =>
      hposted ((submitPost_eq_none_iff J q).mpr hno)⟩
  refine ⟨Relay.sound_finish h.sound hq hans, h.unasked, h.posts, fun x hx hnone => ?_⟩
  have hanswered := h.answered x hx hnone
  have hmove := Relay.copies_without_add (Relay.copies_pos hmem) x.1
  have hne : r ≠ x.1 := by
    rintro rfl
    rw [h.sound.unique (h.sound.working _ hmem) hx] at hposted
    exact hposted hnone
  rw [if_neg hne] at hmove
  change Relay.copies (Relay.without s.traffic.working r) x.1 + s.traffic.hearers x.1 = s.traffic.hearers x.1
  omega

theorem Inv.deliver (h : Inv J s) {r : String} {a : Answer} (ha : s.traffic.returning.lookup r = some a) :
    Inv J (s.deliver r) := by
  have hsound := Relay.sound_deliver h.sound ha
  unfold Inv State.deliver
  rw [Relay.deliver_eq ha] at hsound ⊢
  exact ⟨hsound, h.unasked, h.posts, h.answered⟩

theorem inv_step (s : State) (e : Event) (h : Inv J s) (he : (machine J).allowed s e) :
    Inv J ((machine J).step s e) := by
  cases e with
  | mount c => exact ⟨h.sound, h.unasked, h.posts, h.answered⟩
  | unmount c => exact ⟨h.sound, h.unasked, h.posts, h.answered⟩
  | emit r q => exact h.emit he q
  | listen r =>
      obtain ⟨q, hq⟩ := he
      exact h.listen hq
  | reply r reply =>
      obtain ⟨q, hq⟩ := he
      exact h.reply hq reply
  | deliver r =>
      obtain ⟨a, ha⟩ := he
      exact h.deliver ha
  | shows screen => exact ⟨h.sound, h.unasked, h.posts, h.answered⟩

/-! ## Where a submission is -/

/-- **Where the submission `q` under `r` is**: its event is on its way, and nothing else; or it was heard by `n`
components. Then it was posted as many times, unless there was nothing to post, and for each of them the reply is
awaited, the response is on its way, or that has arrived. -/
inductive Stage (J : JsonText) (s : State) (r : String) (q : SessionData) : Option Nat → Prop
  | travelling (h : (r, q) ∈ s.traffic.travelling) (hplaces : s.traffic.places r = 0) (hposts : s.postsOf r = []) :
      Stage J s r q none
  | heard (n : Nat) (h : ∀ q', (r, q') ∉ s.traffic.travelling) (hplaces : s.traffic.places r = n)
      (hposts : s.postsOf r = postsFor J q n)
      (hworking : ∀ q', (r, q') ∈ s.traffic.working → q' = q ∧ Submittable q)
      (hanswers : ∀ a, (r, a) ∈ s.traffic.returning ++ s.traffic.delivered → Answers J r q a) : Stage J s r q (some n)

theorem Inv.stage (h : Inv J s) {r : String} {q : SessionData} (hq : (r, q) ∈ s.traffic.asked) :
    Stage J s r q (s.traffic.heard.lookup r) := by
  have hposts := h.posts _ hq
  have hplace := h.sound.place hq
  have hown : ∀ {q'}, (r, q') ∈ s.traffic.asked → q' = q := fun hq' => h.sound.unique hq' hq
  cases hl : s.traffic.heard.lookup r with
  | none =>
      rw [hl] at hplace
      cases hplace with
      | travelling hmem hplaces =>
          refine .travelling hmem hplaces (hposts.trans ?_)
          rw [Relay.State.hearers, hl]
          exact postsFor_zero J q
  | some n =>
      rw [hl] at hplace
      cases hplace with
      | heard _ hnot hplaces =>
          refine .heard n hnot hplaces ?_ (fun q' hq' => ?_) fun a ha => ?_
          · rw [hposts]
            exact congrArg (postsFor J q) (Relay.hearers_of_lookup hl)
          · obtain rfl := hown (h.sound.working _ hq')
            exact ⟨rfl, not_not.mp ((submitPost_eq_none_iff J _).not.mp (h.posted hq'))⟩
          · rcases List.mem_append.mp ha with ha | ha
            · obtain ⟨q', hq', hans⟩ := h.sound.returning _ ha
              exact hown hq' ▸ hans
            · obtain ⟨q', hq', hans⟩ := h.sound.delivered _ ha
              exact hown hq' ▸ hans

/-! ## The working end of a relay -/

/-- **JavaScript works for the native views.** -/
def worker (J : JsonText) : Relay.Worker (machine J) (Answers J) where
  traffic := State.traffic
  ask r q := .emit r q
  deliver r := .deliver r
  hear r := .listen r
  listeners s := s.mounted.length
  Own e := (∀ r q, e ≠ .emit r q) ∧ ∀ r, e ≠ .deliver r
  Inv := Inv J
  idOf a := a.response.requestId
  init := ⟨inv_init, rfl⟩
  step := inv_step
  sound _ h := h.sound
  idOf_of_answers _ _ _ h := h.requestId
  allowed_ask _ _ _ h := h
  allowed_deliver _ _ a h := ⟨a, h⟩
  asked_ask _ _ _ := ⟨rfl, rfl⟩
  delivered_deliver t r a h := by
    change (t.deliver r).traffic.asked = _ ∧ (t.deliver r).traffic.delivered = _
    unfold State.deliver
    rw [Relay.deliver_eq h]
    exact ⟨rfl, rfl⟩
  own_frame t e he := by
    cases e with
    | emit r q => exact absurd rfl (he.1 r q)
    | listen r =>
        cases hq : t.traffic.travelling.lookup r with
        | none =>
            change (t.listen J r).traffic.asked = _ ∧ (t.listen J r).traffic.delivered = _
            unfold State.listen
            rw [hq]
            exact ⟨rfl, rfl⟩
        | some q =>
            have hframe := listen_frame (J := J) hq
            exact ⟨hframe.1, hframe.2.1⟩
    | deliver r => exact absurd rfl (he.2 r)
    | _ => exact ⟨rfl, rfl⟩
  heard_hear t r he := by
    obtain ⟨q, hq⟩ := he
    exact ⟨⟨q, Relay.mem_of_lookup hq⟩, (listen_frame hq).2.2⟩
  heard_ask _ _ _ := rfl
  heard_deliver t r := by
    change (Relay.step t.traffic (.deliver r)).heard = _
    unfold Relay.step
    dsimp only
    split <;> rfl
  heard_own t e he hne := by
    cases e with
    | listen r => exact absurd rfl (hne r)
    | deliver r => exact absurd rfl (he.2 r)
    | _ => rfl

end

end FlowDemo.Js.Submission
