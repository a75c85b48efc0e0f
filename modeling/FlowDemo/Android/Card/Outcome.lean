import FlowDemo.Android.Consumption
import FlowDemo.Android.Decode
import FlowDemo.Js.App

/-!
# The outcome of a submission on the screen and in the SDK

A submission goes from the pending request of a card view through `App.handleSubmit`, the listener of `CardView.tsx`,
the bridge and `CardModule.handleSubmitResponse` back to the callback that decodes it for the SDK. `App` judges the
answer by its HTTP status and by what it can show; the callback judges the text of the answer again.

* `outcome_agrees_iff`: the answers on which the two judgements coincide;
* `submission_transported`: an answer of the documented shape reaches the SDK unchanged.
-/

namespace FlowDemo.Android.Card

open Js (Json JsonText)
open Js.App (Screen Request Reply submitRequest responseData Approves Garbles Succeeds Fails)

variable {Session : Set String} {J : JsonText} {O : OrgJson} {s : State} {v : ViewId} {r : String} {c : Continuation}

/-- What the callback of the call `c` has returned to the SDK: nothing while it still waits. -/
def State.returned (O : OrgJson) (s : State) (c : Continuation) : Option ApiCallResult :=
  (s.resumed.lookup c).map (CardView.callbackResult O)

/-- `App` and the listener handle the submit event of request `requestId`, and the module its response. -/
def submission (J : JsonText) (fetch : Request → Reply) (screen : Screen) (s : State) (requestId : String)
    (sessionData : Js.SessionData) : Screen × State :=
  let (screen, result) := Js.App.handleSubmit J fetch screen sessionData
  let response := Js.onCardHandleSubmit requestId (.ok result)
  (screen, CardModule.handleSubmitResponse s response.requestId response.success (some (toReadableMap response.data)))

/-- `org.json` reads what `JSON.stringify` wrote for `doc`. -/
def ReadsBack (J : JsonText) (O : OrgJson) (doc : Json) : Prop :=
  O.JSONObject (J.stringify doc) = doc.written.members?

/-- **The screen and the SDK agree**: success is shown exactly if the SDK is given one, and an error is reported
exactly if the SDK is given a failure. -/
def Agree (screen : Screen) (returned : Option ApiCallResult) : Prop :=
  (screen.ShowsSuccess ↔ ∃ submission, returned = some (.success submission)) ∧
    (screen.error.isSome = true ↔ returned = some .failure)

/-- The answers on which they do: what `App` approves is an object the callback can decode, and no error message is
passed on that is not a text. -/
def Agreeable (status : Nat) (doc : Json) : Prop :=
  (Approves status doc → ∃ ms, doc.members? = some ms ∧ Decodable ms) ∧ ¬ Garbles status doc

/-! ## The way to the callback -/

/-- **A response to a pending request** makes the callback return what it decodes, unless it cannot be read. -/
theorem returned_handleSubmitResponse (hs : (machine Session).Reachable s) (hc : s.pending v r = some c)
    (success : Bool) (data : Option ReadableMap) :
    (CardModule.handleSubmitResponse s r success data).returned O c =
      (responseResult success data).toOption.map (CardView.callbackResult O) := by
  obtain ⟨hreg, hnot⟩ := pending_unresumed hs hc
  have hnone : s.resumed.lookup c = none := by
    rw [List.lookup_eq_none_iff]
    rintro ⟨d, result⟩ hx
    refine bne_iff_ne.mpr fun hdc => ?_
    subst hdc
    exact hnot result hx
  have hres := (s.unregisterView r).takeContinuation_resumed v r success data
  rw [State.unregisterView_pending, hc] at hres
  have heq : (CardModule.handleSubmitResponse s r success data).resumed =
      ((s.unregisterView r).takeContinuation v r success data).1.resumed := by
    unfold CardModule.handleSubmitResponse
    rw [show s.getView r = some v from hreg]
    rfl
  have hlookup : (CardModule.handleSubmitResponse s r success data).resumed.lookup c =
      (responseResult success data).toOption := by
    rw [heq, hres, List.lookup_append, show (s.unregisterView r).resumed = s.resumed from rfl, hnone]
    cases responseResult success data with
    | error e => rfl
    | ok result => simp [Except.toOption]
  unfold State.returned
  rw [hlookup]

theorem responseResult_succeeds {doc : Json} {done : Screen × Js.App.ApiCallResult} (h : Succeeds J doc done) :
    let response := Js.onCardHandleSubmit r (.ok done.2)
    ∃ result, responseResult response.success (some (toReadableMap response.data)) = .ok result ∧
      result.success = true ∧ result.responseJson = J.stringify doc := by
  obtain ⟨rest, hdata⟩ := h.data
  simp only [Js.onCardHandleSubmit, h.success, hdata]
  refine ⟨_, rfl, rfl, ?_⟩
  simp [CustomApiCallResult.responseJson, Js.Object.assign, toReadableMap]

theorem response_fails {e : Js.Value} {done : Screen × Js.App.ApiCallResult} (h : Fails e done) :
    Js.onCardHandleSubmit r (.ok done.2) = ⟨r, false, [("error", e)]⟩ := by
  simp [Js.onCardHandleSubmit, h.success, h.data, h.returned, Js.Object.assign]

theorem decodable_writtenMembers (ms : List (String × Json)) : Decodable (Json.writtenMembers ms) ↔ Decodable ms := by
  have hsome : ∀ (ms : List (String × Json)) (k : String),
      (∃ v, (Json.writtenMembers ms).lookup k = some v) ↔ ∃ v, ms.lookup k = some v := by
    intro ms k
    rw [Json.lookup_writtenMembers]
    cases ms.lookup k <;> simp
  have haction : (∀ v, (Json.writtenMembers ms).lookup "action" = some v →
        ∃ a, v.members? = some a ∧ ∃ t, a.lookup "type" = some t) ↔
      ∀ v, ms.lookup "action" = some v → ∃ a, v.members? = some a ∧ ∃ t, a.lookup "type" = some t := by
    rw [Json.lookup_writtenMembers]
    cases ms.lookup "action" with
    | none => simp
    | some v =>
        simp only [Option.map_some, Option.some.injEq, forall_eq', Json.members?_written]
        cases v.members? with
        | none => simp
        | some a => simpa using hsome a "type"
  exact ⟨fun h => ⟨(hsome ms _).mp h.id, (hsome ms _).mp h.status, haction.mp h.action⟩,
    fun h => ⟨(hsome ms _).mpr h.id, (hsome ms _).mpr h.status, haction.mpr h.action⟩⟩

/-! ## The two judgements -/

section

variable {fetch : Request → Reply} {sessionData : Js.SessionData} {raw body : String} {status : Nat}

theorem submission_eq (screen : Screen) (done : Screen × Js.App.ApiCallResult)
    (h : Js.App.handleSubmit J fetch screen sessionData = done) :
    submission J fetch screen s r sessionData =
      (done.1, CardModule.handleSubmitResponse s r (Js.onCardHandleSubmit r (.ok done.2)).success
        (some (toReadableMap (Js.onCardHandleSubmit r (.ok done.2)).data))) := by
  unfold submission
  rw [h]
  rfl

/-- What `App` approves, the SDK accepts exactly if it is an object the callback can decode. -/
theorem agree_of_succeeds (hs : (machine Session).Reachable s) (hc : s.pending v r = some c) {doc : Json}
    (hback : ReadsBack J O doc) {screen : Screen}
    (h : Succeeds J doc (Js.App.handleSubmit J fetch screen sessionData)) :
    Agree (submission J fetch screen s r sessionData).1
        ((submission J fetch screen s r sessionData).2.returned O c) ↔
      ∃ ms, doc.members? = some ms ∧ Decodable ms := by
  obtain ⟨result, hresult, hsuccess, hjson⟩ := responseResult_succeeds (r := r) h
  rw [submission_eq screen _ rfl, returned_handleSubmitResponse hs hc, hresult]
  have hiff : (∃ submission, CardView.callbackResult O result = .success submission) ↔
      ∃ ms, doc.members? = some ms ∧ Decodable ms := by
    refine (callbackResult_success_iff "card" result).trans ?_
    rw [hjson, hback, Json.members?_written]
    cases doc.members? with
    | none => simp
    | some ms => simp [hsuccess, decodable_writtenMembers]
  rw [← hiff, Agree, h.noError]
  cases hcb : CardView.callbackResult O result with
  | success submission => simp [Except.toOption, hcb, h.shown]
  | failure => simp [Except.toOption, hcb, h.shown]

/-- What `App` refuses, the SDK fails exactly if the error that is passed on can be read. -/
theorem agree_of_fails (hs : (machine Session).Reachable s) (hc : s.pending v r = some c) {j : Json}
    {screen : Screen} (h : Fails (some j) (Js.App.handleSubmit J fetch screen sessionData)) :
    Agree (submission J fetch screen s r sessionData).1
        ((submission J fetch screen s r sessionData).2.returned O c) ↔
      ¬ Throws false (some [("error", j)]) := by
  rw [submission_eq screen _ rfl, returned_handleSubmitResponse hs hc, response_fails h, Agree]
  change (_ ↔ ∃ submission, (responseResult false (some [("error", j)])).toOption.map _ = _) ∧
    (_ ↔ (responseResult false (some [("error", j)])).toOption.map _ = _) ↔ _
  rw [h.error, ← responseResult_error_iff]
  cases hr : responseResult false (some [("error", j)]) with
  | error e => simp [Except.toOption]
  | ok result =>
      have hresult : CardView.callbackResult O result = .failure :=
        if_neg (by rw [responseResult_false hr]; exact Bool.false_ne_true)
      simp [Except.toOption, hresult, h.notShown]

/-- **When the screen and the SDK agree** on the answer to a submission. -/
theorem outcome_agrees_iff (hs : (machine Session).Reachable s) (hc : s.pending v r = some c) (hraw : raw ≠ "")
    (hsession : sessionData.sessionData = some raw)
    (hfetch : fetch (submitRequest J sessionData.id raw) = .response status body)
    (hback : ReadsBack J O (responseData J body)) (screen : Screen) :
    Agree (submission J fetch screen s r sessionData).1
        ((submission J fetch screen s r sessionData).2.returned O c) ↔
      Agreeable status (responseData J body) := by
  by_cases happ : Approves status (responseData J body)
  · have hg : ¬ Garbles status (responseData J body) := fun hg => absurd (happ.1.symm.trans hg.1) (by decide)
    rw [agree_of_succeeds hs hc hback (Js.App.handleSubmit_approved hraw hsession hfetch happ screen), Agreeable]
    exact ⟨fun h => ⟨fun _ => h, hg⟩, fun h => h.1 happ⟩
  · obtain ⟨hgarbled, hplain⟩ := Js.App.handleSubmit_refused hraw hsession hfetch happ screen
    by_cases hg : Garbles status (responseData J body)
    · obtain ⟨j, hj, hnull, hstr⟩ := hg.message
      have hfails := hgarbled hg
      rw [hj] at hfails
      rw [agree_of_fails hs hc hfails, throws_error_iff]
      exact iff_of_false (fun h => h ⟨hnull, hstr⟩) fun h => h.2 hg
    · obtain ⟨e, hfails⟩ := hplain hg
      rw [agree_of_fails hs hc hfails, throws_error_iff]
      exact iff_of_true (fun h => h.2 e rfl) ⟨fun h => absurd h happ, hg⟩

/-! ## Answers of the documented shape -/

theorem approves_of_holds {ms : List (String × Json)} {a : SubmitAnswer} (h : Holds ms a)
    (hok : Js.App.ok status = true) : Approves status (.obj ms) := by
  refine ⟨hok, nofun, Or.inr ⟨a.id, ?_⟩⟩
  change (Js.Value.toText (ms.lookup "id")) = _
  rw [h.id]
  rfl

/-- **An accepted submission is transported faithfully**: the SDK is given the members of the answer, and no other
member of the body can change them. -/
theorem submission_transported (hs : (machine Session).Reachable s) (hc : s.pending v r = some c) (hraw : raw ≠ "")
    (hsession : sessionData.sessionData = some raw)
    (hfetch : fetch (submitRequest J sessionData.id raw) = .response status body) (hok : Js.App.ok status = true)
    {ms : List (String × Json)} (hparse : J.parse body = some (.obj ms)) (hback : ReadsBack J O (.obj ms))
    {a : SubmitAnswer} (h : Holds ms a) (screen : Screen) :
    (submission J fetch screen s r sessionData).2.returned O c = some (.success (a.result "card")) := by
  have hdoc : responseData J body = .obj ms := by rw [responseData, hparse, Option.getD_some]
  have happ : Approves status (responseData J body) := hdoc ▸ approves_of_holds h hok
  have hsucceeds := Js.App.handleSubmit_approved hraw hsession hfetch happ screen
  rw [hdoc] at hsucceeds
  obtain ⟨result, hresult, hsuccess, hjson⟩ := responseResult_succeeds (r := r) hsucceeds
  have hobject : O.JSONObject result.responseJson = some (Json.writtenMembers ms) := by
    rw [hjson, hback, Json.members?_written]
    rfl
  rw [submission_eq screen _ rfl, returned_handleSubmitResponse hs hc, hresult]
  change some (CardView.callbackResult O result) = _
  rw [CardView.callbackResult, callbackResult, if_pos hsuccess, decodeResponse, hobject, Option.bind_some,
    decodeObject_of_holds "card" h.written]

end

mutual

/-- `JSON.stringify` where no text needs an escape. -/
def plainText : Json → String
  | .null => "null"
  | .bool b => if b then "true" else "false"
  | .num t => t
  | .str s => "\"" ++ s ++ "\""
  | .arr xs => "[" ++ String.intercalate "," (plainItems xs) ++ "]"
  | .obj ms => "\x7b" ++ String.intercalate "," (plainMembers ms) ++ "\x7d"

def plainItems : List Json → List String
  | [] => []
  | x :: xs => plainText x :: plainItems xs

def plainMembers : List (String × Json) → List String
  | [] => []
  | (k, x) :: ms => ("\"" ++ k ++ "\":" ++ plainText x) :: plainMembers ms

end

def plainJson (body : String) (parsed : Option Json) : JsonText where
  parse t := if t = body then parsed else none
  stringify := plainText

/-- `org.json` on the text of `doc`. -/
def plainOrgJson (doc : Json) : OrgJson where
  JSONObject t := if t = plainText doc then doc.written.members? else none
  valueOf := plainText

theorem plain_readsBack (body : String) (parsed : Option Json) (doc : Json) :
    ReadsBack (plainJson body parsed) (plainOrgJson doc) doc := if_pos rfl

def waitingState : State := (machine {"ps_1"}).run (machine {"ps_1"}).init waitingCard

def answered (status : Nat) (doc : Json) : Screen × State :=
  submission (plainJson (plainText doc) (some doc)) (fun _ => .response status (plainText doc)) {} waitingState "req-1"
    { id := "ps_1", secret := "secret", sessionData := some "raw" }

theorem responseData_plain (doc : Json) :
    responseData (plainJson (plainText doc) (some doc)) (plainText doc) = doc := by
  simp [responseData, plainJson]

/-- The members of an answer that asks for an action, with further members named like those of the wrappers. -/
def challenged : List (String × Json) :=
  [("response", .null), ("id", .str "pay_1"), ("error", .num "1000"), ("status", .str "Action Required"),
    ("action", .obj [("data", .bool true), ("type", .str "3ds"), ("url", .str "https://acs")])]

theorem outcome_agrees_challenged :
    Agree (answered 202 (.obj challenged)).1
      ((answered 202 (.obj challenged)).2.returned (plainOrgJson (.obj challenged)) 0) := by
  refine (outcome_agrees_iff waitingCard_reachable (v := 0) (by rfl) (by decide) rfl rfl ?_ {}).mpr ?_
  · rw [responseData_plain]
    exact plain_readsBack _ _ _
  · rw [responseData_plain]
    refine ⟨fun _ => ⟨_, rfl, ⟨_, rfl⟩, ⟨_, rfl⟩, fun v hv => ?_⟩, fun hg => absurd hg.1 (by decide)⟩
    obtain rfl := Option.some.inj hv
    exact ⟨_, rfl, _, rfl⟩

theorem challenged_transported :
    (answered 202 (.obj challenged)).2.returned (plainOrgJson (.obj challenged)) 0 =
      some (.success ⟨"pay_1", "card", "Action Required", some ⟨"3ds", some "https://acs"⟩, none⟩) :=
  submission_transported waitingCard_reachable (v := 0) (by rfl) (by decide) rfl rfl (by decide)
    (by simp [plainJson]) (plain_readsBack _ _ _)
    (a := ⟨"pay_1", "Action Required", none, some ⟨"3ds", some "https://acs"⟩⟩)
    ⟨rfl, rfl, rfl, _, rfl, rfl, rfl⟩ {}

def unnamed : Json := .obj [("status", .str "Authorized")]

/-- **A 2xx answer without an `id`** is a success on the screen and a failure for the SDK. -/
theorem answer_without_id_disagrees :
    (machine {"ps_1"}).Reachable waitingState ∧ waitingState.pending 0 "req-1" = some 0 ∧
      ReadsBack (plainJson (plainText unnamed) (some unnamed)) (plainOrgJson unnamed) unnamed ∧
      (answered 200 unnamed).1.status = "Success: Payment completed" ∧
      (answered 200 unnamed).2.returned (plainOrgJson unnamed) 0 = some .failure ∧
      ¬ Agree (answered 200 unnamed).1 ((answered 200 unnamed).2.returned (plainOrgJson unnamed) 0) := by
  have hstatus : (answered 200 unnamed).1.status = "Success: Payment completed" := by rfl
  have hreturned : (answered 200 unnamed).2.returned (plainOrgJson unnamed) 0 = some .failure := by rfl
  refine ⟨waitingCard_reachable, rfl, plain_readsBack _ _ _, hstatus, hreturned, fun hagree => ?_⟩
  have hshown : (answered 200 unnamed).1.ShowsSuccess := by
    rw [Screen.ShowsSuccess, hstatus]
    exact Or.inl (by decide)
  obtain ⟨submission, hsub⟩ := hagree.1.mp hshown
  rw [hreturned] at hsub
  cases hsub

end FlowDemo.Android.Card
