import FlowDemo.Android.Response

/-!
# The decoding of an accepted response

The `handleSubmit` callbacks of `CardView.kt` and `GooglePayView.kt` decode the `response` text of an accepted answer
with `org.json`, in the same way up to the default payment type.

`org.json` is outside the repository. Its parser and its texts for numbers, arrays and objects are parameters; its
getters are modelled: `getString` takes any member for text, `has` and `optString` count a `null` member as present,
and `getJSONObject` insists on an object.
-/

namespace FlowDemo.Android

open Js (Json)

/-- The parser of `org.json`, `none` where it throws, and `String.valueOf` of a number, an array or an object. -/
structure OrgJson where
  JSONObject : String → Option (List (String × Json))
  valueOf : Json → String

namespace OrgJson

variable (O : OrgJson)

/-- `JSON.toString` of a member. -/
def text : Json → String
  | .str s => s
  | .null => "null"
  | .bool b => if b then "true" else "false"
  | v => O.valueOf v

def has (o : List (String × Json)) (name : String) : Bool := (o.lookup name).isSome

def getString (o : List (String × Json)) (name : String) : Option String := (o.lookup name).map O.text

def optString (o : List (String × Json)) (name fallback : String) : String := (O.getString o name).getD fallback

def getJSONObject (o : List (String × Json)) (name : String) : Option (List (String × Json)) :=
  (o.lookup name).bind Json.members?

end OrgJson

/-! ## The SDK's types -/

structure PaymentAction where
  type : String
  url : Option String
  deriving DecidableEq

structure PaymentSessionSubmissionResult where
  id : String
  type : String
  status : String
  action : Option PaymentAction
  declineReason : Option String
  deriving DecidableEq

inductive ApiCallResult
  | success (result : PaymentSessionSubmissionResult)
  | failure
  deriving DecidableEq

/-! ## The callback -/

section

variable (O : OrgJson)

/-- The `PaymentAction` of `actionObject`. -/
def decodeAction (actionObject : List (String × Json)) : Option PaymentAction := do
  let type ← O.getString actionObject "type"
  let url ← if OrgJson.has actionObject "url" then (O.getString actionObject "url").map some else pure none
  pure ⟨type, url⟩

/-- The `action` of `jsonObject`, if present. -/
def decodeActionMember (jsonObject : List (String × Json)) : Option (Option PaymentAction) :=
  if OrgJson.has jsonObject "action" then do
    let actionObject ← OrgJson.getJSONObject jsonObject "action"
    (decodeAction O actionObject).map some
  else pure none

/-- The `PaymentSessionSubmissionResult` of `jsonObject`, `none` where a getter throws. -/
def decodeObject (defaultType : String) (jsonObject : List (String × Json)) :
    Option PaymentSessionSubmissionResult := do
  let id ← O.getString jsonObject "id"
  let status ← O.getString jsonObject "status"
  let type := O.optString jsonObject "type" defaultType
  let action ← decodeActionMember O jsonObject
  pure { id, type, status, action, declineReason := none }

def decodeResponse (defaultType responseJson : String) : Option PaymentSessionSubmissionResult :=
  (O.JSONObject responseJson).bind (decodeObject O defaultType)

/-- `result.data?.get("response") as? String ?: …` -/
def CustomApiCallResult.responseJson (result : CustomApiCallResult) : String :=
  match result.data.bind (·.lookup "response") with
  | some (.str s) => s
  | _ => "\x7b\"status\":\"success\"\x7d"

def callbackResult (defaultType : String) (result : CustomApiCallResult) : ApiCallResult :=
  if result.success then
    match decodeResponse O defaultType result.responseJson with
    | some submission => .success submission
    | none => .failure
  else .failure

def CardView.callbackResult (result : CustomApiCallResult) : ApiCallResult := Android.callbackResult O "card" result

end

/-! ## What is decoded -/

variable {O : OrgJson}

/-- The objects an SDK result can be read from. -/
structure Decodable (o : List (String × Json)) : Prop where
  id : ∃ v, o.lookup "id" = some v
  status : ∃ v, o.lookup "status" = some v
  action : ∀ v, o.lookup "action" = some v → ∃ a, v.members? = some a ∧ ∃ t, a.lookup "type" = some t

theorem decodeAction_isSome_iff (a : List (String × Json)) :
    (decodeAction O a).isSome = true ↔ ∃ t, a.lookup "type" = some t := by
  unfold decodeAction OrgJson.getString OrgJson.has
  cases a.lookup "type" with
  | none => simp
  | some t => cases a.lookup "url" <;> simp

theorem decodeActionMember_isSome_iff (o : List (String × Json)) :
    (decodeActionMember O o).isSome = true ↔
      ∀ v, o.lookup "action" = some v → ∃ a, v.members? = some a ∧ ∃ t, a.lookup "type" = some t := by
  unfold decodeActionMember OrgJson.has OrgJson.getJSONObject
  cases o.lookup "action" with
  | none => simp
  | some v =>
      cases hv : v.members? with
      | none => simp [hv]
      | some a => simp [hv, decodeAction_isSome_iff]

/-- **Exactly the `Decodable` objects are decoded.** -/
theorem decodeObject_isSome_iff (defaultType : String) (o : List (String × Json)) :
    (decodeObject O defaultType o).isSome = true ↔ Decodable o := by
  have hiff : Decodable o ↔ (O.getString o "id").isSome = true ∧ (O.getString o "status").isSome = true ∧
      (decodeActionMember O o).isSome = true := by
    rw [decodeActionMember_isSome_iff, OrgJson.getString, OrgJson.getString, Option.isSome_map, Option.isSome_map,
      Option.isSome_iff_exists, Option.isSome_iff_exists]
    exact ⟨fun h => ⟨h.id, h.status, h.action⟩, fun h => ⟨h.1, h.2.1, h.2.2⟩⟩
  rw [hiff]
  unfold decodeObject
  cases O.getString o "id" with
  | none => simp
  | some id =>
      cases O.getString o "status" with
      | none => simp
      | some status => cases decodeActionMember O o <;> simp

/-- The callback accepts exactly the successful results whose response text holds a `Decodable` object. -/
theorem callbackResult_success_iff (defaultType : String) (result : CustomApiCallResult) :
    (∃ submission, callbackResult O defaultType result = .success submission) ↔
      result.success = true ∧ ∃ o, O.JSONObject result.responseJson = some o ∧ Decodable o := by
  unfold callbackResult decodeResponse
  cases result.success with
  | false => simp
  | true =>
      cases O.JSONObject result.responseJson with
      | none => simp
      | some o =>
          have hdec := decodeObject_isSome_iff (O := O) defaultType o
          cases hd : decodeObject O defaultType o with
          | none =>
              rw [hd] at hdec
              simpa [hd] using hdec
          | some submission =>
              rw [hd] at hdec
              simpa [hd] using hdec

/-! ## Answers of the documented shape -/

structure SubmitAnswer where
  id : String
  status : String
  type : Option String
  action : Option PaymentAction

def SubmitAnswer.result (a : SubmitAnswer) (defaultType : String) : PaymentSessionSubmissionResult where
  id := a.id
  type := a.type.getD defaultType
  status := a.status
  action := a.action
  declineReason := none

/-- `v` is the `action` member of an answer with action `action`. -/
def HoldsAction (v : Option Json) : Option PaymentAction → Prop
  | none => v = none
  | some p => ∃ a, v = some (.obj a) ∧ a.lookup "type" = some (.str p.type) ∧ a.lookup "url" = p.url.map .str

/-- **The object `o` holds the answer `a`**, whatever its other members. -/
structure Holds (o : List (String × Json)) (a : SubmitAnswer) : Prop where
  id : o.lookup "id" = some (.str a.id)
  status : o.lookup "status" = some (.str a.status)
  type : o.lookup "type" = a.type.map .str
  action : HoldsAction (o.lookup "action") a.action

theorem decodeAction_of_members {a : List (String × Json)} {p : PaymentAction}
    (htype : a.lookup "type" = some (.str p.type)) (hurl : a.lookup "url" = p.url.map .str) :
    decodeAction O a = some p := by
  obtain ⟨type, url⟩ := p
  unfold decodeAction OrgJson.getString OrgJson.has
  rw [htype, hurl]
  cases url <;> rfl

theorem decodeActionMember_of_holdsAction {o : List (String × Json)} {action : Option PaymentAction}
    (h : HoldsAction (o.lookup "action") action) : decodeActionMember O o = some action := by
  unfold decodeActionMember OrgJson.has OrgJson.getJSONObject
  cases action with
  | none =>
      rw [show o.lookup "action" = none from h]
      rfl
  | some p =>
      obtain ⟨a, ha, htype, hurl⟩ := h
      rw [ha]
      simp [Json.members?, decodeAction_of_members htype hurl]

/-- **An object that holds an answer is decoded to it.** -/
theorem decodeObject_of_holds (defaultType : String) {o : List (String × Json)} {a : SubmitAnswer} (h : Holds o a) :
    decodeObject O defaultType o = some (a.result defaultType) := by
  have htype : O.optString o "type" defaultType = a.type.getD defaultType := by
    rw [OrgJson.optString, OrgJson.getString, h.type]
    cases a.type <;> rfl
  unfold decodeObject
  rw [OrgJson.getString, OrgJson.getString, h.id, h.status, decodeActionMember_of_holdsAction h.action, htype]
  rfl

theorem Holds.written {o : List (String × Json)} {a : SubmitAnswer} (h : Holds o a) :
    Holds (Json.writtenMembers o) a := by
  have htext : ∀ (o : List (String × Json)) (k : String) (s : Option String),
      o.lookup k = s.map .str → (Json.writtenMembers o).lookup k = s.map .str := by
    intro o k s hk
    rw [Json.lookup_writtenMembers, hk]
    cases s <;> simp [Json.written]
  refine ⟨htext o _ (some _) h.id, htext o _ (some _) h.status, htext o _ _ h.type, ?_⟩
  have haction := h.action
  rw [Json.lookup_writtenMembers]
  cases hp : a.action with
  | none =>
      rw [hp] at haction
      rw [show o.lookup "action" = none from haction]
      rfl
  | some p =>
      rw [hp] at haction
      obtain ⟨m, hm, htype, hurl⟩ := haction
      rw [hm]
      exact ⟨Json.writtenMembers m, by simp [Json.written], htext m _ (some _) htype, htext m _ _ hurl⟩

end FlowDemo.Android
