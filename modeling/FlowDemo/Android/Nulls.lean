import FlowDemo.Android.Decode

/-!
# Members that are null

To `org.json` a member that is `null` is there: `has` counts it, the getters for text read it as `null`, and
`getJSONObject` throws at it. Left out, it would have been absent.

* `withoutNulls`: the object without such members, at its top and in its `action`;
* `decodeObject_withoutNulls_iff`: the objects the callbacks decode as if their nulls were not there.
-/

namespace FlowDemo.Android

open Js (Json)

def isNull : Option Json → Bool
  | some .null => true
  | _ => false

def nonNull (o : List (String × Json)) : List (String × Json) := o.filter fun e => !isNull (o.lookup e.1)

/-- A member once the nulls in an `action` are left out. -/
def insideAction (name : String) (v : Json) : Json :=
  match v with
  | .obj a => if name = "action" then .obj (nonNull a) else v
  | _ => v

/-- `o` without the members that are null, at its top and in its `action`. -/
def withoutNulls (o : List (String × Json)) : List (String × Json) :=
  (nonNull o).map fun e => (e.1, insideAction e.1 e.2)

/-! ## Reading the members that are left -/

theorem lookup_filter_key (keep : String → Bool) (o : List (String × Json)) (k : String) :
    (o.filter fun e => keep e.1).lookup k = if keep k then o.lookup k else none := by
  induction o with
  | nil => simp
  | cons e o ih =>
      obtain ⟨k', v⟩ := e
      by_cases hk : k = k'
      · subst hk
        cases hkeep : keep k with
        | true => simp [hkeep]
        | false =>
            rw [hkeep] at ih
            simpa [List.filter_cons, hkeep] using ih
      · have hne : (k == k') = false := beq_false_of_ne hk
        cases hkeep : keep k' <;> simp [List.lookup_cons, hkeep, hne, ih]

theorem lookup_map_value (f : String → Json → Json) (o : List (String × Json)) (k : String) :
    (o.map fun e => (e.1, f e.1 e.2)).lookup k = (o.lookup k).map (f k) := by
  induction o with
  | nil => rfl
  | cons e o ih =>
      obtain ⟨k', v⟩ := e
      rw [List.map_cons, List.lookup_cons, List.lookup_cons, ih]
      by_cases hk : k = k'
      · subst hk
        simp
      · rw [beq_false_of_ne hk]

theorem lookup_nonNull (o : List (String × Json)) (k : String) :
    (nonNull o).lookup k = if isNull (o.lookup k) then none else o.lookup k := by
  rw [nonNull, lookup_filter_key (fun name => !isNull (o.lookup name))]
  cases isNull (o.lookup k) <;> rfl

theorem lookup_withoutNulls (o : List (String × Json)) (k : String) :
    (withoutNulls o).lookup k =
      if isNull (o.lookup k) then none else (o.lookup k).map (insideAction k) := by
  rw [withoutNulls, lookup_map_value, lookup_nonNull]
  split <;> rfl

theorem insideAction_of_ne {k : String} (hk : k ≠ "action") : insideAction k = id := by
  funext v
  cases v with
  | obj a => exact if_neg hk
  | _ => rfl

theorem lookup_withoutNulls_of_ne (o : List (String × Json)) {k : String} (hk : k ≠ "action") :
    (withoutNulls o).lookup k = if isNull (o.lookup k) then none else o.lookup k := by
  rw [lookup_withoutNulls, insideAction_of_ne hk, Option.map_id]
  rfl

/-! ## What the decoding reads -/

variable {O : OrgJson}

/-- None of the members the decoding reads is null. -/
structure NoNulls (o : List (String × Json)) : Prop where
  top : ∀ k ∈ ["id", "status", "type", "action"], isNull (o.lookup k) = false
  action : ∀ a, o.lookup "action" = some (.obj a) → ∀ k ∈ ["type", "url"], isNull (a.lookup k) = false

/-- The getters see the same where no null is left out. -/
theorem getString_congr {o o' : List (String × Json)} {k : String} (h : o'.lookup k = o.lookup k) :
    O.getString o' k = O.getString o k := by
  rw [OrgJson.getString, OrgJson.getString, h]

theorem decodeAction_congr {a a' : List (String × Json)} (h : ∀ k ∈ ["type", "url"], a'.lookup k = a.lookup k) :
    decodeAction O a' = decodeAction O a := by
  unfold decodeAction OrgJson.has
  rw [getString_congr (h "type" (by decide)), getString_congr (h "url" (by decide)), h "url" (by decide)]

theorem decodeActionMember_withoutNulls {o : List (String × Json)} (h : NoNulls o) :
    decodeActionMember O (withoutNulls o) = decodeActionMember O o := by
  unfold decodeActionMember OrgJson.has OrgJson.getJSONObject
  rw [lookup_withoutNulls, h.top "action" (by decide), if_neg Bool.false_ne_true]
  cases ha : o.lookup "action" with
  | none => rfl
  | some v => cases v with
    | obj a =>
        have hread : ∀ k ∈ ["type", "url"], (nonNull a).lookup k = a.lookup k := by
          intro k hk
          rw [lookup_nonNull, h.action a ha k hk, if_neg Bool.false_ne_true]
        simp [insideAction, Json.members?, decodeAction_congr hread]
    | _ => rfl

/-- **Without nulls among them**, the members read are the members left. -/
theorem decodeObject_of_noNulls (defaultType : String) {o : List (String × Json)} (h : NoNulls o) :
    decodeObject O defaultType (withoutNulls o) = decodeObject O defaultType o := by
  have hread : ∀ k ∈ ["id", "status", "type"], (withoutNulls o).lookup k = o.lookup k := by
    intro k hk
    have hne : ∀ k ∈ ["id", "status", "type"], k ≠ "action" := by decide
    have htop : ∀ k ∈ ["id", "status", "type"], k ∈ ["id", "status", "type", "action"] := by decide
    rw [lookup_withoutNulls_of_ne o (hne k hk), h.top k (htop k hk), if_neg Bool.false_ne_true]
  unfold decodeObject OrgJson.optString
  rw [getString_congr (hread "id" (by decide)), getString_congr (hread "status" (by decide)),
    getString_congr (hread "type" (by decide)), decodeActionMember_withoutNulls h]

/-! ## Where a null makes a difference -/

theorem decodeObject_eq_some_iff {defaultType : String} {o : List (String × Json)}
    {r : PaymentSessionSubmissionResult} :
    decodeObject O defaultType o = some r ↔ O.getString o "id" = some r.id ∧ O.getString o "status" = some r.status ∧
      O.optString o "type" defaultType = r.type ∧ decodeActionMember O o = some r.action ∧ r.declineReason = none := by
  obtain ⟨id, type, status, action, declineReason⟩ := r
  unfold decodeObject
  cases O.getString o "id" with
  | none => simp
  | some id' => cases O.getString o "status" with
    | none => simp
    | some status' => cases decodeActionMember O o with
      | none => simp
      | some action' =>
          simp only [Option.bind_eq_bind, Option.bind_some, Option.pure_def, Option.some.injEq,
            PaymentSessionSubmissionResult.mk.injEq]
          constructor
          · rintro ⟨rfl, rfl, rfl, rfl, rfl⟩
            exact ⟨rfl, rfl, rfl, rfl, rfl⟩
          · rintro ⟨rfl, rfl, rfl, rfl, rfl⟩
            exact ⟨rfl, rfl, rfl, rfl, rfl⟩

theorem not_null_of_read {o : List (String × Json)} {k s : String} (hk : k ≠ "action")
    (h : O.getString (withoutNulls o) k = some s) : isNull (o.lookup k) = false := by
  rw [OrgJson.getString, lookup_withoutNulls_of_ne o hk] at h
  cases hn : isNull (o.lookup k) with
  | false => rfl
  | true =>
      rw [hn, if_pos rfl] at h
      cases h

theorem eq_null_of_isNull {v : Option Json} (h : isNull v = true) : v = some .null := by
  cases v with
  | none => cases h
  | some j => cases j <;> first | rfl | cases h

/-- A type that is null is the text `null`, and left out the default. -/
theorem not_null_of_optString {defaultType : String} (hd : defaultType ≠ "null") {o : List (String × Json)}
    (h : O.optString (withoutNulls o) "type" defaultType = O.optString o "type" defaultType) :
    isNull (o.lookup "type") = false := by
  cases hn : isNull (o.lookup "type") with
  | false => rfl
  | true =>
      unfold OrgJson.optString OrgJson.getString at h
      rw [lookup_withoutNulls_of_ne o (by decide), hn, if_pos rfl, eq_null_of_isNull hn] at h
      exact absurd h hd

theorem not_null_of_decodeAction {a : List (String × Json)} {p : PaymentAction}
    (h : decodeAction O (nonNull a) = some p) (h' : decodeAction O a = some p) :
    ∀ k ∈ ["type", "url"], isNull (a.lookup k) = false := by
  have htype : isNull (a.lookup "type") = false := by
    cases hn : isNull (a.lookup "type") with
    | false => rfl
    | true =>
        have hsome := decodeAction_isSome_iff (O := O) (nonNull a)
        rw [h, lookup_nonNull, hn, if_pos rfl] at hsome
        obtain ⟨t, ht⟩ := hsome.mp rfl
        cases ht
  have hurl : isNull (a.lookup "url") = false := by
    cases hn : isNull (a.lookup "url") with
    | false => rfl
    | true =>
        unfold decodeAction OrgJson.getString OrgJson.has at h h'
        rw [lookup_nonNull, lookup_nonNull, htype, hn] at h
        rw [eq_null_of_isNull hn] at h'
        cases ht : a.lookup "type" with
        | none =>
            rw [ht] at h'
            cases h'
        | some t =>
            rw [ht] at h h'
            have hp := congrArg PaymentAction.url (Option.some.inj (h.trans h'.symm))
            cases hp
  intro k hk
  simp only [List.mem_cons, List.not_mem_nil, or_false] at hk
  rcases hk with rfl | rfl
  · exact htype
  · exact hurl

theorem not_null_of_decodeActionMember {o : List (String × Json)} {action : Option PaymentAction}
    (h : decodeActionMember O (withoutNulls o) = some action) (h' : decodeActionMember O o = some action) :
    isNull (o.lookup "action") = false ∧
      ∀ a, o.lookup "action" = some (.obj a) → ∀ k ∈ ["type", "url"], isNull (a.lookup k) = false := by
  unfold decodeActionMember OrgJson.has OrgJson.getJSONObject at h h'
  rw [lookup_withoutNulls] at h
  cases ha : o.lookup "action" with
  | none => exact ⟨rfl, nofun⟩
  | some v =>
      cases v with
      | null =>
          rw [ha] at h'
          cases h'
      | obj a =>
          refine ⟨rfl, fun a' ha' => ?_⟩
          obtain rfl := Json.obj.inj (Option.some.inj ha')
          rw [ha] at h h'
          obtain ⟨p, hp, rfl⟩ := Option.map_eq_some_iff.mp (show (decodeAction O a).map some = some action from h')
          obtain ⟨p', hp', heq⟩ := Option.map_eq_some_iff.mp
            (show (decodeAction O (nonNull a)).map some = some (some p) from h)
          rw [Option.some.inj heq] at hp'
          exact not_null_of_decodeAction hp' hp
      | bool b => exact ⟨rfl, nofun⟩
      | num t => exact ⟨rfl, nofun⟩
      | str s => exact ⟨rfl, nofun⟩
      | arr xs => exact ⟨rfl, nofun⟩

theorem noNulls_of_decoded {defaultType : String} (hd : defaultType ≠ "null") {o : List (String × Json)}
    {r : PaymentSessionSubmissionResult} (h : decodeObject O defaultType (withoutNulls o) = some r)
    (h' : decodeObject O defaultType o = some r) : NoNulls o := by
  obtain ⟨hid, hstatus, htype, haction, -⟩ := decodeObject_eq_some_iff.mp h
  obtain ⟨-, -, htype', haction', -⟩ := decodeObject_eq_some_iff.mp h'
  obtain ⟨hnull, hinside⟩ := not_null_of_decodeActionMember haction haction'
  refine ⟨fun k hk => ?_, hinside⟩
  simp only [List.mem_cons, List.not_mem_nil, or_false] at hk
  rcases hk with rfl | rfl | rfl | rfl
  · exact not_null_of_read (by decide) hid
  · exact not_null_of_read (by decide) hstatus
  · exact not_null_of_optString hd (htype.trans htype'.symm)
  · exact hnull

/-- **Nulls are as good as absent exactly where** none is read, or the decoding fails with and without them. -/
theorem decodeObject_withoutNulls_iff {defaultType : String} (hd : defaultType ≠ "null") (o : List (String × Json)) :
    decodeObject O defaultType (withoutNulls o) = decodeObject O defaultType o ↔
      NoNulls o ∨ (¬ Decodable o ∧ ¬ Decodable (withoutNulls o)) := by
  have hdec := decodeObject_isSome_iff (O := O) defaultType o
  have hdec' := decodeObject_isSome_iff (O := O) defaultType (withoutNulls o)
  constructor
  · intro heq
    cases h : decodeObject O defaultType o with
    | none =>
        rw [h] at hdec heq
        rw [heq] at hdec'
        exact Or.inr ⟨fun hd => Bool.false_ne_true (hdec.mpr hd), fun hd => Bool.false_ne_true (hdec'.mpr hd)⟩
    | some r => exact Or.inl (noNulls_of_decoded hd (heq.trans h) h)
  · rintro (h | ⟨h, h'⟩)
    · exact decodeObject_of_noNulls defaultType h
    · rw [← hdec, Bool.not_eq_true, Option.isSome_eq_false_iff, Option.isNone_iff_eq_none] at h
      rw [← hdec', Bool.not_eq_true, Option.isSome_eq_false_iff, Option.isNone_iff_eq_none] at h'
      rw [h, h']

/-! ## The callbacks -/

/-- What the callback of a Google Pay view returns for `result`. -/
def GooglePayView.callbackResult (O : OrgJson) (result : CustomApiCallResult) : ApiCallResult :=
  Android.callbackResult O "googlepay" result

theorem callbackResult_eq_iff (defaultType : String) {result result' : CustomApiCallResult}
    (hs : result.success = true) (hs' : result'.success = true) {o o' : List (String × Json)}
    (ho : O.JSONObject result.responseJson = some o) (ho' : O.JSONObject result'.responseJson = some o') :
    Android.callbackResult O defaultType result' = Android.callbackResult O defaultType result ↔
      decodeObject O defaultType o' = decodeObject O defaultType o := by
  unfold Android.callbackResult decodeResponse
  rw [hs, hs', ho, ho', if_pos rfl, if_pos rfl, Option.bind_some, Option.bind_some]
  cases decodeObject O defaultType o' <;> cases decodeObject O defaultType o <;> simp

/-- **Leaving the nulls of a successful answer out changes nothing** for the callbacks of either view exactly where no
null is read, or the answer fails with and without them. -/
theorem nulls_as_absent_iff (O : OrgJson) {result result' : CustomApiCallResult} (hs : result.success = true)
    (hs' : result'.success = true) {o : List (String × Json)} (ho : O.JSONObject result.responseJson = some o)
    (ho' : O.JSONObject result'.responseJson = some (withoutNulls o)) :
    (CardView.callbackResult O result' = CardView.callbackResult O result ↔
      NoNulls o ∨ (¬ Decodable o ∧ ¬ Decodable (withoutNulls o))) ∧
    (GooglePayView.callbackResult O result' = GooglePayView.callbackResult O result ↔
      NoNulls o ∨ (¬ Decodable o ∧ ¬ Decodable (withoutNulls o))) :=
  ⟨(callbackResult_eq_iff "card" hs hs' ho ho').trans (decodeObject_withoutNulls_iff (by decide) o),
    (callbackResult_eq_iff "googlepay" hs hs' ho ho').trans (decodeObject_withoutNulls_iff (by decide) o)⟩

def answered (text : String) : CustomApiCallResult := { success := true, data := some [("response", .str text)] }

def approvedText : String := "\x7b\"id\":\"pay_1\",\"status\":\"Approved\"\x7d"

def nullMessageText : String := "\x7b\"id\":\"pay_1\",\"status\":\"Approved\",\"message\":null\x7d"

def nullActionText : String := "\x7b\"id\":\"pay_1\",\"status\":\"Approved\",\"action\":null\x7d"

def sampleOrgJson : OrgJson where
  JSONObject text :=
    if text = approvedText then some [("id", .str "pay_1"), ("status", .str "Approved")]
    else if text = nullMessageText then some [("id", .str "pay_1"), ("status", .str "Approved"), ("message", .null)]
    else if text = nullActionText then some [("id", .str "pay_1"), ("status", .str "Approved"), ("action", .null)]
    else none
  valueOf _ := ""

/-- A null message changes nothing. -/
theorem nulls_as_absent_message :
    CardView.callbackResult sampleOrgJson (answered approvedText) =
        CardView.callbackResult sampleOrgJson (answered nullMessageText) ∧
      GooglePayView.callbackResult sampleOrgJson (answered approvedText) =
        GooglePayView.callbackResult sampleOrgJson (answered nullMessageText) := by
  have hiff := @nulls_as_absent_iff sampleOrgJson (answered nullMessageText) (answered approvedText) rfl rfl
    [("id", .str "pay_1"), ("status", .str "Approved"), ("message", .null)] rfl rfl
  have hno : NoNulls [("id", .str "pay_1"), ("status", .str "Approved"), ("message", .null)] := ⟨by decide, nofun⟩
  exact ⟨hiff.1.mpr (Or.inl hno), hiff.2.mpr (Or.inl hno)⟩

/-- **An approved payment with a null action fails**, and without the null it is a success. -/
theorem null_action_fails :
    ∃ o, sampleOrgJson.JSONObject nullActionText = some o ∧
      sampleOrgJson.JSONObject approvedText = some (withoutNulls o) ∧
      CardView.callbackResult sampleOrgJson (answered nullActionText) = .failure ∧
      CardView.callbackResult sampleOrgJson (answered approvedText) =
        .success ⟨"pay_1", "card", "Approved", none, none⟩ ∧
      GooglePayView.callbackResult sampleOrgJson (answered nullActionText) = .failure ∧
      GooglePayView.callbackResult sampleOrgJson (answered approvedText) =
        .success ⟨"pay_1", "googlepay", "Approved", none, none⟩ :=
  ⟨_, rfl, rfl, rfl, rfl, rfl, rfl⟩

end FlowDemo.Android
