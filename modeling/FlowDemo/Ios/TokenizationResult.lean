import Mathlib.Data.List.Nodup
import FlowDemo.Ios.View
import FlowDemo.Js.AppState

/-!
# Tokenization results, from the SDK to JavaScript

`CardPayView.emitHandleTokenized` puts a result into a dictionary and leaves out the optional members that are absent;
the `onHandleTokenized` listener of `CardView.tsx` reads it, asks `handleTokenized` of `App.tsx` and responds.

* `get_dictionary`: a member is read back exactly if it was put in;
* `onHandleTokenized_event`: the response to an emitted result is the policy's verdict on it.
-/

namespace FlowDemo.Ios

open Js (Json Value Error)

/-! ## What the SDK hands out -/

structure BillingAddress where
  country : String
  addressLine1 : Option String := none
  addressLine2 : Option String := none
  city : Option String := none
  state : Option String := none
  zip : Option String := none

structure Phone where
  number : String
  countryCode : String

structure CardMetadata where
  bin : String
  scheme : String
  localSchemes : Option (List String) := none
  cardType : Option String := none
  cardCategory : Option String := none
  currency : Option String := none
  issuer : Option String := none
  issuerCountry : Option String := none
  issuerCountryName : Option String := none
  productId : Option String := none
  productType : Option String := none

structure TokenizationData where
  token : String
  type : String
  expiresOn : String
  expiryMonth : Int
  expiryYear : Int
  last4 : String
  bin : String
  scheme : Option String := none
  schemeLocal : Option String := none
  cardType : Option String := none
  cardCategory : Option String := none
  issuer : Option String := none
  issuerCountry : Option String := none
  productId : Option String := none
  productType : Option String := none
  name : Option String := none
  cvv : Option String := none
  billingAddress : Option BillingAddress := none
  phone : Option Phone := none

structure TokenizationResult where
  data : TokenizationData
  preferredScheme : Option String := none
  cardMetadata : Option CardMetadata := none

/-! ## Dictionaries -/

/-- The object a dictionary becomes whose entries are set only where there is a value. -/
def dictionary (entries : List (String × Option Json)) : Json :=
  .obj (entries.filterMap fun e => e.2.map fun x => (e.1, x))

def text (s : String) : Option Json := some (.str s)

theorem get_dictionary {entries : List (String × Option Json)} {k : String} {v : Option Json}
    (hnodup : (entries.map Prod.fst).Nodup) (h : (k, v) ∈ entries) : (dictionary entries).get k = v := by
  change (entries.filterMap fun e => e.2.map fun x => (e.1, x)).lookup k = v
  induction entries with
  | nil => cases h
  | cons e rest ih =>
      obtain ⟨k', v'⟩ := e
      obtain ⟨hnew, hrest⟩ := List.nodup_cons.mp hnodup
      rcases List.mem_cons.mp h with heq | hin
      · obtain ⟨rfl, rfl⟩ := Prod.mk.inj heq
        cases v with
        | some x => simp
        | none =>
            simp only [List.filterMap_cons, Option.map_none]
            rw [List.lookup_eq_none_iff]
            rintro ⟨k', x⟩ hx
            obtain ⟨e, he, hex⟩ := List.mem_filterMap.mp hx
            obtain ⟨y, -, hy⟩ := Option.map_eq_some_iff.mp hex
            have hne : k ≠ k' := by
              rintro rfl
              exact hnew (List.mem_map.mpr ⟨e, he, (Prod.mk.inj hy).1⟩)
            simpa using hne
      · have hne : k ≠ k' := by
          rintro rfl
          exact hnew (List.mem_map.mpr ⟨_, hin, rfl⟩)
        cases v' with
        | none => exact ih hrest hin
        | some x =>
            simp only [List.filterMap_cons, Option.map_some]
            rw [List.lookup_cons, beq_false_of_ne hne]
            exact ih hrest hin

/-! ## `emitHandleTokenized` -/

def BillingAddress.json (a : BillingAddress) : Json :=
  dictionary [("country", text a.country), ("addressLine1", a.addressLine1.map .str),
    ("addressLine2", a.addressLine2.map .str), ("city", a.city.map .str), ("state", a.state.map .str),
    ("zip", a.zip.map .str)]

def Phone.json (p : Phone) : Json := dictionary [("number", text p.number), ("countryCode", text p.countryCode)]

def CardMetadata.json (m : CardMetadata) : Json :=
  dictionary [("bin", text m.bin), ("scheme", text m.scheme),
    ("localSchemes", m.localSchemes.map fun l => .arr (l.map .str)), ("cardType", m.cardType.map .str),
    ("cardCategory", m.cardCategory.map .str), ("currency", m.currency.map .str), ("issuer", m.issuer.map .str),
    ("issuerCountry", m.issuerCountry.map .str), ("issuerCountryName", m.issuerCountryName.map .str),
    ("productId", m.productId.map .str), ("productType", m.productType.map .str)]

def TokenizationResult.json (t : TokenizationResult) : Json :=
  dictionary [("token", text t.data.token), ("type", text t.data.type), ("expiresOn", text t.data.expiresOn),
    ("expiryMonth", some (.num (toString t.data.expiryMonth))),
    ("expiryYear", some (.num (toString t.data.expiryYear))), ("last4", text t.data.last4), ("bin", text t.data.bin),
    ("scheme", t.data.scheme.map .str), ("schemeLocal", t.data.schemeLocal.map .str),
    ("cardType", t.data.cardType.map .str), ("cardCategory", t.data.cardCategory.map .str),
    ("issuer", t.data.issuer.map .str), ("issuerCountry", t.data.issuerCountry.map .str),
    ("productId", t.data.productId.map .str), ("productType", t.data.productType.map .str),
    ("name", t.data.name.map .str), ("cvv", t.data.cvv.map .str),
    ("billingAddress", t.data.billingAddress.map BillingAddress.json), ("phone", t.data.phone.map Phone.json),
    ("preferredScheme", t.preferredScheme.map .str), ("cardMetadata", t.cardMetadata.map CardMetadata.json)]

def tokenizedEvent (requestId : String) (t : TokenizationResult) : Json :=
  .obj [("tokenizationData", .obj [("component", .str "card"), ("requestId", .str requestId),
    ("tokenizationResult", t.json)])]

/-! ## The listener of `CardView.tsx` -/

structure TokenizedResponse where
  requestId : String
  accepted : Bool
  rejectionMessage : Option String
  deriving DecidableEq

/-- `v ?? {}` -/
def orEmpty : Value → Json
  | none => .obj []
  | some .null => .obj []
  | some j => j

/-- The `onHandleTokenized` listener of `CardView.tsx` on iOS with the handler `onTokenized`: no response to other
components' events, nor where the id is no text. -/
def onHandleTokenized (onTokenized : Value → Except Error Js.App.TokenizedCallbackResult) (event : Value) :
    Option TokenizedResponse :=
  match Value.member event "tokenizationData" with
  | .error _ => none
  | .ok tokenizationData =>
      let data := orEmpty tokenizationData
      if (data.get "component").isText "card" then
        match data.get "requestId" with
        | some (.str requestId) => match onTokenized (data.get "tokenizationResult") with
            | .ok result => some ⟨requestId, result.accepted, result.rejectionMessage⟩
            | .error e => some ⟨requestId, false, some e⟩
        | _ => none
      else none

/-! ## The policy -/

/-- **The cards that are not supported**: `mada` is their local scheme, or one of those in their metadata. -/
def TokenizationResult.Mada (toLowerCase : String → String) (t : TokenizationResult) : Prop :=
  (∃ s, t.data.schemeLocal = some s ∧ toLowerCase s = "mada") ∨
    ∃ m l, t.cardMetadata = some m ∧ m.localSchemes = some l ∧ ∃ s ∈ l, toLowerCase s = "mada"

section

variable (toLowerCase : String → String)

theorem json_get (t : TokenizationResult) :
    t.json.get "schemeLocal" = t.data.schemeLocal.map .str ∧
      t.json.get "cardMetadata" = t.cardMetadata.map CardMetadata.json :=
  ⟨get_dictionary (by simp) (by simp), get_dictionary (by simp) (by simp)⟩

theorem CardMetadata.json_get (m : CardMetadata) :
    m.json.get "localSchemes" = m.localSchemes.map fun l => .arr (l.map .str) :=
  get_dictionary (by simp) (by simp)

theorem optionalLower_str (s : Option String) :
    Js.App.optionalLower toLowerCase (s.map .str) = .ok (s.map toLowerCase) := by
  cases s <;> rfl

theorem optionalLowerAll_arr (l : List String) :
    Js.App.optionalLowerAll toLowerCase (some (.arr (l.map .str))) = .ok (l.map toLowerCase) := by
  change (l.map Json.str).mapM (Js.App.lower toLowerCase) = .ok (l.map toLowerCase)
  induction l with
  | nil => rfl
  | cons s rest ih =>
      rw [List.map_cons, List.mapM_cons, ih]
      rfl

theorem optionalLowerAll_metadata (m : Option CardMetadata) :
    Js.App.optionalLowerAll toLowerCase (Value.optionalMember (m.map CardMetadata.json) "localSchemes") =
      .ok (((m.bind CardMetadata.localSchemes).getD []).map toLowerCase) := by
  cases m with
  | none => rfl
  | some m =>
      change Js.App.optionalLowerAll toLowerCase (m.json.get "localSchemes") =
        .ok ((m.localSchemes.getD []).map toLowerCase)
      rw [m.json_get]
      cases m.localSchemes with
      | none => rfl
      | some l => exact optionalLowerAll_arr toLowerCase l

def TokenizationResult.mada (t : TokenizationResult) : Bool :=
  t.data.schemeLocal.map toLowerCase = some "mada" ||
    (((t.cardMetadata.bind CardMetadata.localSchemes).getD []).map toLowerCase).contains "mada"

theorem mada_iff (t : TokenizationResult) : t.mada toLowerCase = true ↔ t.Mada toLowerCase := by
  rw [TokenizationResult.mada, Bool.or_eq_true, decide_eq_true_iff, Option.map_eq_some_iff, List.contains_iff_mem,
    List.mem_map]
  refine or_congr Iff.rfl ?_
  cases hm : t.cardMetadata with
  | none => simp
  | some m => cases hl : m.localSchemes <;> simp [hl]

/-- **`handleTokenized` sees through the encoding.** -/
theorem isMada_json (t : TokenizationResult) :
    Js.App.isMada toLowerCase (some t.json) = .ok (t.mada toLowerCase) := by
  have hne : t.json ≠ .null := nofun
  obtain ⟨hscheme, hmeta⟩ := json_get t
  unfold Js.App.isMada
  rw [Value.member_of_ne_null hne, Value.member_of_ne_null hne, hscheme, hmeta]
  simp only [bind, Except.bind, optionalLower_str, optionalLowerAll_metadata]
  rfl

def onTokenized (screen : Js.App.Screen) (tokenizationResult : Value) : Except Error Js.App.TokenizedCallbackResult :=
  (Js.App.handleTokenized toLowerCase screen tokenizationResult).map Prod.snd

def verdict (requestId : String) (t : TokenizationResult) : TokenizedResponse :=
  if t.mada toLowerCase then ⟨requestId, false, some "Mada cards are not supported."⟩ else ⟨requestId, true, none⟩

/-- **An emitted result is responded to with the policy's verdict on it**, under its own id. -/
theorem onHandleTokenized_event (screen : Js.App.Screen) (requestId : String) (t : TokenizationResult) :
    onHandleTokenized (onTokenized toLowerCase screen) (some (tokenizedEvent requestId t)) =
      some (verdict toLowerCase requestId t) := by
  have hhandler : onTokenized toLowerCase screen (some t.json) =
      .ok (if t.mada toLowerCase then ⟨false, some "Mada cards are not supported."⟩ else ⟨true, none⟩) := by
    unfold onTokenized Js.App.handleTokenized
    rw [isMada_json]
    cases t.mada toLowerCase with
    | true => rfl
    | false => rfl
  change (match onTokenized toLowerCase screen (some t.json) with
    | .ok result => some (⟨requestId, result.accepted, result.rejectionMessage⟩ : TokenizedResponse)
    | .error e => some ⟨requestId, false, some e⟩) = _
  rw [hhandler, verdict]
  cases t.mada toLowerCase with
  | true => rfl
  | false => rfl

end

end FlowDemo.Ios
