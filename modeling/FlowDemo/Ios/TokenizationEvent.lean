import Mathlib
import FlowDemo.Lib.LinkedMap
import FlowDemo.Ios.TokenizationResult

/-!
# The tokenization event loses nothing

`ApplePayView.swift` and `CardPayView.swift` each copy the SDK's `TokenizationResult` into a dictionary, field by field,
and the interface `TokenizationResult` of `ApplePayView.tsx` names the keys again.

* `json_build`: a dictionary filled by a literal and `if let`s is the object of the fields that are present;
* `required_dictionary`, `optional_dictionary`: what an interface's member reads back of it;
* `TokenizationResult.ofJson?_json`: a record is decoded from its own encoding;
* `emitHandleTokenized_roundtrip`: both views emit the same map, and it decodes to the record.
-/

namespace FlowDemo.Ios

open Js (Json)

/-! ## Swift dictionaries -/

abbrev Dictionary := LinkedMap String Json

namespace Dictionary

def literal (entries : List (String × Json)) : Dictionary := entries.foldl (fun d e => d.put e.1 e.2) ∅

/-- `if let x = v { d[k] = x }` -/
def setIfLet (d : Dictionary) (k : String) (v : Option Json) : Dictionary := v.elim d (d.put k)

def json (d : Dictionary) : Json := .obj d.entries

def build (entries : List (String × Option Json)) : Dictionary :=
  entries.foldl (fun d e => d.setIfLet e.1 e.2) ∅

theorem entries_setIfLet {d : Dictionary} {k : String} (h : k ∉ d.keys) (v : Option Json) :
    (d.setIfLet k v).entries = d.entries ++ (v.map (k, ·)).toList := by
  cases v with
  | none => simp [setIfLet]
  | some j => exact LinkedMap.putEntry_of_not_mem h

theorem entries_foldl_setIfLet {entries : List (String × Option Json)} (hnodup : (entries.map Prod.fst).Nodup)
    {d : Dictionary} (hnew : ∀ k ∈ entries.map Prod.fst, k ∉ d.keys) :
    (entries.foldl (fun d e => d.setIfLet e.1 e.2) d).entries =
      d.entries ++ entries.filterMap fun e => e.2.map fun x => (e.1, x) := by
  induction entries generalizing d with
  | nil => simp
  | cons e rest ih =>
      rw [List.map_cons, List.nodup_cons] at hnodup
      have hset := entries_setIfLet (hnew e.1 (by simp)) e.2
      have hrest : ∀ k ∈ rest.map Prod.fst, k ∉ (d.setIfLet e.1 e.2).keys := by
        intro k hk hin
        have hne : k ≠ e.1 := fun h => hnodup.1 (h ▸ hk)
        rw [LinkedMap.keys, hset, List.map_append, List.mem_append] at hin
        apply hin.elim (hnew k (by simp [hk]))
        cases e.2 <;> simp [hne]
      rw [List.foldl_cons, ih hnodup.2 hrest, hset, List.append_assoc]
      congr 1
      cases h : e.2 <;> simp [h]

/-- **A dictionary filled with distinct keys is the object of the entries that are present.** -/
theorem json_build {entries : List (String × Option Json)} (hnodup : (entries.map Prod.fst).Nodup) :
    (build entries).json = dictionary entries := by
  have h := entries_foldl_setIfLet hnodup (d := ∅) (fun k _ hk => absurd hk List.not_mem_nil)
  rw [json, build, h]
  rfl

theorem json_literal {entries : List (String × Json)} (hnodup : (entries.map Prod.fst).Nodup) :
    (literal entries).json = .obj entries := by
  have hbuild : literal entries = build (entries.map fun e => (e.1, some e.2)) := by
    rw [literal, build, List.foldl_map]
    rfl
  have hdict : dictionary (entries.map fun e => (e.1, some e.2)) = .obj entries := by
    simp [dictionary, List.filterMap_map]
  rw [hbuild, json_build, hdict]
  rw [List.map_map]
  exact hnodup

end Dictionary

open Dictionary (literal)

/-! ## `emitHandleTokenized`, as each view has it -/

namespace ApplePayView

def addr (billingAddress : BillingAddress) : Dictionary :=
  literal [("country", .str billingAddress.country)]
    |>.setIfLet "addressLine1" (billingAddress.addressLine1.map .str)
    |>.setIfLet "addressLine2" (billingAddress.addressLine2.map .str)
    |>.setIfLet "city" (billingAddress.city.map .str)
    |>.setIfLet "state" (billingAddress.state.map .str)
    |>.setIfLet "zip" (billingAddress.zip.map .str)

/-- `meta` -/
def cardMeta (cardMetadata : CardMetadata) : Dictionary :=
  literal [("bin", .str cardMetadata.bin), ("scheme", .str cardMetadata.scheme)]
    |>.setIfLet "localSchemes" (cardMetadata.localSchemes.map fun localSchemes => .arr (localSchemes.map .str))
    |>.setIfLet "cardType" (cardMetadata.cardType.map .str)
    |>.setIfLet "cardCategory" (cardMetadata.cardCategory.map .str)
    |>.setIfLet "currency" (cardMetadata.currency.map .str)
    |>.setIfLet "issuer" (cardMetadata.issuer.map .str)
    |>.setIfLet "issuerCountry" (cardMetadata.issuerCountry.map .str)
    |>.setIfLet "issuerCountryName" (cardMetadata.issuerCountryName.map .str)
    |>.setIfLet "productId" (cardMetadata.productId.map .str)
    |>.setIfLet "productType" (cardMetadata.productType.map .str)

def tokenData (tokenizationResult : TokenizationResult) : Dictionary :=
  literal [("token", .str tokenizationResult.data.token),
      ("type", .str tokenizationResult.data.type),
      ("expiresOn", .str tokenizationResult.data.expiresOn),
      ("expiryMonth", .num (toString tokenizationResult.data.expiryMonth)),
      ("expiryYear", .num (toString tokenizationResult.data.expiryYear)),
      ("last4", .str tokenizationResult.data.last4),
      ("bin", .str tokenizationResult.data.bin)]
    |>.setIfLet "scheme" (tokenizationResult.data.scheme.map .str)
    |>.setIfLet "schemeLocal" (tokenizationResult.data.schemeLocal.map .str)
    |>.setIfLet "cardType" (tokenizationResult.data.cardType.map .str)
    |>.setIfLet "cardCategory" (tokenizationResult.data.cardCategory.map .str)
    |>.setIfLet "issuer" (tokenizationResult.data.issuer.map .str)
    |>.setIfLet "issuerCountry" (tokenizationResult.data.issuerCountry.map .str)
    |>.setIfLet "productId" (tokenizationResult.data.productId.map .str)
    |>.setIfLet "productType" (tokenizationResult.data.productType.map .str)
    |>.setIfLet "name" (tokenizationResult.data.name.map .str)
    |>.setIfLet "cvv" (tokenizationResult.data.cvv.map .str)
    |>.setIfLet "billingAddress" (tokenizationResult.data.billingAddress.map fun a => (addr a).json)
    |>.setIfLet "phone" (tokenizationResult.data.phone.map fun phone =>
        (literal [("number", .str phone.number), ("countryCode", .str phone.countryCode)]).json)
    |>.setIfLet "preferredScheme" (tokenizationResult.preferredScheme.map .str)
    |>.setIfLet "cardMetadata" (tokenizationResult.cardMetadata.map fun m => (cardMeta m).json)

/-- The body of the event of a view whose prop `paymentMethod` is given. -/
def emitHandleTokenized (lowercased : String → String) (paymentMethod : Option String) (requestId : String)
    (tokenizationResult : TokenizationResult) : Json :=
  let component := lowercased (paymentMethod.getD "applepay")
  let payload := literal [("component", .str component), ("requestId", .str requestId),
    ("tokenizationResult", (tokenData tokenizationResult).json)]
  (literal [("tokenizationData", payload.json)]).json

end ApplePayView

namespace CardPayView

def addr (billingAddress : BillingAddress) : Dictionary :=
  literal [("country", .str billingAddress.country)]
    |>.setIfLet "addressLine1" (billingAddress.addressLine1.map .str)
    |>.setIfLet "addressLine2" (billingAddress.addressLine2.map .str)
    |>.setIfLet "city" (billingAddress.city.map .str)
    |>.setIfLet "state" (billingAddress.state.map .str)
    |>.setIfLet "zip" (billingAddress.zip.map .str)

/-- `meta` -/
def cardMeta (cardMetadata : CardMetadata) : Dictionary :=
  literal [("bin", .str cardMetadata.bin), ("scheme", .str cardMetadata.scheme)]
    |>.setIfLet "localSchemes" (cardMetadata.localSchemes.map fun localSchemes => .arr (localSchemes.map .str))
    |>.setIfLet "cardType" (cardMetadata.cardType.map .str)
    |>.setIfLet "cardCategory" (cardMetadata.cardCategory.map .str)
    |>.setIfLet "currency" (cardMetadata.currency.map .str)
    |>.setIfLet "issuer" (cardMetadata.issuer.map .str)
    |>.setIfLet "issuerCountry" (cardMetadata.issuerCountry.map .str)
    |>.setIfLet "issuerCountryName" (cardMetadata.issuerCountryName.map .str)
    |>.setIfLet "productId" (cardMetadata.productId.map .str)
    |>.setIfLet "productType" (cardMetadata.productType.map .str)

def tokenData (tokenizationResult : TokenizationResult) : Dictionary :=
  literal [("token", .str tokenizationResult.data.token),
      ("type", .str tokenizationResult.data.type),
      ("expiresOn", .str tokenizationResult.data.expiresOn),
      ("expiryMonth", .num (toString tokenizationResult.data.expiryMonth)),
      ("expiryYear", .num (toString tokenizationResult.data.expiryYear)),
      ("last4", .str tokenizationResult.data.last4),
      ("bin", .str tokenizationResult.data.bin)]
    |>.setIfLet "scheme" (tokenizationResult.data.scheme.map .str)
    |>.setIfLet "schemeLocal" (tokenizationResult.data.schemeLocal.map .str)
    |>.setIfLet "cardType" (tokenizationResult.data.cardType.map .str)
    |>.setIfLet "cardCategory" (tokenizationResult.data.cardCategory.map .str)
    |>.setIfLet "issuer" (tokenizationResult.data.issuer.map .str)
    |>.setIfLet "issuerCountry" (tokenizationResult.data.issuerCountry.map .str)
    |>.setIfLet "productId" (tokenizationResult.data.productId.map .str)
    |>.setIfLet "productType" (tokenizationResult.data.productType.map .str)
    |>.setIfLet "name" (tokenizationResult.data.name.map .str)
    |>.setIfLet "cvv" (tokenizationResult.data.cvv.map .str)
    |>.setIfLet "billingAddress" (tokenizationResult.data.billingAddress.map fun a => (addr a).json)
    |>.setIfLet "phone" (tokenizationResult.data.phone.map fun phone =>
        (literal [("number", .str phone.number), ("countryCode", .str phone.countryCode)]).json)
    |>.setIfLet "preferredScheme" (tokenizationResult.preferredScheme.map .str)
    |>.setIfLet "cardMetadata" (tokenizationResult.cardMetadata.map fun m => (cardMeta m).json)

def emitHandleTokenized (requestId : String) (tokenizationResult : TokenizationResult) : Json :=
  let payload := literal [("component", .str "card"), ("requestId", .str requestId),
    ("tokenizationResult", (tokenData tokenizationResult).json)]
  (literal [("tokenizationData", payload.json)]).json

end CardPayView

/-! ## The interface of `ApplePayView.tsx` -/

/-- A member `k: T` of an interface. -/
def required {α : Type} (read : Json → Option α) (o : Json) (k : String) : Option α := (o.get k).bind read

/-- A member `k?: T`: absent, it is `none`. -/
def optional {α : Type} (read : Json → Option α) (o : Json) (k : String) : Option (Option α) :=
  match o.get k with
  | none => some none
  | some j => (read j).map some

def string? : Json → Option String
  | .str s => some s
  | _ => none

def number? : Json → Option Int
  | .num t => t.toInt?
  | _ => none

def strings? : Json → Option (List String)
  | .arr items => items.mapM string?
  | _ => none

def BillingAddress.ofJson? (o : Json) : Option BillingAddress := do
  let country ← required string? o "country"
  let addressLine1 ← optional string? o "addressLine1"
  let addressLine2 ← optional string? o "addressLine2"
  let city ← optional string? o "city"
  let state ← optional string? o "state"
  let zip ← optional string? o "zip"
  some { country, addressLine1, addressLine2, city, state, zip }

def Phone.ofJson? (o : Json) : Option Phone := do
  let number ← required string? o "number"
  let countryCode ← required string? o "countryCode"
  some { number, countryCode }

def CardMetadata.ofJson? (o : Json) : Option CardMetadata := do
  let bin ← required string? o "bin"
  let scheme ← required string? o "scheme"
  let localSchemes ← optional strings? o "localSchemes"
  let cardType ← optional string? o "cardType"
  let cardCategory ← optional string? o "cardCategory"
  let currency ← optional string? o "currency"
  let issuer ← optional string? o "issuer"
  let issuerCountry ← optional string? o "issuerCountry"
  let issuerCountryName ← optional string? o "issuerCountryName"
  let productId ← optional string? o "productId"
  let productType ← optional string? o "productType"
  some { bin, scheme, localSchemes, cardType, cardCategory, currency, issuer, issuerCountry, issuerCountryName,
         productId, productType }

/-- The interface `TokenizationResult`, its members in their order. -/
def TokenizationResult.ofJson? (o : Json) : Option TokenizationResult := do
  let token ← required string? o "token"
  let type ← required string? o "type"
  let expiresOn ← required string? o "expiresOn"
  let expiryMonth ← required number? o "expiryMonth"
  let expiryYear ← required number? o "expiryYear"
  let last4 ← required string? o "last4"
  let bin ← required string? o "bin"
  let scheme ← optional string? o "scheme"
  let schemeLocal ← optional string? o "schemeLocal"
  let cardType ← optional string? o "cardType"
  let cardCategory ← optional string? o "cardCategory"
  let issuer ← optional string? o "issuer"
  let issuerCountry ← optional string? o "issuerCountry"
  let productId ← optional string? o "productId"
  let productType ← optional string? o "productType"
  let name ← optional string? o "name"
  let cvv ← optional string? o "cvv"
  let billingAddress ← optional BillingAddress.ofJson? o "billingAddress"
  let phone ← optional Phone.ofJson? o "phone"
  let preferredScheme ← optional string? o "preferredScheme"
  let cardMetadata ← optional CardMetadata.ofJson? o "cardMetadata"
  some
    { data := { token, type, expiresOn, expiryMonth, expiryYear, last4, bin, scheme, schemeLocal, cardType,
                cardCategory, issuer, issuerCountry, productId, productType, name, cvv, billingAddress, phone },
      preferredScheme, cardMetadata }

/-! ## What the interface reads of an encoding -/

section

variable {α : Type} {read : Json → Option α} {entries : List (String × Option Json)} {k : String}

theorem required_dictionary {j : Json} {a : α} (hread : read j = some a) (hnodup : (entries.map Prod.fst).Nodup)
    (h : (k, some j) ∈ entries) :
    required read (dictionary entries) k = some a := by
  rw [required, get_dictionary hnodup h]
  exact hread

theorem optional_dictionary {enc : α → Json} {v : Option α} (hread : ∀ a, read (enc a) = some a)
    (hnodup : (entries.map Prod.fst).Nodup) (h : (k, v.map enc) ∈ entries) :
    optional read (dictionary entries) k = some v := by
  rw [optional, get_dictionary hnodup h]
  cases v with
  | none => rfl
  | some a => exact congrArg (Option.map some) (hread a)

end

theorem bind_read {α β : Type} {x : Option α} {a : α} {f : α → Option β} {r : Option β} (hx : x = some a)
    (hf : f a = r) : x >>= f = r := by
  rw [hx]
  exact hf

theorem string?_str (s : String) : string? (.str s) = some s := rfl

theorem number?_num (i : Int) : number? (.num (toString i)) = some i := Int.toInt?_repr i

theorem strings?_arr (l : List String) : strings? (.arr (l.map .str)) = some l := by
  change (l.map Json.str).mapM string? = some l
  induction l with
  | nil => rfl
  | cons s rest ih =>
      rw [List.map_cons, List.mapM_cons, ih]
      rfl

/-! ## Each record is decoded from its own encoding -/

theorem BillingAddress.ofJson?_json (a : BillingAddress) : BillingAddress.ofJson? a.json = some a := by
  unfold BillingAddress.json
  generalize hes : [("country", text a.country), _, _, _, _, _] = entries
  have hnodup : (entries.map Prod.fst).Nodup := by simp [← hes]
  have hopt {k : String} {v : Option String} := optional_dictionary (k := k) (v := v) string?_str hnodup
  unfold BillingAddress.ofJson?
  apply bind_read (required_dictionary (string?_str a.country) hnodup (by simp [← hes, text]))
  apply bind_read (hopt (v := a.addressLine1) (by simp [← hes]))
  apply bind_read (hopt (v := a.addressLine2) (by simp [← hes]))
  apply bind_read (hopt (v := a.city) (by simp [← hes]))
  apply bind_read (hopt (v := a.state) (by simp [← hes]))
  apply bind_read (hopt (v := a.zip) (by simp [← hes]))
  rfl

theorem Phone.ofJson?_json (p : Phone) : Phone.ofJson? p.json = some p := by
  unfold Phone.json
  generalize hes : [("number", text p.number), _] = entries
  have hnodup : (entries.map Prod.fst).Nodup := by simp [← hes]
  unfold Phone.ofJson?
  apply bind_read (required_dictionary (string?_str p.number) hnodup (by simp [← hes, text]))
  apply bind_read (required_dictionary (string?_str p.countryCode) hnodup (by simp [← hes, text]))
  rfl

theorem CardMetadata.ofJson?_json (m : CardMetadata) : CardMetadata.ofJson? m.json = some m := by
  unfold CardMetadata.json
  generalize hes : [("bin", text m.bin), _, _, _, _, _, _, _, _, _, _] = entries
  have hnodup : (entries.map Prod.fst).Nodup := by simp [← hes]
  have hopt {k : String} {v : Option String} := optional_dictionary (k := k) (v := v) string?_str hnodup
  unfold CardMetadata.ofJson?
  apply bind_read (required_dictionary (string?_str m.bin) hnodup (by simp [← hes, text]))
  apply bind_read (required_dictionary (string?_str m.scheme) hnodup (by simp [← hes, text]))
  apply bind_read (optional_dictionary (v := m.localSchemes) strings?_arr hnodup (by simp [← hes]))
  apply bind_read (hopt (v := m.cardType) (by simp [← hes]))
  apply bind_read (hopt (v := m.cardCategory) (by simp [← hes]))
  apply bind_read (hopt (v := m.currency) (by simp [← hes]))
  apply bind_read (hopt (v := m.issuer) (by simp [← hes]))
  apply bind_read (hopt (v := m.issuerCountry) (by simp [← hes]))
  apply bind_read (hopt (v := m.issuerCountryName) (by simp [← hes]))
  apply bind_read (hopt (v := m.productId) (by simp [← hes]))
  apply bind_read (hopt (v := m.productType) (by simp [← hes]))
  rfl

/-- **Each record is decoded from its encoding.** -/
theorem TokenizationResult.ofJson?_json (t : TokenizationResult) : TokenizationResult.ofJson? t.json = some t := by
  unfold TokenizationResult.json
  generalize hes : [("token", text t.data.token), _, _, _, _, _, _, _, _, _, _, _, _, _, _, _, _, _, _, _, _] =
    entries
  have hnodup : (entries.map Prod.fst).Nodup := by simp [← hes]
  have hreq {k : String} {a : String} := required_dictionary (k := k) (string?_str a) hnodup
  have hopt {k : String} {v : Option String} := optional_dictionary (k := k) (v := v) string?_str hnodup
  unfold TokenizationResult.ofJson?
  apply bind_read (hreq (a := t.data.token) (by simp [← hes, text]))
  apply bind_read (hreq (a := t.data.type) (by simp [← hes, text]))
  apply bind_read (hreq (a := t.data.expiresOn) (by simp [← hes, text]))
  apply bind_read (required_dictionary (number?_num t.data.expiryMonth) hnodup (by simp [← hes]))
  apply bind_read (required_dictionary (number?_num t.data.expiryYear) hnodup (by simp [← hes]))
  apply bind_read (hreq (a := t.data.last4) (by simp [← hes, text]))
  apply bind_read (hreq (a := t.data.bin) (by simp [← hes, text]))
  apply bind_read (hopt (v := t.data.scheme) (by simp [← hes]))
  apply bind_read (hopt (v := t.data.schemeLocal) (by simp [← hes]))
  apply bind_read (hopt (v := t.data.cardType) (by simp [← hes]))
  apply bind_read (hopt (v := t.data.cardCategory) (by simp [← hes]))
  apply bind_read (hopt (v := t.data.issuer) (by simp [← hes]))
  apply bind_read (hopt (v := t.data.issuerCountry) (by simp [← hes]))
  apply bind_read (hopt (v := t.data.productId) (by simp [← hes]))
  apply bind_read (hopt (v := t.data.productType) (by simp [← hes]))
  apply bind_read (hopt (v := t.data.name) (by simp [← hes]))
  apply bind_read (hopt (v := t.data.cvv) (by simp [← hes]))
  apply bind_read
    (optional_dictionary (v := t.data.billingAddress) BillingAddress.ofJson?_json hnodup (by simp [← hes]))
  apply bind_read (optional_dictionary (v := t.data.phone) Phone.ofJson?_json hnodup (by simp [← hes]))
  apply bind_read (hopt (v := t.preferredScheme) (by simp [← hes]))
  apply bind_read (optional_dictionary (v := t.cardMetadata) CardMetadata.ofJson?_json hnodup (by simp [← hes]))
  rfl

/-! ## The two views -/

theorem CardPayView.json_addr (a : BillingAddress) : (CardPayView.addr a).json = a.json := by
  rw [BillingAddress.json, ← Dictionary.json_build]
  · rfl
  · simp

theorem CardPayView.json_cardMeta (m : CardMetadata) : (CardPayView.cardMeta m).json = m.json := by
  rw [CardMetadata.json, ← Dictionary.json_build]
  · rfl
  · simp

theorem CardPayView.json_tokenData (t : TokenizationResult) : (CardPayView.tokenData t).json = t.json := by
  have haddr : (fun a => (CardPayView.addr a).json) = BillingAddress.json := funext CardPayView.json_addr
  have hmeta : (fun m => (CardPayView.cardMeta m).json) = CardMetadata.json := funext CardPayView.json_cardMeta
  rw [TokenizationResult.json, ← Dictionary.json_build, CardPayView.tokenData, haddr, hmeta]
  · rfl
  · simp

theorem ApplePayView.tokenData_eq (t : TokenizationResult) : ApplePayView.tokenData t = CardPayView.tokenData t := by
  have haddr : ApplePayView.addr = CardPayView.addr := rfl
  have hmeta : ApplePayView.cardMeta = CardPayView.cardMeta := rfl
  rw [ApplePayView.tokenData, CardPayView.tokenData, haddr, hmeta]

theorem CardPayView.emitHandleTokenized_eq (requestId : String) (t : TokenizationResult) :
    CardPayView.emitHandleTokenized requestId t = tokenizedEvent requestId t := by
  rw [CardPayView.emitHandleTokenized, CardPayView.json_tokenData, tokenizedEvent, Dictionary.json_literal (by simp),
    Dictionary.json_literal (by simp)]

/-- `event.tokenizationData.tokenizationResult` -/
def tokenizationResult? (event : Json) : Option Json :=
  (event.get "tokenizationData").bind fun tokenizationData => tokenizationData.get "tokenizationResult"

theorem tokenizationResult?_event (component requestId : String) (j : Json) :
    tokenizationResult? (.obj [("tokenizationData", .obj [("component", .str component), ("requestId", .str requestId),
      ("tokenizationResult", j)])]) = some j := by
  simp [tokenizationResult?, Json.get, Js.Value.optionalMember, List.lookup_cons]

theorem ApplePayView.tokenizationResult?_emitHandleTokenized (lowercased : String → String)
    (paymentMethod : Option String) (requestId : String) (t : TokenizationResult) :
    tokenizationResult? (ApplePayView.emitHandleTokenized lowercased paymentMethod requestId t) = some t.json := by
  rw [ApplePayView.emitHandleTokenized, ApplePayView.tokenData_eq, CardPayView.json_tokenData,
    Dictionary.json_literal (by simp), Dictionary.json_literal (by simp), tokenizationResult?_event]

theorem CardPayView.tokenizationResult?_emitHandleTokenized (requestId : String) (t : TokenizationResult) :
    tokenizationResult? (CardPayView.emitHandleTokenized requestId t) = some t.json := by
  rw [CardPayView.emitHandleTokenized_eq, tokenizedEvent, tokenizationResult?_event]

/-- **The tokenization event loses nothing**: whichever view emits it, the map decodes to the record it was filled
from, and both views emit the same map. -/
theorem emitHandleTokenized_roundtrip (lowercased : String → String) (paymentMethod : Option String)
    (requestId requestId' : String) (t : TokenizationResult) :
    (tokenizationResult? (ApplePayView.emitHandleTokenized lowercased paymentMethod requestId t)).bind
        TokenizationResult.ofJson? = some t ∧
      (tokenizationResult? (CardPayView.emitHandleTokenized requestId' t)).bind
        TokenizationResult.ofJson? = some t ∧
      tokenizationResult? (ApplePayView.emitHandleTokenized lowercased paymentMethod requestId t) =
        tokenizationResult? (CardPayView.emitHandleTokenized requestId' t) := by
  rw [ApplePayView.tokenizationResult?_emitHandleTokenized, CardPayView.tokenizationResult?_emitHandleTokenized,
    Option.bind_some, TokenizationResult.ofJson?_json]
  exact ⟨rfl, rfl, rfl⟩

end FlowDemo.Ios
