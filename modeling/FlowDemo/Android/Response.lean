import FlowDemo.Js.Value

/-!
# What the Android views make of a response

`CardView.kt` and `GooglePayView.kt` share, line for line, the session and result records, the reading of a JS
response into a `CustomApiCallResult` and, up to the default payment type, the decoding of an accepted response into
the SDK's `PaymentSessionSubmissionResult`. React Native's `ReadableMap` and Android's `org.json` are outside the
repository; they enter by their documented behaviour.
-/

namespace FlowDemo.Android

open Js (Json)

structure SessionData where
  id : String
  secret : String
  sessionData : Option String := none
  deriving DecidableEq

/-! ## Responses from JavaScript -/

/-- A map that crossed the bridge: `undefined` members are not transported. -/
abbrev ReadableMap := List (String × Json)

/-- The transport of a JavaScript object over the bridge. -/
def toReadableMap (o : Js.Object) : ReadableMap := o.filterMap fun e => e.2.map (e.1, ·)

/-- What the native code throws at a dynamic type it did not expect. -/
inductive NativeException
  | unexpectedNativeType (key : String)
  deriving DecidableEq

/-- `ReadableMap.getString`: `null` for an absent or null member, an exception for any other non-string. -/
def ReadableMap.getString (m : ReadableMap) (key : String) : Except NativeException (Option String) :=
  match m.lookup key with
  | none => .ok none
  | some .null => .ok none
  | some (.str s) => .ok (some s)
  | some _ => .error (.unexpectedNativeType key)

structure CustomApiCallResult where
  success : Bool
  data : Option ReadableMap := none
  error : Option String := none

/-- The result `handleSubmitResponse` resumes a continuation with, in both views. -/
def responseResult (success : Bool) (data : Option ReadableMap) : Except NativeException CustomApiCallResult :=
  match success, data with
  | true, some m => .ok { success := true, data := some m }
  | _, none => .ok { success := false, error := some "Unknown error" }
  | false, some m => do
      let error ← m.getString "error"
      pure { success := false, error := some (error.getD "Unknown error") }

/-- The payloads that make `handleSubmitResponse` throw: an error answer whose `error` is neither text nor null. -/
def Throws (success : Bool) (data : Option ReadableMap) : Prop :=
  success = false ∧ ∃ m, data = some m ∧ ∃ v, m.lookup "error" = some v ∧ v ≠ .null ∧ ∀ s, v ≠ .str s

theorem getString_error_iff (m : ReadableMap) (key : String) :
    (∃ e, m.getString key = .error e) ↔ ∃ v, m.lookup key = some v ∧ v ≠ .null ∧ ∀ s, v ≠ .str s := by
  unfold ReadableMap.getString
  cases m.lookup key with
  | none => simp
  | some v => cases v <;> simp

/-- **Exactly the payloads of `Throws` throw.** -/
theorem responseResult_error_iff (success : Bool) (data : Option ReadableMap) :
    (∃ e, responseResult success data = .error e) ↔ Throws success data := by
  cases data with
  | none => cases success <;> simp [responseResult, Throws]
  | some m =>
      cases success with
      | true => simp [responseResult, Throws]
      | false =>
          have hg := getString_error_iff m "error"
          simp only [responseResult, Throws, Option.some.injEq, exists_eq_left', true_and]
          rw [← hg]
          cases m.getString "error" with
          | error e => simp [bind, Except.bind]
          | ok v => simp [bind, Except.bind, pure, Except.pure]

theorem responseResult_accepted (m : ReadableMap) :
    responseResult true (some m) = .ok { success := true, data := some m, error := none } := rfl

theorem responseResult_missing (success : Bool) :
    responseResult success none = .ok { success := false, data := none, error := some "Unknown error" } := by
  cases success <;> rfl

theorem responseResult_refused (m : ReadableMap) :
    responseResult false (some m) =
      (m.getString "error").map fun error => { success := false, error := some (error.getD "Unknown error") } := by
  change (m.getString "error" >>= _) = _
  cases m.getString "error" <;> rfl

theorem responseResult_text {m : ReadableMap} {text : String} (h : m.lookup "error" = some (.str text)) :
    responseResult false (some m) = .ok { success := false, data := none, error := some text } := by
  rw [responseResult_refused, ReadableMap.getString, h]
  rfl

theorem responseResult_textless {m : ReadableMap} (h : m.lookup "error" = none ∨ m.lookup "error" = some .null) :
    responseResult false (some m) = .ok { success := false, data := none, error := some "Unknown error" } := by
  rw [responseResult_refused, ReadableMap.getString]
  rcases h with h | h
  · rw [h]
    rfl
  · rw [h]
    rfl

theorem responseResult_throws {m : ReadableMap} {j : Json} (h : m.lookup "error" = some j) (hnull : j ≠ .null)
    (htext : ∀ text, j ≠ .str text) : responseResult false (some m) = .error (.unexpectedNativeType "error") := by
  rw [responseResult_refused, ReadableMap.getString, h]
  cases j with
  | null => exact absurd rfl hnull
  | str text => exact absurd rfl (htext text)
  | _ => rfl

theorem responseResult_false {data : Option ReadableMap} {result : CustomApiCallResult}
    (h : responseResult false data = .ok result) : result.success = false := by
  cases data with
  | none =>
      cases h
      rfl
  | some m =>
      simp only [responseResult] at h
      cases hg : m.getString "error" with
      | error e =>
          rw [hg] at h
          cases h
      | ok error =>
          rw [hg] at h
          cases h
          rfl

theorem throws_error_iff (j : Json) :
    Throws false (some [("error", j)]) ↔ j ≠ .null ∧ ∀ s, j ≠ .str s := by
  simp [Throws]

theorem not_throws_of_responseResult_ok {success : Bool} {data : Option ReadableMap} {result : CustomApiCallResult}
    (h : responseResult success data = .ok result) : ¬ Throws success data := by
  rw [← responseResult_error_iff, h]
  rintro ⟨e, he⟩
  cases he

theorem throws_of_responseResult_error {success : Bool} {data : Option ReadableMap} {e : NativeException}
    (h : responseResult success data = .error e) : Throws success data :=
  (responseResult_error_iff success data).mp ⟨e, h⟩

end FlowDemo.Android
