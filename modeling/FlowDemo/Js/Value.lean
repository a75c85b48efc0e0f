import Mathlib.Data.List.Basic

/-!
# JavaScript values that come from JSON

`Json` is what `JSON.parse` can return. A JavaScript value read from it is an `Option Json`, `none` being
`undefined`. Member reads, truthiness and string conversion follow the language: reading a member of `undefined` or
`null` throws, and so does converting an object that carries a member of its own called `toString`, since that member
shadows the inherited method and is never callable.

A number is kept as the text the language prints for it, which determines it (both zeros print `0`). `Infinity` is
such a number: `JSON.parse` returns it for a literal past the range, and `JSON.stringify` writes `null` for it.
-/

namespace FlowDemo.Js

inductive Json
  | null
  | bool (b : Bool)
  | num (text : String)
  | str (s : String)
  | arr (items : List Json)
  | obj (members : List (String × Json))

/-- The message of a thrown `Error`. -/
abbrev Error := String

namespace Json

/-- The members of an object, `none` for every other value. -/
def members? : Json → Option (List (String × Json))
  | .obj ms => some ms
  | _ => none

mutual

/-- The document `JSON.stringify` writes: the numbers JSON has no literal for become `null`. -/
def written : Json → Json
  | .num t => if t = "Infinity" ∨ t = "-Infinity" then .null else .num t
  | .arr xs => .arr (writtenItems xs)
  | .obj ms => .obj (writtenMembers ms)
  | .null => .null
  | .bool b => .bool b
  | .str s => .str s

def writtenItems : List Json → List Json
  | [] => []
  | x :: xs => written x :: writtenItems xs

def writtenMembers : List (String × Json) → List (String × Json)
  | [] => []
  | (k, x) :: ms => (k, written x) :: writtenMembers ms

end

theorem lookup_writtenMembers (ms : List (String × Json)) (k : String) :
    (writtenMembers ms).lookup k = (ms.lookup k).map written := by
  induction ms with
  | nil => simp [writtenMembers]
  | cons m ms ih =>
      obtain ⟨k', x⟩ := m
      rw [writtenMembers, List.lookup_cons, List.lookup_cons, ih]
      cases k == k' <;> rfl

theorem members?_written (j : Json) : j.written.members? = j.members?.map writtenMembers := by
  cases j with
  | num t =>
      unfold written
      split <;> rfl
  | obj ms => simp [written, members?]
  | null => simp [written, members?]
  | bool b => simp [written, members?]
  | str s => simp [written, members?]
  | arr xs => simp [written, members?]

mutual

/-- `ToString`, as a template literal applies it; it throws on an object with a `toString` member. -/
def toText : Json → Except Error String
  | .null => .ok "null"
  | .bool b => .ok (if b then "true" else "false")
  | .num t => .ok t
  | .str s => .ok s
  | .arr xs => (itemTexts xs).map (String.intercalate ",")
  | .obj ms => if (ms.lookup "toString").isSome then .error "Cannot determine default value of object"
      else .ok "[object Object]"

/-- The parts an array joins: `null` items are empty. -/
def itemTexts : List Json → Except Error (List String)
  | [] => .ok []
  | .null :: xs => (itemTexts xs).map ("" :: ·)
  | x :: xs => do
      let t ← toText x
      let ts ← itemTexts xs
      pure (t :: ts)

end

end Json

/-- A JavaScript value: `none` is `undefined`. -/
abbrev Value := Option Json

namespace Value

/-- `v.k` -/
def member (v : Value) (k : String) : Except Error Value :=
  match v with
  | none => .error ("Cannot read property '" ++ k ++ "' of undefined")
  | some .null => .error ("Cannot read property '" ++ k ++ "' of null")
  | some (.obj ms) => .ok (ms.lookup k)
  | some _ => .ok none

/-- `v?.k` -/
def optionalMember (v : Value) (k : String) : Value :=
  match v with
  | some (.obj ms) => ms.lookup k
  | _ => none

end Value

def Json.get (j : Json) (k : String) : Value := Value.optionalMember (some j) k

namespace Value

theorem member_of_ne_null {j : Json} (h : j ≠ .null) (k : String) : member (some j) k = .ok (j.get k) := by
  cases j with
  | null => exact absurd rfl h
  | obj ms => rfl
  | bool b => rfl
  | num t => rfl
  | str s => rfl
  | arr xs => rfl

def truthy : Value → Bool
  | none => false
  | some .null => false
  | some (.bool b) => b
  | some (.num t) => t ≠ "0"
  | some (.str s) => s ≠ ""
  | some (.arr _) => true
  | some (.obj _) => true

/-- `v || w` -/
def orElse (v w : Value) : Value := if v.truthy then v else w

/-- `v === 's'` -/
def isText (v : Value) (s : String) : Bool :=
  match v with
  | some (.str t) => t = s
  | _ => false

/-- `ToString` of a value. -/
def toText : Value → Except Error String
  | none => .ok "undefined"
  | some j => j.toText

end Value

/-- The members of a JavaScript object literal, some of them possibly `undefined`. -/
abbrev Object := List (String × Value)

/-- `{...o, k: v}` -/
def Object.assign (o : Object) (k : String) (v : Value) : Object := o.filter (fun e => e.1 ≠ k) ++ [(k, v)]

def startsWith (s p : String) : Bool := p.toList.isPrefixOf s.toList

theorem startsWith_append (p s : String) : startsWith (p ++ s) p = true := by
  rw [startsWith, String.toList_append, List.isPrefixOf_iff_prefix]
  exact List.prefix_append _ _

end FlowDemo.Js
