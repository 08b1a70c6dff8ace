/-
  LivePreview.Json.Basic
  ──────────────────────
  **JSON values.**

  Whole numbers are exact and apart from doubles, and an object keeps the order of
  its fields.  Equality of values is decidable (`Json.decEq`).

  Two values count as equal if they agree (`Json.agrees`): numbers are compared by what
  they are worth, however they are written, so that a truth value is worth zero or one,
  and a double equals a whole number of the same worth, while not-a-number equals
  nothing.  Arrays are compared item by item, and objects field by field without regard
  to order.
-/
import LivePreview.Number.Binary64
import LivePreview.Table
import LivePreview.Text.Basic

namespace LivePreview

open LivePreview.Number (Binary64)

/-- A JSON value. -/
inductive Json where
  | null
  | bool (b : Bool)
  | int (n : Int)
  | double (x : Binary64)
  | text (s : Text)
  | array (items : List Json)
  | object (fields : List (Text × Json))
  deriving Inhabited

namespace Json

/-! ## §1. Equality -/

mutual

/-- Two values are equal, or not. -/
def decEq : (a b : Json) → Decidable (a = b)
  | .null, .null => isTrue rfl
  | .bool a, .bool b => decidable_of_iff (a = b) (by simp)
  | .int a, .int b => decidable_of_iff (a = b) (by simp)
  | .double a, .double b => decidable_of_iff (a = b) (by simp)
  | .text a, .text b => decidable_of_iff (a = b) (by simp)
  | .array as, .array bs =>
    have := decEqItems as bs
    decidable_of_iff (as = bs) (by simp)
  | .object as, .object bs =>
    have := decEqFields as bs
    decidable_of_iff (as = bs) (by simp)
  | .null, .bool _ | .null, .int _ | .null, .double _ | .null, .text _ | .null, .array _
  | .null, .object _ | .bool _, .null | .bool _, .int _ | .bool _, .double _
  | .bool _, .text _ | .bool _, .array _ | .bool _, .object _ | .int _, .null
  | .int _, .bool _ | .int _, .double _ | .int _, .text _ | .int _, .array _
  | .int _, .object _ | .double _, .null | .double _, .bool _ | .double _, .int _
  | .double _, .text _ | .double _, .array _ | .double _, .object _ | .text _, .null
  | .text _, .bool _ | .text _, .int _ | .text _, .double _ | .text _, .array _
  | .text _, .object _ | .array _, .null | .array _, .bool _ | .array _, .int _
  | .array _, .double _ | .array _, .text _ | .array _, .object _ | .object _, .null
  | .object _, .bool _ | .object _, .int _ | .object _, .double _ | .object _, .text _
  | .object _, .array _ => isFalse (by simp)

/-- Two lists of values are equal, or not. -/
def decEqItems : (as bs : List Json) → Decidable (as = bs)
  | [], [] => isTrue rfl
  | a :: as, b :: bs =>
    have := decEq a b
    have := decEqItems as bs
    decidable_of_iff (a = b ∧ as = bs) (by simp)
  | [], _ :: _ | _ :: _, [] => isFalse (by simp)

/-- Two lists of fields are equal, or not. -/
def decEqFields : (as bs : List (Text × Json)) → Decidable (as = bs)
  | [], [] => isTrue rfl
  | (k, a) :: as, (l, b) :: bs =>
    have := decEq a b
    have := decEqFields as bs
    decidable_of_iff (k = l ∧ a = b ∧ as = bs) (by simp [and_assoc])
  | [], _ :: _ | _ :: _, [] => isFalse (by simp)

end

instance : DecidableEq Json := decEq

/-! ## §2. Making values -/

/-- The fields of an object. -/
abbrev Fields := List (Text × Json)

/-- An array of words. -/
def ofWords (words : List String) : Json :=
  .array (words.map fun (word : String) => .text word)

/-- A field of an object that is there if there is a value for it. -/
def fieldOf? {α : Type} (name : Text) (value? : Option α) (f : α → Json) : Fields :=
  value?.toList.map fun value => (name, f value)

/-- A field of an object that is there if a condition holds. -/
def fieldIf (condition : Bool) (name : Text) (value : Json) : Fields :=
  if condition then [(name, value)] else []

/-! ## §3. Questions -/

/-- The value under a field of an object. -/
def field? (value : Json) (name : Text) : Option Json :=
  match value with
  | .object fields => Table.get? fields name
  | _ => none

/-- The text that the value is, if it is one. -/
def text? : Json → Option Text
  | .text s => some s
  | _ => none

/-- The string that the value is, if it is a text without halves. -/
def string? (value : Json) : Option String :=
  value.text?.bind Text.string?

/-- Null, false, zero and the empty text, array and object are blank; every other value is
filled. -/
def isFilled : Json → Bool
  | .null => false
  | .bool b => b
  | .int n => n != 0
  | .double (.finite _ m _) => m != 0
  | .double _ => true
  | .text s => !s.isEmpty
  | .array items => !items.isEmpty
  | .object fields => !fields.isEmpty

/-! ## §4. Values that count as equal -/

/-- The whole number that a value is worth, if it is worth one. -/
def worth? : Json → Option Int
  | .bool b => some (if b then 1 else 0)
  | .int n => some n
  | .double x => x.toInt?
  | _ => none

/-- The value is a number or a truth value. -/
def isNumber : Json → Bool
  | .bool _ | .int _ | .double _ => true
  | _ => false

/-- Two numbers are worth the same. -/
def sameWorth (a b : Json) : Bool :=
  match a, b with
  | .double x, .double y => x != .nan && (x == y || (x.toInt?.isSome && x.toInt? == y.toInt?))
  | a, b => (worth? a).isSome && worth? a == worth? b

mutual

/-- Two values count as equal. -/
def agrees : Json → Json → Bool
  | .null, .null => true
  | .text a, .text b => a == b
  | .array as, .array bs => agreesItems as bs
  | .object as, .object bs => as.length == bs.length && agreesFields as bs
  | a, b => isNumber a && isNumber b && sameWorth a b

/-- Two lists of values count as equal. -/
def agreesItems : List Json → List Json → Bool
  | [], [] => true
  | a :: as, b :: bs => agrees a b && agreesItems as bs
  | _, _ => false

/-- Every field stands with a value that counts as equal among other fields. -/
def agreesFields : Fields → Fields → Bool
  | [], _ => true
  | (name, a) :: as, bs =>
    (match bs.lookup name with
      | some b => agrees a b
      | none => false) && agreesFields as bs

end

end Json

end LivePreview
