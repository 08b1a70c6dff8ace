/-
  LivePreview.Json.Encodable
  ──────────────────────────
  **Which values can be expressed, and how deep values are.**

  A value can be expressed in bytes if every text in it, and every name of a field,
  can (`isEncodable`).  The depth of a value counts the values that lie inside one
  another, the innermost one included (`depth`).

  Standard JSON has no words for not-a-number and the infinities.  A value is standard if
  it holds none of them (`isStandard`); any other value becomes standard with nulls in
  their places (`toStandard`).
-/
import LivePreview.Json.Basic

namespace LivePreview.Json

/-! ## §1. Bytes -/

mutual

/-- All texts and names in the value can be expressed in bytes. -/
def isEncodable : Json → Bool
  | .text s => s.isEncodable
  | .array items => areEncodableItems items
  | .object fields => areEncodableFields fields
  | _ => true

/-- All items can be expressed in bytes. -/
def areEncodableItems : List Json → Bool
  | [] => true
  | item :: items => isEncodable item && areEncodableItems items

/-- The names and values of all fields can be expressed in bytes. -/
def areEncodableFields : Fields → Bool
  | [] => true
  | (name, value) :: fields => name.isEncodable && isEncodable value && areEncodableFields fields

end

/-! ## §2. Depth -/

mutual

/-- How many values lie inside one another. -/
def depth : Json → Nat
  | .array items => depthOfItems items + 1
  | .object fields => depthOfFields fields + 1
  | _ => 1

/-- The depth of the deepest item. -/
def depthOfItems : List Json → Nat
  | [] => 0
  | item :: items => max (depth item) (depthOfItems items)

/-- The depth of the deepest value of a field. -/
def depthOfFields : Fields → Nat
  | [] => 0
  | (_, value) :: fields => max (depth value) (depthOfFields fields)

end

/-! ## §3. The standard -/

mutual

/-- The value holds only numbers that the standard has words for. -/
def isStandard : Json → Bool
  | .double (.finite _ _ _) => true
  | .double _ => false
  | .array items => areStandardItems items
  | .object fields => areStandardFields fields
  | _ => true

/-- All items are standard. -/
def areStandardItems : List Json → Bool
  | [] => true
  | item :: items => isStandard item && areStandardItems items

/-- The values of all fields are standard. -/
def areStandardFields : Fields → Bool
  | [] => true
  | (_, value) :: fields => isStandard value && areStandardFields fields

end

mutual

/-- The value with null in place of each number that the standard has no words for. -/
def toStandard : Json → Json
  | .double (.finite negative mantissa exponent) => .double (.finite negative mantissa exponent)
  | .double _ => .null
  | .array items => .array (toStandardItems items)
  | .object fields => .object (toStandardFields fields)
  | value => value

/-- The items in standard form. -/
def toStandardItems : List Json → List Json
  | [] => []
  | item :: items => toStandard item :: toStandardItems items

/-- The fields in standard form. -/
def toStandardFields : Fields → Fields
  | [] => []
  | (name, value) :: fields => (name, toStandard value) :: toStandardFields fields

end

end LivePreview.Json
