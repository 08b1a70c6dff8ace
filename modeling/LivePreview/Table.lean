/-
  LivePreview.Table
  ─────────────────
  **Tables that keep the order in which their keys were first entered.**

  A table is a list of key–value pairs without repeated keys; the keys are texts where
  nothing else is said.  Entering a value under a present key replaces the value and
  moves nothing; a new key goes to the end.
-/
import LivePreview.Text.Basic

namespace LivePreview

/-- A table from keys to values in the order of entry. -/
abbrev Table (α : Type) (κ : Type := Text) := List (κ × α)

namespace Table

variable {α κ : Type} [DecidableEq κ]

/-- Enter a value under a key. -/
def insert (key : κ) (value : α) : Table α κ → Table α κ
  | [] => [(key, value)]
  | (k, v) :: rest => if k = key then (k, value) :: rest else (k, v) :: insert key value rest

/-- Enter the pairs of a list from left to right. -/
def insertAll (table : Table α κ) (pairs : List (κ × α)) : Table α κ :=
  pairs.foldl (fun t (k, v) => t.insert k v) table

/-- The table of a list of pairs: a repeated key keeps its first place and its last value. -/
def ofPairs (pairs : List (κ × α)) : Table α κ :=
  insertAll [] pairs

/-- The value under a key. -/
def get? (table : Table α κ) (key : κ) : Option α :=
  table.lookup key

/-- The keys in the order of entry. -/
def keys (table : Table α κ) : List κ :=
  table.map Prod.fst

/-- The values in the order of entry. -/
def values (table : Table α κ) : List α :=
  table.map Prod.snd

end Table

end LivePreview
