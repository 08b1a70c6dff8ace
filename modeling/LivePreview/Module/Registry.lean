/-
  LivePreview.Module.Registry
  ───────────────────────────
  **References to module code.**

  A page imports a module by reference: a data URL that holds the code itself, and
  behind it the path that the browser shows for it.  Equal modules have one
  reference, so a registry counts how often each one has been given out and not yet
  given back; it is live as long as its count is positive.
-/
import Std.Data.ExtTreeMap
import LivePreview.Text.Base64
import LivePreview.Text.Basic

namespace LivePreview.Module

open LivePreview.Text

/-! ## §1. References -/

/-- What a reference starts with. -/
def referenceScheme : String := "data:text/javascript;base64,"

/-- What the name starts with under which a page knows the module of a file. -/
def idStart : String := "@vfs"

/-- The name under which a page knows the module of a file. -/
def idOf (path : Text) : Text :=
  idStart ++ path

/-- The code with a comment behind it that names the file it comes from. -/
def tagged (code : String) : Option String → String
  | some path => code ++ "\n//# sourceURL=" ++ idStart ++ path ++ "\n"
  | none => code

/-- The reference to code that comes from a file, or from none. -/
def referenceOf (code : String) (path? : Option String) : String :=
  referenceScheme
    ++ String.ofList (Base64.encode (tagged code path?).toUTF8.data.toList)

/-- Why a text is no reference to code. -/
inductive ReferenceFault where
  /-- The text does not start as a reference; its beginning is shown. -/
  | otherScheme (start : String)
  | encoding (fault : Base64.Fault)
  /-- The bytes are no UTF-8. -/
  | notText
  deriving DecidableEq, Repr

/-- The code behind a reference. -/
def decodeReference (reference : String) : Except ReferenceFault String :=
  let cs := reference.toList
  if referenceScheme.toList.isPrefixOf cs then
    match Base64.decode (cs.drop referenceScheme.length) with
    | .error fault => .error (.encoding fault)
    | .ok bytes =>
      match String.fromUTF8? ⟨bytes.toArray⟩ with
      | some code => .ok code
      | none => .error .notText
  else .error (.otherScheme (String.ofList (cs.take 40)))

/-! ## §2. Counting -/

/-- How often each live reference has been given out and not yet given back. -/
@[ext] structure Registry where
  counts : Std.ExtTreeMap String Nat compare

namespace Registry

/-- The registry without live references. -/
def empty : Registry := ⟨∅⟩

instance : Inhabited Registry := ⟨empty⟩

/-- The count of a reference. -/
def count (registry : Registry) (reference : String) : Nat :=
  registry.counts[reference]?.getD 0

/-- Give a reference out. -/
def add (registry : Registry) (reference : String) : Registry :=
  ⟨registry.counts.insert reference (registry.count reference + 1)⟩

/-- Give out the reference to code that comes from a file, or from none. -/
def register (registry : Registry) (code : String) (path? : Option String) :
    String × Registry :=
  (referenceOf code path?, registry.add (referenceOf code path?))

/-- Give a reference back; one that is not live is ignored. -/
def release (registry : Registry) (reference : String) : Registry :=
  if registry.count reference ≤ 1 then ⟨registry.counts.erase reference⟩
  else ⟨registry.counts.insert reference (registry.count reference - 1)⟩

/-- Give references back, from left to right. -/
def releaseAll (registry : Registry) (references : List String) : Registry :=
  references.foldl release registry

/-- The reference is live. -/
def isLive (registry : Registry) (reference : String) : Bool :=
  0 < registry.count reference

/-- The number of live references. -/
def liveCount (registry : Registry) : Nat :=
  registry.counts.size

end Registry

end LivePreview.Module
