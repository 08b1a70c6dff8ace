/-
  LivePreview.Workspace.Settings
  ──────────────────────────────
  **Settings that are given as texts.**

  The environment of a server gives its settings as texts; an empty one stands for
  the default.
-/
import LivePreview.Json.Reader
import LivePreview.Preview.Config
import LivePreview.Text.Blank
import LivePreview.Text.Quoted

namespace LivePreview.Workspace

/-- What is wrong with a setting. -/
inductive SettingFault where
  | externalsNotJson (cause : Json.Cause)
  | externalsNotATable
  | notAnInteger (name raw : String)
  | notPositive (name : String)
  deriving DecidableEq, Repr

/-- The wording of a fault. -/
def SettingFault.message : SettingFault → String
  | .externalsNotJson cause => "PREVIEW_EXTERNALS is not valid JSON: " ++ cause.message
  | .externalsNotATable =>
    "PREVIEW_EXTERNALS must be a JSON object of specifier to URL strings"
  | .notAnInteger name raw => name ++ " must be an integer, got " ++ Text.quoted raw
  | .notPositive name => name ++ " must be at least 1"

/-- The texts under the fields of an object; `none` if one of them is no text. -/
def textFields? (fields : Json.Fields) : Option (Table Text) :=
  fields.mapM fun (key, value) => value.text?.map (key, ·)

/-- The default externals with the entries of a JSON object over them. -/
def parseExternals (raw : String) : Except SettingFault (Table Text) :=
  if (Text.trim raw.toList).isEmpty then .ok Preview.defaultExternals
  else
    match Json.read raw with
    | .error fault => .error (.externalsNotJson fault.cause)
    | .ok (.object fields) =>
      match textFields? fields with
      | some overrides => .ok (Table.insertAll Preview.defaultExternals overrides)
      | none => .error .externalsNotATable
    | .ok _ => .error .externalsNotATable

/-- The positive number that a setting is, a default if it is empty. -/
def parsePositive (name raw : String) (default : Int) : Except SettingFault Int :=
  if raw.isEmpty then .ok default
  else
    match Number.readDecimal? raw with
    | none => .error (.notAnInteger name raw)
    | some n => if n < 1 then .error (.notPositive name) else .ok n

end LivePreview.Workspace
