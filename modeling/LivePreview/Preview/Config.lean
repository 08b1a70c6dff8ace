/-
  LivePreview.Preview.Config
  ──────────────────────────
  **What a preview is configured with, and how bare specifiers are looked up.**

  The table of externals maps bare specifiers to URLs.  A key that ends in a slash
  stands for everything beneath it (`resolveExternal?`), as in the import map of a
  page.
-/
import LivePreview.Table
import LivePreview.Text.Basic

namespace LivePreview.Preview

/-! ## §1. Configuration -/

/-- The externals that are there if nothing else is configured. -/
def defaultExternals : Table Text := [
  ("react", "https://esm.sh/react@18.3.1"),
  ("react/jsx-runtime", "https://esm.sh/react@18.3.1/jsx-runtime"),
  ("react-dom", "https://esm.sh/react-dom@18.3.1?deps=react@18.3.1"),
  ("react-dom/client", "https://esm.sh/react-dom@18.3.1/client?deps=react@18.3.1")]

/-- The files that are tried as the entry, in order. -/
def defaultEntryCandidates : List Text :=
  ["/App.jsx", "/App.tsx", "/index.jsx", "/index.tsx", "/src/App.jsx", "/src/App.tsx"]

/-- The configuration of previews. -/
structure Config where
  externals : Table Text := defaultExternals
  title : String := "Preview"
  /-- The page renders what the entry exports, and does not only run it. -/
  mountsEntry : Bool := true
  /-- The id of the element that the entry is rendered into. -/
  rootId : String := "root"
  entryCandidates : List Text := defaultEntryCandidates
  deriving DecidableEq, Repr, Inhabited

/-- The externals that a page needs to render its entry. -/
def mountExternals : List Text :=
  ["react", "react-dom/client"]

/-! ## §2. Looking up externals -/

/-- The key stands for everything beneath it, and the specifier lies there. -/
def coversPath (key : Text) (specifier : Text) : Bool :=
  key.points.getLast? == some (.char '/') && specifier.startsWith key

/-- The longer one of two keys, the first one if they have one length. -/
def longerKey (best : Option (Text × Text)) (entry : Text × Text) :
    Option (Text × Text) :=
  match best with
  | none => some entry
  | some current => if current.1.length < entry.1.length then some entry else some current

/-- The URL that a bare specifier stands for: that of its key, or else that of the longest key
that covers it, followed by the rest of the specifier. -/
def resolveExternal? (externals : Table Text) (specifier : Text) : Option Text :=
  match Table.get? externals specifier with
  | some url => some url
  | none =>
    ((externals.filter fun (key, _) => coversPath key specifier).foldl longerKey none).map
      fun (key, url) => url ++ specifier.drop key.length

end LivePreview.Preview
