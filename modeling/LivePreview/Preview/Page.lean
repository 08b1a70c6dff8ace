/-
  LivePreview.Preview.Page
  ────────────────────────
  **The text of a page.**

  The content security policy of a page allows scripts and connections to the origins
  of its externals, and to no others.

  A page is one HTML document.  Its import map leads from the ids of modules to their
  references and from bare specifiers to URLs; a script shows and reports errors; and
  the main script imports the entry and, if the page mounts it, renders it into the
  root element.  Texts in markup are escaped, and the import map is written so that it
  cannot close its script; the main script has its values in it as plain literals.
-/
import Std.Data.ExtTreeSet
import LivePreview.Json.Writer
import LivePreview.Module.Registry
import LivePreview.Preview.Config
import LivePreview.Text.Markup
import LivePreview.Text.Occurrence
import LivePreview.Text.Origin

namespace LivePreview.Preview

open LivePreview.Text (UrlFault origin)

/-! ## §1. The policy -/

/-- The origins of URLs, each once and in ascending order; a URL without origin adds none. -/
def origins (urls : List Text) : Except UrlFault (List Text) := do
  let found ← urls.mapM origin
  return (Std.ExtTreeSet.ofList (found.filter (!·.isEmpty)) compare).toList

/-- Texts between blanks, where there are any. -/
def spaced (texts : List Text) : Text :=
  Text.intercalate " " (texts.filter (!·.isEmpty))

/-- The policy for given origins. -/
def policyFor (origins : List Text) : Text :=
  let hosts := spaced origins
  let connections : Text := if hosts.isEmpty then "'none'" else hosts
  "default-src 'none'; "
    ++ "script-src " ++ spaced ["'unsafe-inline'", "data:", hosts] ++ "; "
    ++ "style-src 'unsafe-inline'; "
    ++ "img-src data: blob: https:; "
    ++ "font-src data: https:; "
    ++ "connect-src " ++ connections

/-- The content security policy of a page with the given external URLs. -/
def contentSecurityPolicy (urls : List Text) : Except UrlFault Text :=
  (origins urls).map policyFor

end LivePreview.Preview

namespace LivePreview.Preview

open LivePreview.Text (Markup.escape replaceAll unlines)

/-! ## §2. Scripts -/

/-- The name under which a page reports errors to the window around it. -/
def messageSource : String := "workbench-preview"

/-- The script that shows errors and reports them, with `__SOURCE__` for its name. -/
def errorTemplate : Text :=
  unlines [
    "(function () \x7b",
    "  var SOURCE = __SOURCE__;",
    "  function show(message, stack) \x7b",
    "    var overlay = document.getElementById(\"__preview_error\");",
    "    if (!overlay) \x7b",
    "      overlay = document.createElement(\"pre\");",
    "      overlay.id = \"__preview_error\";",
    "      overlay.style.cssText = \"position:fixed;inset:0;margin:0;padding:16px;overflow:auto;\" +",
    "        \"background:#fff5f5;color:#b91c1c;font:13px/1.5 ui-monospace,monospace;\" +",
    "        \"white-space:pre-wrap;z-index:2147483647\";",
    "      document.body.appendChild(overlay);",
    "    \x7d",
    "    overlay.textContent = message + (stack ? \"\\n\\n\" + stack : \"\");",
    "  \x7d",
    "  function report(type, message, stack) \x7b",
    "    show(message, stack);",
    "    try \x7b",
    "      window.parent.postMessage(\x7b source: SOURCE, type: type, message: message, stack: stack || null \x7d, \"*\");",
    "    \x7d catch (e) \x7b",
    "      console.error(e);",
    "    \x7d",
    "  \x7d",
    "  window.__previewReport = report;",
    "  window.addEventListener(\"error\", function (event) \x7b",
    "    var error = event.error;",
    "    report(\"error\", error && error.message ? error.message : String(event.message), error && error.stack);",
    "  \x7d);",
    "  window.addEventListener(\"unhandledrejection\", function (event) \x7b",
    "    var reason = event.reason;",
    "    report(\"unhandledrejection\", reason && reason.message ? reason.message : String(reason), reason && reason.stack);",
    "  \x7d);",
    "\x7d)();"]

/-- The script that shows errors and reports them. -/
def errorScript : Text :=
  replaceAll "__SOURCE__" (Json.literal messageSource) errorTemplate

/-- The script that renders the entry, with `__ENTRY__` for its path and `__ROOT_ID__` for the id
of the root element. -/
def mountTemplate : Text :=
  unlines [
    "import React from \"react\";",
    "import \x7b createRoot \x7d from \"react-dom/client\";",
    "",
    "class PreviewErrorBoundary extends React.Component \x7b",
    "  constructor(props) \x7b",
    "    super(props);",
    "    this.state = \x7b error: null \x7d;",
    "  \x7d",
    "  static getDerivedStateFromError(error) \x7b",
    "    return \x7b error: error \x7d;",
    "  \x7d",
    "  componentDidCatch(error) \x7b",
    "    window.__previewReport(\"render\", error && error.message ? error.message : String(error), error && error.stack);",
    "  \x7d",
    "  render() \x7b",
    "    return this.state.error ? null : this.props.children;",
    "  \x7d",
    "\x7d",
    "",
    "const Component = entry.default;",
    "if (Component === undefined || Component === null) \x7b",
    "  throw new Error(\"Entry \" + __ENTRY__ + \" has no default export to render\");",
    "\x7d",
    "createRoot(document.getElementById(__ROOT_ID__)).render(",
    "  React.createElement(PreviewErrorBoundary, null, React.createElement(Component))",
    ");",
    ""]

/-- The script that renders the entry into an element. -/
def mountScript (rootId : String) (entry : Text) : Text :=
  replaceAll "__ENTRY__" (Json.literal entry)
    (replaceAll "__ROOT_ID__" (Json.literal rootId) mountTemplate)

/-- The script that a page runs. -/
def mainScript (config : Config) (entry : Text) : Text :=
  let entryId := Json.literal (Module.idOf entry)
  if config.mountsEntry then
    "import * as entry from " ++ entryId ++ ";\n" ++ mountScript config.rootId entry
  else "import " ++ entryId ++ ";\n"

/-! ## §3. The page -/

/-- The value as JSON that cannot close the script element around it. -/
def scriptJson (value : Json) : Text :=
  replaceAll "<" "\\u003c" (value.page 0)

/-- The import map of a page: the references of modules by id, and the URLs of externals by
specifier, which come last and win. -/
def importMap (references : Table String) (externals : Table Text) : Text :=
  let ids : Table Text := references.map fun (id, reference) => (id, reference)
  scriptJson (.object [("imports", .object ((ids.insertAll externals).map fun (key, url) =>
    (key, .text url)))])

/-- The lines of a page. -/
def pageLines (config : Config) (policy entry : Text) (references : Table String)
    (externals : Table Text) : List Text := [
  "<!DOCTYPE html>",
  "<html lang=\"en\">",
  "<head>",
  "<meta charset=\"UTF-8\">",
  "<meta name=\"viewport\" content=\"width=device-width, initial-scale=1.0\">",
  "<meta http-equiv=\"Content-Security-Policy\" content=\"" ++ Markup.escape policy ++ "\">",
  "<title>" ++ Markup.escape config.title ++ "</title>",
  "<script type=\"importmap\">",
  importMap references externals,
  "</script>",
  "</head>",
  "<body>",
  "<div id=\"" ++ Markup.escape config.rootId ++ "\"></div>",
  "<script>",
  errorScript,
  "</script>",
  "<script type=\"module\">",
  mainScript config entry,
  "</script>",
  "</body>",
  "</html>",
  ""]

/-- The page that starts with an entry. -/
def page (config : Config) (entry : Text) (references : Table String)
    (externals : Table Text) : Except Text.UrlFault Text := do
  let policy ← contentSecurityPolicy externals.values
  return unlines (pageLines config policy entry references externals)

end LivePreview.Preview
