/-
  LivePreview.Proofs.Preview.Elements
  ───────────────────────────────────
  **Which elements a page has.**

  Every value in a page comes from the project or from its configuration.  The title, the
  id of the root element and the policy are escaped, and the import map holds no
  less-than sign.  The main script has the entry and the id of the root element in it as
  literals, which keep a mark of scripts as it is (`inert_literal_iff`): it is inert if
  and only if they are (`inert_mainScript_iff`), and then the elements of the page are
  those of its template (`encloses_of_build`).
-/
import LivePreview.Proofs.Json.Encodable
import LivePreview.Proofs.Preview.Publishing
import LivePreview.Proofs.Text.Markup

namespace LivePreview.Preview

open LivePreview.Lowering (Parser)
open LivePreview.Module (Registry)
open LivePreview.Text (Escapes Fences infix_append_of_head_not_mem infix_flatMap_iff
  not_mem_ofString not_mem_replaceAll not_mem_unlines replaceAll unlines)
open LivePreview.Text.Markup

/-! ## §1. Literals in a script -/

/-- A quote is in no mark. -/
theorem folded_quote_not_mem : ∀ mark ∈ scriptMarks, folded (.char '"') ∉ mark := by
  decide

/-- What stands between the quotes of a literal. -/
def literalBody (text : Text) : List CodePoint :=
  (text.points.flatMap Json.escapePoint).map .char

theorem points_literal (text : Text) :
    (Json.literal text : Text).points = .char '"' :: (literalBody text ++ [.char '"']) := by
  show ((Json.literal text).toList.map CodePoint.char) = _
  unfold Json.literal literalBody
  rw [String.toList_ofList]
  simp

/-- A code point that is escaped is not in a mark, whatever it is folded to. -/
theorem isKept_of_folded_mem {mark : List CodePoint} (hmark : mark ∈ scriptMarks) {point : CodePoint}
    (h : folded point ∈ mark) : Json.IsKept point.toNat := by
  have hkept : ∀ mark ∈ scriptMarks, ∀ point ∈ mark, Json.IsKept point.toNat := by
    unfold Json.IsKept
    decide
  have hfolded := hkept mark hmark _ h
  cases point with
  | half offset => exact hfolded
  | char c =>
    unfold Json.IsKept at hfolded ⊢
    simp only [folded, CodePoint.toNat, toNat_toLower] at hfolded ⊢
    split at hfolded <;> omega

theorem escapes_escapePoint {mark : List CodePoint} (hmark : mark ∈ scriptMarks) :
    Escapes mark (fun point => (Json.escapePoint point).map fun c => folded (.char c)) folded := by
  intro point
  rcases Json.escapePoint_cases point with ⟨c, rfl, hself, -⟩ | ⟨hother, tail, hwritten, htail⟩
  · left
    show (Json.escapePoint _).map _ = _
    rw [hself, List.map_singleton]
  · right
    refine ⟨fun hmem => hother (isKept_of_folded_mem hmark hmem), folded (.char '\\'),
      tail.map fun c => folded (.char c), ?_, ?_, ?_⟩
    · show (Json.escapePoint _).map _ = _
      rw [hwritten, List.map_cons]
    · revert mark
      decide
    · -- a mark begins with a less-than sign, and there is none in an escape
      intro b hb hmem
      rw [head?_mark hmark, Option.some.injEq] at hb
      obtain ⟨c, hc, heq⟩ := List.mem_map.mp hmem
      rw [← hb, folded_eq_lt_iff, CodePoint.char.injEq] at heq
      exact absurd (htail c hc) (by rw [heq]; decide)

/-- What a literal holds between its quotes is inert if and only if its text is. -/
theorem inert_literalBody_iff (text : Text) : Inert ⟨literalBody text⟩ ↔ Inert text := by
  unfold Inert
  refine forall₂_congr fun mark hmark => not_congr ?_
  rw [← infix_flatMap_iff (escapes_escapePoint hmark) text.points]
  unfold literalBody
  rw [List.map_map, List.map_flatMap]
  rfl

/-- A literal may be set anywhere: what counts is what stands in front of it, its text, and what
stands behind it. -/
theorem inert_append_literal_iff (a text b : Text) :
    Inert (a ++ (Json.literal text : Text) ++ b) ↔ Inert a ∧ Inert text ∧ Inert b := by
  have hpoints : a ++ (Json.literal text : Text) ++ b
      = ⟨a.points ++ .char '"' :: (literalBody text ++ [.char '"']) ++ b.points⟩ := by
    rw [← points_literal]
    rfl
  rw [hpoints, inert_fenced_iff folded_quote_not_mem folded_quote_not_mem, inert_literalBody_iff]

theorem inert_literal_iff (text : Text) : Inert (Json.literal text : Text) ↔ Inert text := by
  have h := inert_append_literal_iff "" text ""
  have hempty : Inert "" := by decide
  have hself : ("" : Text) ++ (Json.literal text : Text) ++ ("" : Text) = (Json.literal text : Text) := by
    apply Text.ext
    show [] ++ _ ++ [] = _
    rw [List.nil_append, List.append_nil]
  rw [hself] at h
  simpa [hempty] using h

theorem fences_literal (text : Text) :
    ∀ mark ∈ scriptMarks, Fences mark ((Json.literal text : Text).points.map folded) := by
  intro mark hmark
  refine ⟨folded (.char '"'), (literalBody text).map folded, folded (.char '"'), ?_,
    folded_quote_not_mem mark hmark, folded_quote_not_mem mark hmark⟩
  rw [points_literal]
  simp

/-! ## §2. The scripts of a page -/

theorem inert_importMap (references : Table String) (externals : Table Text) :
    Inert (importMap references externals) :=
  inert_of_not_mem (not_mem_replaceAll (by decide) _)

/-- Two underscores and a name between them, as in a template, keep away from the marks. -/
theorem fences_placeholder : ∀ mark ∈ scriptMarks, ∀ inner : List CodePoint,
    Fences mark (.char '_' :: (inner ++ [.char '_'])) := by
  have hunderscore : ∀ mark ∈ scriptMarks, CodePoint.char '_' ∉ mark := by decide
  exact fun mark hmark inner => ⟨_, inner, _, rfl, hunderscore mark hmark, hunderscore mark hmark⟩

theorem inert_errorScript : Inert errorScript := by
  have htemplate : Inert errorTemplate := by
    refine inert_of_not_mem (not_mem_unlines (by decide) ?_)
    simp only [List.forall_mem_cons]
    and_intros <;> first | exact not_mem_ofString rfl (by decide +kernel) | exact nofun
  have hpattern : ∀ mark ∈ scriptMarks, Fences mark (("__SOURCE__" : Text).points.map folded) :=
    fun mark hmark => fences_placeholder mark hmark (("_SOURCE_" : Text).points.map folded)
  unfold errorScript
  rw [inert_replaceAll_iff hpattern (fences_literal _) (by decide), inert_literal_iff]
  exact ⟨htemplate, fun _ => by decide⟩

theorem inert_idOf_iff (entry : Text) : Inert (Module.idOf entry) ↔ Inert entry :=
  inert_append_iff (by decide) entry

theorem inert_mountTemplate : Inert mountTemplate := by
  refine inert_of_not_mem (not_mem_unlines (by decide) ?_)
  simp only [List.forall_mem_cons]
  and_intros <;> first | exact not_mem_ofString rfl (by decide +kernel) | exact nofun

theorem occurrences_mountTemplate : 0 < Text.occurrences "__ROOT_ID__" mountTemplate := by
  have hline : ("__ROOT_ID__" : Text).points
      <:+: ("createRoot(document.getElementById(__ROOT_ID__)).render(" : Text).points := by
    rw [Text.points_ofString rfl, Text.points_ofString rfl]
    exact List.IsInfix.map _ (by decide +kernel)
  refine (Text.occurrences_pos_iff (by decide)).mpr (hline.trans (Text.infix_unlines_of_mem ?_))
  simp [List.mem_cons]

/-- The script that renders an inert entry is inert if and only if the id of the root element is:
its template has both in it. -/
theorem inert_mountScript_iff {rootId : String} {entry : Text} (hentry : Inert entry) :
    Inert (mountScript rootId entry) ↔ Inert (rootId : Text) := by
  have hentryId : ∀ mark ∈ scriptMarks, Fences mark (("__ENTRY__" : Text).points.map folded) :=
    fun mark hmark => fences_placeholder mark hmark (("_ENTRY_" : Text).points.map folded)
  have hrootId : ∀ mark ∈ scriptMarks, Fences mark (("__ROOT_ID__" : Text).points.map folded) :=
    fun mark hmark => fences_placeholder mark hmark (("_ROOT_ID_" : Text).points.map folded)
  unfold mountScript
  rw [inert_replaceAll_iff hentryId (fences_literal _) (by decide), inert_literal_iff,
    inert_replaceAll_iff hrootId (fences_literal _) (by decide), inert_literal_iff]
  constructor
  · rintro ⟨⟨-, hroot⟩, -⟩
    exact hroot occurrences_mountTemplate
  · exact fun hroot => ⟨⟨inert_mountTemplate, fun _ => hroot⟩, fun _ => hentry⟩

/-- **The main script is inert** if and only if the entry is, and the id of the root element where
the page renders into it. -/
theorem inert_mainScript_iff (config : Config) (entry : Text) :
    Inert (mainScript config entry)
      ↔ Inert entry ∧ (config.mountsEntry = true → Inert (config.rootId : Text)) := by
  unfold mainScript
  dsimp only
  split
  · next hmounts =>
    have himport : Inert "import * as entry from " := by decide
    -- the script behind the import stands on lines of its own
    have hassoc : ∀ a b c d : Text, a ++ b ++ c ++ d = a ++ b ++ (c ++ d) := fun a b c d =>
      Text.ext (List.append_assoc _ _ _)
    rw [hassoc, inert_append_literal_iff, inert_idOf_iff, inert_append_iff (by decide)]
    constructor
    · rintro ⟨-, hentry, hmount⟩
      exact ⟨hentry, fun _ => (inert_mountScript_iff hentry).mp hmount⟩
    · rintro ⟨hentry, hroot⟩
      exact ⟨himport, hentry, (inert_mountScript_iff hentry).mpr (hroot hmounts)⟩
  · next hmounts =>
    have himport : Inert "import " := by decide
    have hend : Inert ";\n" := by decide
    rw [inert_append_literal_iff, inert_idOf_iff]
    simp [himport, hend, hmounts]

/-! ## §3. The elements of a page -/

/-- The tags in front of the main script. -/
def frontTags : List Text := [
  "!DOCTYPE html", "html lang=", "head", "meta charset=", "meta name= content=",
  "meta http-equiv= content=", "title", "/title", "script type=", "/script", "/head", "body",
  "div id=", "/div", "script", "/script", "script type="]

/-- The tags of a page, without the values of their attributes. -/
def pageTags : List Text :=
  frontTags ++ [("/script" : Text), "/body", "/html"]

/-- Read a line with its line feed. -/
def readLine (reader : Reader) (line : Text) : Reader :=
  reader.reads (line ++ ("\n" : Text))

theorem reads_unlines (ls : List Text) (reader : Reader) :
    reader.reads (unlines (ls ++ [("" : Text)])) = ls.foldl readLine reader := by
  induction ls generalizing reader with
  | nil => rfl
  | cons line ls ih =>
    have hlines : unlines (line :: ls ++ [("" : Text)])
        = line ++ ("\n" : Text) ++ unlines (ls ++ [("" : Text)]) := by
      cases ls <;> exact Text.unlines_cons _ _ _
    rw [hlines, reads_append, ih]
    rfl

/-- A value that does not move a reader is passed over. -/
theorem readLine_around {reader middle passed : Reader} {front value back : Text}
    (hfront : reader.reads front = middle) (hvalue : middle.reads value = middle)
    (hback : readLine middle back = passed) : readLine reader (front ++ value ++ back) = passed := by
  have hassoc : front ++ value ++ back ++ ("\n" : Text)
      = front ++ (value ++ (back ++ ("\n" : Text))) := by
    apply Text.ext
    show _ ++ _ ++ _ ++ _ = _ ++ (_ ++ (_ ++ _))
    simp only [List.append_assoc]
  unfold readLine
  rw [hassoc, reads_append, hfront, reads_append, hvalue]
  exact hback

/-- The lines in front of the policy. -/
def headLines : List Text := [
  "<!DOCTYPE html>",
  "<html lang=\"en\">",
  "<head>",
  "<meta charset=\"UTF-8\">",
  "<meta name=\"viewport\" content=\"width=device-width, initial-scale=1.0\">"]

/-- The lines between the import map and the root element. -/
def bodyLines : List Text := ["</script>", "</head>", "<body>"]

/-- The lines in front of the main script. -/
def moduleLines : List Text := ["</script>", "<script type=\"module\">"]

/-- The lines behind the main script. -/
def footLines : List Text := ["</script>", "</body>", "</html>"]

/-- A page is read up to its main script, whatever it is made of. -/
theorem reads_pageLines (config : Config) (policy entry : Text) (references : Table String)
    (externals : Table Text) :
    Reader.reads {} (unlines (pageLines config policy entry references externals))
      = footLines.foldl readLine (readLine ⟨.script [], frontTags⟩ (mainScript config entry)) := by
  have hvalue : ∀ written tags value,
      Reader.reads ⟨.value written, tags⟩ (escape value) = ⟨.value written, tags⟩ :=
    fun written tags value => reads_value (not_mem_escape (by decide) value) written tags
  have htext : ∀ tags value, Reader.reads ⟨.text, tags⟩ (escape value) = ⟨.text, tags⟩ :=
    fun tags value => reads_text (not_mem_escape (by decide) value) tags
  have hhead : headLines.foldl readLine {} = ⟨.text, frontTags.take 5⟩ := by decide +kernel
  have hpolicy : readLine ⟨.text, frontTags.take 5⟩
      ("<meta http-equiv=\"Content-Security-Policy\" content=\"" ++ escape policy ++ "\">")
      = ⟨.text, frontTags.take 6⟩ :=
    readLine_around (by rfl) (hvalue ("meta http-equiv= content=" : Text).points _ policy)
      (by decide +kernel)
  have htitle : readLine ⟨.text, frontTags.take 6⟩ ("<title>" ++ escape config.title ++ "</title>")
      = ⟨.text, frontTags.take 8⟩ :=
    readLine_around (by rfl) (htext (frontTags.take 7) config.title) (by decide +kernel)
  have hopen : readLine ⟨.text, frontTags.take 8⟩ "<script type=\"importmap\">"
      = ⟨.script [], frontTags.take 9⟩ := by
    decide +kernel
  have hmap : readLine ⟨.script [], frontTags.take 9⟩ (importMap references externals)
      = ⟨.script [], frontTags.take 9⟩ :=
    reads_script (inert_importMap references externals) _
  have hbody : bodyLines.foldl readLine ⟨.script [], frontTags.take 9⟩
      = ⟨.text, frontTags.take 12⟩ := by
    decide +kernel
  have hroot : readLine ⟨.text, frontTags.take 12⟩
      ("<div id=\"" ++ escape config.rootId ++ "\"></div>") = ⟨.text, frontTags.take 14⟩ :=
    readLine_around (by rfl) (hvalue ("div id=" : Text).points _ config.rootId) (by decide +kernel)
  have hreport : readLine ⟨.text, frontTags.take 14⟩ "<script>" = ⟨.script [], frontTags.take 15⟩ := by
    decide +kernel
  have herror : readLine ⟨.script [], frontTags.take 15⟩ errorScript
      = ⟨.script [], frontTags.take 15⟩ :=
    reads_script inert_errorScript _
  have hmodule : moduleLines.foldl readLine ⟨.script [], frontTags.take 15⟩
      = ⟨.script [], frontTags⟩ := by
    decide +kernel
  have hlines : pageLines config policy entry references externals
      = headLines
        ++ ("<meta http-equiv=\"Content-Security-Policy\" content=\"" ++ escape policy ++ "\">")
        :: ("<title>" ++ escape config.title ++ "</title>") :: "<script type=\"importmap\">"
        :: importMap references externals
        :: (bodyLines
          ++ ("<div id=\"" ++ escape config.rootId ++ "\"></div>") :: "<script>" :: errorScript
          :: (moduleLines ++ mainScript config entry :: footLines))
        ++ [("" : Text)] := rfl
  rw [hlines, reads_unlines, List.foldl_append, hhead, List.foldl_cons, hpolicy, List.foldl_cons,
    htitle, List.foldl_cons, hopen, List.foldl_cons, hmap, List.foldl_append, hbody, List.foldl_cons,
    hroot, List.foldl_cons, hreport, List.foldl_cons, herror, List.foldl_append, hmodule,
    List.foldl_cons]

/-- **The elements of a page** with an inert main script are those of its template. -/
theorem reads_pageLines_of_inert {config : Config} {entry : Text} (h : Inert (mainScript config entry))
    (policy : Text) (references : Table String) (externals : Table Text) :
    Reader.reads {} (unlines (pageLines config policy entry references externals))
      = ⟨.text, pageTags⟩ := by
  have hscript : readLine ⟨.script [], frontTags⟩ (mainScript config entry) = ⟨.script [], frontTags⟩ :=
    reads_script h _
  rw [reads_pageLines, hscript]
  decide +kernel

/-! ## §4. Builds -/

/-- How a document encloses what it is made of. -/
structure Document.Encloses (config : Config) (document : Document) : Prop where
  /-- The page has the lines of its template, with a policy for its externals. -/
  lines : ∃ policy, contentSecurityPolicy document.externals.values = .ok policy
    ∧ document.html
      = unlines (pageLines config policy document.entry document.references document.externals)
  importMap_inert : Inert (importMap document.references document.externals)
  errorScript_inert : Inert errorScript
  /-- The main script is inert if and only if the workspace data in it are. -/
  mainScript_inert_iff : Inert (mainScript config document.entry)
    ↔ Inert document.entry ∧ (config.mountsEntry = true → Inert (config.rootId : Text))
  title_escaped : ∀ c ∈ delimiters, .char c ∉ (escape config.title).points
  rootId_escaped : ∀ c ∈ delimiters, .char c ∉ (escape config.rootId).points
  /-- With an inert main script the page has the elements of its template, and no others. -/
  elements : Inert (mainScript config document.entry) →
    Reader.reads {} document.html = ⟨.text, pageTags⟩

theorem encloses_of_documentOf {config : Config} {entry : Text} {revision : Nat} {graph : Graph}
    {registry : Registry} {document : Document}
    (hok : (documentOf config entry revision graph registry).1 = .ok document) :
    document.entry = entry ∧ document.Encloses config := by
  unfold documentOf at hok
  obtain ⟨references, -, hdocument⟩ := Result.bind_eq_ok_iff.mp hok
  unfold documentWith at hdocument
  split at hdocument
  · next html hpage =>
    cases hdocument
    obtain ⟨policy, hpolicy, hhtml⟩ := Result.bind_eq_ok_iff.mp hpage
    obtain rfl : unlines _ = html := Except.ok.inj hhtml
    exact ⟨rfl, {
      lines := ⟨policy, hpolicy, rfl⟩
      importMap_inert := inert_importMap _ _
      errorScript_inert := inert_errorScript
      mainScript_inert_iff := inert_mainScript_iff config entry
      title_escaped := fun c hc => not_mem_escape hc _
      rootId_escaped := fun c hc => not_mem_escape hc _
      elements := fun hinert => reads_pageLines_of_inert hinert policy references graph.externals }⟩
  · cases hdocument

/-- For every project, registry and configuration: a page that is built has the lines of its template.
Its import map and its error script hold no mark of scripts, its title and the id of its root element
no delimiter.  Its main script holds no mark if and only if the entry holds none, nor the id of the
root element where the page renders into it; and then its elements are those of the template. -/
theorem encloses_of_build (parser : Parser) (config : Config) (number : Nat) (project : Project)
    (registry : Registry) (wanted? : Option Text) {document : Document} {stamp : Nat}
    (hok : (build parser config number project registry wanted?).1 = .ok ⟨.ok document, stamp⟩) :
    document.Encloses config := by
  let setting : Setting := ⟨parser, project.tree, config⟩
  obtain ⟨entry, graph, -, hmade⟩ :=
    @documentOf_of_buildTree setting project.revision stamp registry (project.cacheAt number) wanted?
      document hok
  exact (encloses_of_documentOf hmade).2

/-- The page of a script that imports a style sheet. -/
theorem encloses_of_build_styled :
    ∃ document, (build (fun _ _ => styledTree) {} 0 styledProject .empty (some "/a.js")).1
        = .ok ⟨.ok document, styledProject.revision⟩
      ∧ document.Encloses {} := by
  obtain ⟨document, hok⟩ := exists_build_styled
  exact ⟨document, hok, encloses_of_build _ {} 0 styledProject .empty (some "/a.js") hok⟩

/-! ## §5. An entry that ends its script -/

/-- A configuration in which the page runs its entry, and does not render it. -/
def runningConfig : Config where
  externals := []
  mountsEntry := false

/-- A style sheet is made whose name begins with the end of a script. -/
def piercingActions : List Project.Action :=
  [.edit (.createFile "/</script>.css" "p\x7b\x7d")]

def piercingProject : Project :=
  (({} : Project).newCache {}).2.run (Lowering.parserOf []) (({} : Project).newCache {}).1
    piercingActions

def piercingSetting : Setting :=
  ⟨Lowering.parserOf [], piercingProject.tree, runningConfig⟩

theorem consistent_piercingProject : piercingProject.Consistent (Lowering.parserOf []) {} 0 :=
  (Project.consistent_newCache _ {} (.inl rfl : ({} : Project).tree.IsInitial)).run piercingActions

/-- The module of the style sheet. -/
def piercingModule : Module :=
  ⟨"/</script>.css", .style, Module.styleCode "/</script>.css" (.text "p\x7b\x7d"), [], []⟩

/-- The graph of the page. -/
def piercingGraph : Graph :=
  (({} : Graph).enter "/</script>.css" piercingModule ⟨[], []⟩).complete "/</script>.css"

theorem start_plan_piercing :
    ((plan piercingSetting (some "/</script>.css")).start (piercingProject.cacheAt 0)).1
      = .ok ("/</script>.css", piercingGraph) :=
  start_plan_of_imports_eq_nil consistent_piercingProject.holdsTexts
    consistent_piercingProject.hasSound.cacheAt (by decide +kernel) (by decide +kernel) rfl rfl

theorem isSome_linkedCode_piercing : ∀ path ∈ piercingGraph.order,
    (linkedCode piercingGraph path).string?.isSome = true ∧ path.string?.isSome = true := by
  have hcode : linkedCode piercingGraph "/</script>.css" = link piercingModule.code [] [] := rfl
  show ∀ path ∈ [("/</script>.css" : Text)], _
  rw [List.forall_mem_singleton, hcode]
  unfold link backToFront
  rw [List.mergeSort_nil]
  decide +kernel

/-- The tags of a page whose main script has the end of a script in it. -/
def piercedTags : List Text :=
  frontTags ++ [("/script" : Text), "/script", "/body", "/html"]

/-- The entry stands in the main script as it is.  It ends the script, so that the page has one tag
more than its template. -/
theorem not_inert_mainScript_piercing :
    ∃ document,
      (build (Lowering.parserOf []) runningConfig 0 piercingProject .empty (some "/</script>.css")).1
          = .ok ⟨.ok document, piercingProject.revision⟩
        ∧ ¬ Inert (mainScript runningConfig document.entry)
        ∧ Reader.reads {} document.html = ⟨.text, piercedTags⟩ := by
  have hpolicy : (contentSecurityPolicy piercingGraph.externals.values).isOk = true := by
    decide +kernel
  obtain ⟨document, hok⟩ : ∃ document, (buildTree piercingSetting piercingProject.revision .empty
      (piercingProject.cacheAt 0) (some "/</script>.css")).answer = .ok ⟨.ok document, _⟩ :=
    exists_document_of_plan start_plan_piercing isSome_linkedCode_piercing hpolicy _ _
  obtain ⟨entry, graph, hplan, hmade⟩ := documentOf_of_buildTree hok
  obtain ⟨hentry, hencloses⟩ := encloses_of_documentOf hmade
  -- the entry of the document is the one of the plan
  rw [start_plan_piercing, Except.ok.injEq, Prod.mk.injEq] at hplan
  obtain ⟨policy, -, hhtml⟩ := hencloses.lines
  rw [← hplan.1] at hentry
  refine ⟨document, hok, ?_, ?_⟩
  · show ¬ Inert (mainScript piercingSetting.config document.entry)
    rw [hencloses.mainScript_inert_iff, hentry]
    decide
  · rw [hhtml, reads_pageLines, hentry]
    decide +kernel

end LivePreview.Preview
