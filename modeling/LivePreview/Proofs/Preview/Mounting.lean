/-
  LivePreview.Proofs.Preview.Mounting
  ───────────────────────────────────
  **What the main script of a page that renders its entry says.**

  The template of the script has one place for the entry and, behind it, one for the id
  of the root element.  The id is put in first, and the entry then takes the place of
  every `__ENTRY__` in the text so far, those in the literal of the id included:

      template    … "Entry " + __ENTRY__ + … getElementById(__ROOT_ID__) …
      id put in   … "Entry " + __ENTRY__ + … getElementById("a__ENTRY__b") …
      script      … "Entry " + "/x.js" + … getElementById("a"/x.js"b") …

  Around its places the script is the template, whatever the two values are, and the
  literal of the entry stands at the first of them.  At the other one stands the literal
  of the id exactly if there is no `__ENTRY__` in the id; otherwise the element that is
  looked up has only the part of the id in front of the first one, while the page creates
  an element with the whole id (`mounts_of_mountsEntry`).
-/
import LivePreview.Proofs.Json.Reading
import LivePreview.Proofs.Preview.Elements
import LivePreview.Proofs.Preview.Linked

namespace LivePreview.Preview

open LivePreview.Text (between between_flatMap Escapes infix_flatMap_iff lines lines_unlines
  occurrences points_replaceAll_append_cons replaceAll replaceAll_eq_self_iff)
open LivePreview.Text.CharacterReference (unescape)
open LivePreview.Text.Markup (exists_unescape_escape)

/-! ## §1. The places of the template -/

/-- What stands for the entry in the template. -/
def entryMark : Text := "__ENTRY__"

theorem entryMark_ne_nil : entryMark.points ≠ [] := by
  decide

theorem quote_not_mem_entryMark : CodePoint.char '"' ∉ entryMark.points := by
  decide

/-- What stands for the id of the root element in the template. -/
def rootMark : Text := "__ROOT_ID__"

/-- The template in front of the place of the root element. -/
def mountHead : Text :=
  ⟨(between rootMark.points mountTemplate.points).headD []⟩

/-- The template in front of the place of the entry. -/
def mountFront : Text :=
  ⟨(between entryMark.points mountHead.points).headD []⟩

/-- The template between its two places. -/
def mountMiddle : Text :=
  ⟨(between entryMark.points mountHead.points).getLastD []⟩

/-- The template behind the place of the root element. -/
def mountBack : Text :=
  ⟨(between rootMark.points mountTemplate.points).getLastD []⟩

/-- The template with texts at its two places. -/
def mounted (entryPlace rootPlace : Text) : Text :=
  mountFront ++ entryPlace ++ mountMiddle ++ rootPlace ++ mountBack

theorem points_mounted (entryPlace rootPlace : Text) :
    (mounted entryPlace rootPlace).points
      = mountFront.points ++ entryPlace.points ++ mountMiddle.points ++ rootPlace.points
        ++ mountBack.points := rfl

/-- Where the marks of the template stand: one of each, first that of the entry. -/
theorem cuts_mountTemplate :
    between rootMark.points mountTemplate.points = [mountHead.points, mountBack.points]
      ∧ between entryMark.points mountHead.points = [mountFront.points, mountMiddle.points]
      ∧ between entryMark.points mountBack.points = [mountBack.points]
      ∧ occurrences entryMark mountTemplate = 1 := by
  decide +kernel

theorem mountTemplate_eq : mountTemplate = mounted entryMark rootMark := by
  obtain ⟨hroot, hentry, -, -⟩ := cuts_mountTemplate
  have hrootMark : rootMark.points ≠ [] := by decide
  have htemplate := Text.intercalate_between hrootMark mountTemplate.points
  have hhead := Text.intercalate_between entryMark_ne_nil mountHead.points
  rw [hroot, List.intercalate_cons_cons, List.intercalate_singleton] at htemplate
  rw [hentry, List.intercalate_cons_cons, List.intercalate_singleton] at hhead
  apply Text.ext
  rw [points_mounted, ← htemplate, ← hhead]

theorem occurrences_rootMark : occurrences rootMark mountTemplate = 1 := by
  have hlength := @Text.length_between rootMark mountTemplate (by decide)
  rw [cuts_mountTemplate.1, List.length_cons, List.length_singleton] at hlength
  omega

/-! ## §2. Literals with marks in them -/

/-- The characters of the mark are written as they are in a literal. -/
theorem escapes_entryMark :
    Escapes entryMark.points (fun point => (Json.escapePoint point).map CodePoint.char) id := by
  have hkept : ∀ point ∈ entryMark.points, Json.IsKept point.toNat := by
    unfold Json.IsKept
    decide
  intro point
  rcases Json.escapePoint_cases point with ⟨c, rfl, hself, -⟩ | ⟨hother, tail, hwritten, htail⟩
  · left
    show (Json.escapePoint _).map _ = _
    rw [hself]
    rfl
  · right
    refine ⟨fun hmem => hother (hkept _ hmem), .char '\\', tail.map .char, ?_, by decide, ?_⟩
    · show (Json.escapePoint _).map _ = _
      rw [hwritten, List.map_cons]
    · -- the mark begins with an underscore, and there is none in an escape
      intro first hfirst hmem
      obtain ⟨c, hc, rfl⟩ := List.mem_map.mp hmem
      obtain rfl : '_' = c := CodePoint.char.inj (Option.some.inj hfirst)
      exact absurd (htail '_' hc) (by decide)

theorem between_literalBody (text : Text) :
    between entryMark.points (literalBody text)
      = (between entryMark.points text.points).map fun piece => literalBody ⟨piece⟩ := by
  unfold literalBody
  rw [List.map_flatMap, between_flatMap escapes_entryMark entryMark_ne_nil]
  exact List.map_congr_left fun piece _ => (List.map_flatMap ..).symm

theorem entryMark_infix_literalBody_iff (text : Text) :
    entryMark.points <:+: literalBody text ↔ entryMark.points <:+: text.points := by
  unfold literalBody
  rw [List.map_flatMap, infix_flatMap_iff escapes_entryMark, List.map_id]

/-- What comes to stand at the place of the root element: the literal of the id, with the literal of the
entry wherever the id has the mark of the entry. -/
def rootPlace (rootId : String) (entry : Text) : Text :=
  ⟨.char '"' :: ((Json.literal entry : Text).points.intercalate
    ((between entryMark.points (rootId : Text).points).map fun piece => literalBody ⟨piece⟩)
      ++ [.char '"'])⟩

theorem points_rootPlace (rootId : String) (entry : Text) :
    (rootPlace rootId entry).points
      = .char '"' :: ((replaceAll entryMark (Json.literal entry) ⟨literalBody rootId⟩).points
        ++ [.char '"']) := by
  unfold rootPlace replaceAll
  rw [between_literalBody]

/-- The literal of the id stays as it is exactly if the mark of the entry is not in the id. -/
theorem rootPlace_eq_literal_iff (rootId : String) (entry : Text) :
    rootPlace rootId entry = (Json.literal rootId : Text)
      ↔ ¬ entryMark.points <:+: (rootId : Text).points := by
  have hquote : (Json.literal entry : Text).points.head? = some (.char '"') := by
    rw [points_literal, List.head?_cons]
  rw [← entryMark_infix_literalBody_iff,
    ← replaceAll_eq_self_iff entryMark_ne_nil hquote quote_not_mem_entryMark ⟨literalBody rootId⟩,
    Text.ext_iff, points_rootPlace, points_literal, List.cons.injEq, List.append_left_inj,
    Text.ext_iff]
  exact and_iff_right rfl

/-! ## §3. The script -/

/-- **The script that renders an entry** is its template, with the literal of the entry at the first
place. -/
theorem mountScript_eq (rootId : String) (entry : Text) :
    mountScript rootId entry = mounted (Json.literal entry) (rootPlace rootId entry) := by
  obtain ⟨hrootMark, hentryMark, hnoMark, -⟩ := cuts_mountTemplate
  have hroot : replaceAll rootMark (Json.literal rootId) mountTemplate
      = ⟨mountHead.points ++ .char '"' :: (literalBody rootId ++ .char '"' :: mountBack.points)⟩ := by
    unfold replaceAll
    rw [hrootMark, List.intercalate_cons_cons, List.intercalate_singleton, points_literal]
    simp
  have hhead : (replaceAll entryMark (Json.literal entry) mountHead).points
      = mountFront.points ++ (Json.literal entry : Text).points ++ mountMiddle.points := by
    unfold replaceAll
    rw [hentryMark, List.intercalate_cons_cons, List.intercalate_singleton]
  have hback : replaceAll entryMark (Json.literal entry) mountBack = mountBack := by
    unfold replaceAll
    rw [hnoMark, List.intercalate_singleton]
  -- the quotes of the literal keep apart what is replaced in front of it, in it and behind it
  have hfences := points_replaceAll_append_cons entryMark_ne_nil quote_not_mem_entryMark
    (Json.literal entry : Text)
  apply Text.ext
  show (replaceAll entryMark (Json.literal entry)
    (replaceAll rootMark (Json.literal rootId) mountTemplate)).points = _
  rw [hroot, hfences, hfences, hhead, hback, points_mounted, points_rootPlace]
  simp

/-- The import of the entry, in front of the script that renders it. -/
def entryImport (entry : Text) : Text :=
  ("import * as entry from " : Text) ++ (Json.literal (Module.idOf entry) : Text) ++ (";\n" : Text)

theorem mainScript_eq {config : Config} (hmounts : config.mountsEntry = true) (entry : Text) :
    mainScript config entry
      = entryImport entry ++ mounted (Json.literal entry) (rootPlace config.rootId entry) := by
  unfold mainScript
  rw [if_pos hmounts, mountScript_eq]
  rfl

/-- The literals of both values stand at their places exactly if the mark of the entry is not in the id. -/
theorem mainScript_eq_literal_iff {config : Config} (hmounts : config.mountsEntry = true) (entry : Text) :
    mainScript config entry
        = entryImport entry ++ mounted (Json.literal entry) (Json.literal config.rootId)
      ↔ ¬ entryMark.points <:+: (config.rootId : Text).points := by
  rw [mainScript_eq hmounts, ← rootPlace_eq_literal_iff config.rootId entry]
  constructor
  · intro h
    have hscript := List.append_cancel_left (Text.ext_iff.mp h)
    rw [points_mounted, points_mounted] at hscript
    exact Text.ext (List.append_cancel_left (List.append_cancel_right hscript))
  · intro h
    rw [h]

/-- The part of an id in front of the first mark of the entry, all of it if there is none. -/
def lookedUpId (rootId : String) : Text :=
  ⟨(between entryMark.points (rootId : Text).points).headD []⟩

/-- The place of the root element begins with the literal of the part in front of the first mark. -/
theorem exists_points_rootPlace (rootId : String) (entry : Text) :
    ∃ behind, (rootPlace rootId entry).points
      = (Json.literal (lookedUpId rootId) : Text).points ++ behind := by
  -- behind the first piece comes a quote, that of the literal of the entry or the closing one
  have hpiece : ∀ (piece : List CodePoint) (pieces : List (List CodePoint)),
      ∃ behind, (Json.literal entry : Text).points.intercalate (piece :: pieces) ++ [.char '"']
        = piece ++ .char '"' :: behind := by
    intro piece pieces
    rw [points_literal]
    cases pieces with
    | nil => exact ⟨[], by rw [List.intercalate_singleton]⟩
    | cons next rest =>
      rw [List.intercalate_cons_cons]
      exact ⟨_, by rw [List.append_assoc, List.append_assoc, List.cons_append]⟩
  unfold rootPlace lookedUpId
  cases hpieces : between entryMark.points (rootId : Text).points with
  | nil => exact absurd hpieces (Text.betweenFrom_ne_nil _ _ _)
  | cons piece pieces =>
    obtain ⟨behind, hbehind⟩ :=
      hpiece (literalBody ⟨piece⟩) (pieces.map fun piece => literalBody ⟨piece⟩)
    refine ⟨behind, ?_⟩
    rw [List.headD_cons, points_literal ⟨piece⟩, List.map_cons, hbehind]
    simp

theorem isEncodable_lookedUpId (rootId : String) : (lookedUpId rootId).isEncodable = true := by
  obtain ⟨piece, pieces, hpieces⟩ := List.exists_cons_of_ne_nil
    (Text.betweenFrom_ne_nil entryMark.points 0 (rootId : Text).points)
  have hencodable := Text.isEncodable_iff.mp (Text.isEncodable_ofString rootId)
  have hmem : piece ∈ Text.betweenFrom entryMark.points 0 (rootId : Text).points := by
    rw [hpieces]
    exact List.mem_cons_self
  unfold lookedUpId between
  rw [hpieces, List.headD_cons]
  exact Text.isEncodable_iff.mpr fun offset =>
    Text.not_mem_of_mem_betweenFrom (hencodable offset) hmem

/-- **What is read at the place of the root element** is the part of the id in front of the first mark,
whatever stands behind the place. -/
theorem exists_readText_rootPlace (rootId : String) (entry : Text) (rest : List CodePoint) :
    ∃ behind, Json.readText ((rootPlace rootId entry).points ++ rest)
      = .ok (lookedUpId rootId, behind) := by
  obtain ⟨behind, hplace⟩ := exists_points_rootPlace rootId entry
  have hread := Json.readText_enquoted Json.exists_spells_escapePoint (lookedUpId rootId)
    (behind ++ rest)
  rw [Text.joined_of_isEncodable (isEncodable_lookedUpId rootId)] at hread
  refine ⟨behind ++ rest, ?_⟩
  rw [hplace, List.append_assoc, points_literal, ← hread]
  unfold Json.enquoted literalBody
  rw [List.map_flatMap]

theorem lookedUpId_eq_iff (rootId : String) :
    lookedUpId rootId = (rootId : Text) ↔ ¬ entryMark.points <:+: (rootId : Text).points := by
  rw [Text.ext_iff]
  exact ((Text.isCut_iff entryMark_ne_nil).mpr rfl).headD_eq_iff entryMark_ne_nil

/-! ## §4. Pages that render their entry -/

/-- A page has the root element and the main script, each on lines of its own. -/
theorem mem_pageLines (config : Config) (policy entry : Text) (references : Table String)
    (externals : Table Text) :
    ("<div id=\"" ++ Text.Markup.escape config.rootId ++ "\"></div>" : Text)
        ∈ pageLines config policy entry references externals
      ∧ mainScript config entry ∈ pageLines config policy entry references externals := by
  unfold pageLines
  simp only [List.mem_cons, true_or, or_true, and_self]

/-- How the main script of a page that renders its entry is filled in. -/
structure Mounts (config : Config) (entry : Text) : Prop where
  /-- The template has its two places, and the marks stand nowhere else in it. -/
  template : mountTemplate = mounted entryMark rootMark
    ∧ occurrences entryMark mountTemplate = 1 ∧ occurrences rootMark mountTemplate = 1
  /-- Whatever the entry and the id are, the script is the template around its places, with the
  literal of the entry at the place of the entry. -/
  script : mainScript config entry
    = entryImport entry ++ mounted (Json.literal entry) (rootPlace config.rootId entry)
  /-- The literal of the id stands at the other place exactly if the mark of the entry is not in
  the id. -/
  literal_iff : mainScript config entry
      = entryImport entry ++ mounted (Json.literal entry) (Json.literal config.rootId)
    ↔ ¬ entryMark.points <:+: (config.rootId : Text).points
  /-- The id that is looked up is the part of the id in front of the first mark. -/
  lookedUp : ∀ rest, ∃ behind, Json.readText ((rootPlace config.rootId entry).points ++ rest)
    = .ok (lookedUpId config.rootId, behind)
  /-- So it is the whole id exactly if the mark is not in it. -/
  lookedUp_iff : lookedUpId config.rootId = (config.rootId : Text)
    ↔ ¬ entryMark.points <:+: (config.rootId : Text).points
  /-- The page that runs the script creates an element, and what stands in the tag as its id is
  decoded to the whole id. -/
  created : ∃ written : String, unescape written = .ok config.rootId
    ∧ ∀ policy references externals,
      ("<div id=\"" ++ written ++ "\"></div>" : Text) ∈ pageLines config policy entry references externals
        ∧ mainScript config entry ∈ pageLines config policy entry references externals

/-- **For every entry and every id**: the script of a page that renders its entry is the template with
the literal of the entry at its place.  The literal of the id stands at the other place, and the
element that the page creates is looked up, exactly if there is no `__ENTRY__` in the id. -/
theorem mounts_of_mountsEntry (config : Config) (entry : Text) (hmounts : config.mountsEntry = true) :
    Mounts config entry where
  template := ⟨mountTemplate_eq, cuts_mountTemplate.2.2.2, occurrences_rootMark⟩
  script := mainScript_eq hmounts entry
  literal_iff := mainScript_eq_literal_iff hmounts entry
  lookedUp := exists_readText_rootPlace config.rootId entry
  lookedUp_iff := lookedUpId_eq_iff config.rootId
  created := by
    obtain ⟨written, hwritten, hdecoded⟩ := exists_unescape_escape config.rootId
    refine ⟨written, hdecoded, fun policy references externals => ?_⟩
    rw [← hwritten]
    exact mem_pageLines config policy entry references externals

/-- An id with the mark of the entry in it. -/
theorem mounts_of_mountsEntry_marked :
    ({ rootId := "a__ENTRY__b" } : Config).mountsEntry = true
      ∧ Mounts { rootId := "a__ENTRY__b" } "/a.css" :=
  ⟨rfl, mounts_of_mountsEntry { rootId := "a__ENTRY__b" } "/a.css" rfl⟩

/-! ## §5. An id that is the mark of the entry -/

/-- A configuration in which the root element has the mark of the entry as its id. -/
def markedConfig : Config where
  externals := [("react", "https://cdn.example/react"), ("react-dom/client", "https://cdn.example/client")]
  rootId := "__ENTRY__"

def markedSetting : Setting :=
  ⟨Lowering.parserOf [], sheetProject.tree, markedConfig⟩

/-- The graph of the page. -/
def markedGraph : Graph :=
  (({ externals := markedConfig.externals } : Graph).enter "/a.css" sheetModule
    ⟨markedConfig.externals, []⟩).complete "/a.css"

theorem start_plan_marked :
    ((plan markedSetting (some "/a.css")).start (sheetProject.cacheAt 0)).1
      = .ok ("/a.css", markedGraph) :=
  start_plan_of_imports_eq_nil consistent_sheetProject.holdsTexts
    consistent_sheetProject.hasSound.cacheAt (by decide +kernel) (by decide +kernel)
    freshModule_sheet rfl

/-- The page creates an element with the id `__ENTRY__`, and its script has the path of the entry in two
pairs of quotes where it looks the element up. -/
theorem not_literal_build_marked :
    ∃ document,
      (build (Lowering.parserOf []) markedConfig 0 sheetProject .empty (some "/a.css")).1
          = .ok ⟨.ok document, sheetProject.revision⟩
        ∧ ("<div id=\"__ENTRY__\"></div>" : Text) ∈ lines document.html
        ∧ (∃ policy, document.html = Text.unlines
          (pageLines markedConfig policy document.entry document.references document.externals))
        ∧ mainScript markedConfig document.entry
          = entryImport document.entry ++ mounted "\"/a.css\"" "\"\"/a.css\"\""
        ∧ mainScript markedConfig document.entry
          ≠ entryImport document.entry
            ++ mounted (Json.literal document.entry) (Json.literal markedConfig.rootId) := by
  have hpolicy : (contentSecurityPolicy markedGraph.externals.values).isOk = true := by
    decide +kernel
  obtain ⟨document, hok⟩ : ∃ document, (buildTree markedSetting sheetProject.revision .empty
      (sheetProject.cacheAt 0) (some "/a.css")).answer = .ok ⟨.ok document, _⟩ :=
    exists_document_of_plan start_plan_marked isSome_linkedCode_sheet hpolicy _ _
  obtain ⟨entry, graph, hplan, hmade⟩ := documentOf_of_buildTree hok
  obtain ⟨hentry, hencloses⟩ : document.entry = entry ∧ document.Encloses markedConfig :=
    encloses_of_documentOf hmade
  -- the entry of the document is the one of the plan
  rw [start_plan_marked, Except.ok.injEq, Prod.mk.injEq] at hplan
  rw [← hplan.1] at hentry
  obtain ⟨policy, -, hhtml⟩ := hencloses.lines
  have hplaces : (Json.literal "/a.css" : Text) = "\"/a.css\""
      ∧ rootPlace markedConfig.rootId "/a.css" = "\"\"/a.css\"\"" := by
    decide +kernel
  refine ⟨document, hok, ?_, ⟨policy, hhtml⟩, ?_, ?_⟩
  · have hline : ("<div id=\"__ENTRY__\"></div>" : Text)
        ∈ lines ("<div id=\"" ++ Text.Markup.escape markedConfig.rootId ++ "\"></div>") := by
      decide +kernel
    have hmem := (mem_pageLines markedConfig policy document.entry document.references
      document.externals).1
    rw [hhtml, lines_unlines (List.ne_nil_of_mem hmem), List.mem_flatMap]
    exact ⟨_, hmem, hline⟩
  · rw [mainScript_eq rfl, hentry, hplaces.1, hplaces.2]
  · rw [ne_eq, mainScript_eq_literal_iff rfl, not_not]
    exact List.infix_refl _

end LivePreview.Preview
