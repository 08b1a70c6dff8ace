/-
  LivePreview.Proofs.Preview.References
  ─────────────────────────────────────
  **Which modules of a document share a reference.**

  A reference holds the code of its module and the path that the module is shown under.
  While paths are in normal form, both can be told from it, and so can the modules of a
  document (`Document.TellsApart`).  Only the entry can be spelled in another way.  Then
  its path can go on to that of another module, behind a mark, and one reference be read
  in two ways:

      code of the entry    mark  between  mark  name    path of the entry behind the first mark
      code of the other module            mark  name    path of the other one behind the last

  Two modules share a reference in no other way (`Document.Lists.tellsApart_iff`), and there
  are documents in which they do (`not_tellsApart_build_echoing`).
-/
import LivePreview.Proofs.Json.Encodable
import LivePreview.Proofs.Module.Reference
import LivePreview.Proofs.Preview.Spelling

namespace LivePreview.Preview

open LivePreview.Lowering (Options Parser)
open LivePreview.Module (Registry decodeReference idOf referenceOf sourceMark tagged)
open LivePreview.Path (IsNormal)

variable {document : Document} {tree : Tree} {path : Text}

/-! ## §1. Modules that share a reference -/

/-- Different modules have different references. -/
def Document.TellsApart (document : Document) : Prop :=
  ∀ p ∈ document.modules, ∀ q ∈ document.modules,
    document.references.get? (idOf p) = document.references.get? (idOf q) → p = q

/-- The reference to the entry can be read as one to another module: the path of the entry goes on to that
of the module behind a mark, and the code of the module begins with that of the entry and goes on to what
stands in front of this mark. -/
def Document.Confuses (document : Document) (path : Text) : Prop :=
  ∃ code between name : String,
    document.entry = (between ++ sourceMark ++ name : String) ∧ path = name ∧
    document.references.get? (idOf document.entry)
      = some (referenceOf code (some (between ++ sourceMark ++ name))) ∧
    document.references.get? (idOf path)
      = some (referenceOf (code ++ sourceMark ++ between) (some name))

/-- Each module of the document has a reference to its code under its path. -/
def Document.RefersToAll (document : Document) : Prop :=
  ∀ path ∈ document.modules, ∃ code name : String, path = name ∧
    document.references.get? (idOf path) = some (referenceOf code (some name))

theorem Document.Of.refersToAll {graph : Graph} (h : document.Of graph) : document.RefersToAll := by
  intro path hpath
  rw [h.modules_eq] at hpath
  obtain ⟨code, name, -, hname, hreference⟩ := h.hasReference path hpath
  exact ⟨code, name, Text.string?_eq_some_iff.mp hname, hreference⟩

/-- A module that the entry is confused with has the same reference, and is another one. -/
theorem Document.Confuses.shared (h : document.Confuses path) :
    document.references.get? (idOf document.entry) = document.references.get? (idOf path)
      ∧ document.entry ≠ path := by
  obtain ⟨code, between, name, hentry, rfl, hreference, hother⟩ := h
  constructor
  · have htagged : tagged code (some (between ++ sourceMark ++ name))
        = tagged (code ++ sourceMark ++ between) (some name) := by
      rw [Module.tagged_some, Module.tagged_some]
      simp only [String.append_assoc]
    rw [hreference, hother, Module.referenceOf_inj.mpr htagged]
  · rw [hentry]
    intro heq
    have hlength := congrArg (fun text : Text => text.points.length) heq
    simp only [Text.ofString, Text.ofChars, Module.toList_sourceMark, String.toList_append, List.length_map,
      List.length_append, List.length_cons] at hlength
    omega

/-- A module in normal form that shares its reference with another one is confused with the entry. -/
theorem Document.Lists.eq_or_confuses (h : document.Lists tree) (hall : document.RefersToAll) {p q : Text}
    (hp : p ∈ document.modules) (hq : q ∈ document.modules) (hnormal : IsNormal q)
    (hshared : document.references.get? (idOf p) = document.references.get? (idOf q)) :
    p = q ∨ document.Confuses q := by
  obtain ⟨code, path, rfl, hcode⟩ := hall p hp
  obtain ⟨other, name, rfl, hother⟩ := hall q hq
  rw [hcode, hother] at hshared
  have htagged := Module.referenceOf_inj.mp (Option.some.inj hshared)
  rcases (Module.tagged_eq_iff hnormal).mp htagged with ⟨-, hname⟩ | ⟨between, rfl, rfl⟩
  · exact .inl (congrArg Text.ofString hname)
  · -- no path in normal form holds a mark, and so this one is the entry
    have hentry := (h.isNormal _ hp).resolve_right (Module.not_isNormal_mark between name)
    refine .inr ⟨code, between, name, hentry.symm, rfl, ?_, hother⟩
    rw [← hentry]
    exact hcode

/-- **The modules can be told apart exactly if the entry is confused with none of them.** -/
theorem Document.Lists.tellsApart_iff (h : document.Lists tree) (hall : document.RefersToAll) :
    document.TellsApart ↔ ∀ path ∈ document.modules, ¬ document.Confuses path := by
  constructor
  · intro htold path hpath hconfuses
    obtain ⟨hshared, hne⟩ := hconfuses.shared
    exact hne (htold _ h.entry_mem path hpath hshared)
  · intro hnone p hp q hq hshared
    rcases h.isNormal q hq with hentry | hnormal
    · rcases h.isNormal p hp with hsame | hnormal
      · exact hsame.trans hentry.symm
      · exact ((h.eq_or_confuses hall hq hp hnormal hshared.symm).resolve_right (hnone p hp)).symm
    · exact (h.eq_or_confuses hall hp hq hnormal hshared).resolve_right (hnone q hq)

/-- An entry in normal form is confused with no module. -/
theorem Document.Confuses.not_isNormal (h : document.Confuses path) : ¬ IsNormal document.entry := by
  obtain ⟨code, between, name, hentry, -⟩ := h
  rw [hentry]
  exact Module.not_isNormal_mark between name

/-! ## §2. Documents -/

/-- A reference is read back as the code it was made for, with the line behind it that names the file, if
there is one; and references under paths in normal form are equal exactly if the codes and the paths are.
A document that is built gives different modules different references, exactly if its entry is confused
with none of them.  That needs an entry that is not in normal form, and so a candidate that is not. -/
theorem references_of_build (parser : Parser) (config : Config) (number : Nat) {project : Project}
    (hformed : project.tree.WellFormed) (registry : Registry) (wanted? : Option Text) :
    (∀ code, decodeReference (registry.register code none).1 = .ok code) ∧
    (∀ code path, decodeReference (registry.register code (some path)).1
      = .ok (code ++ "\n//# sourceURL=@vfs" ++ path ++ "\n")) ∧
    (∀ (later : Registry) (code other path name : String), IsNormal (path : Text) → IsNormal (name : Text) →
      ((registry.register code (some path)).1 = (later.register other (some name)).1 ↔
        code = other ∧ path = name)) ∧
    ∀ document stamp,
      (build parser config number project registry wanted?).1 = .ok ⟨.ok document, stamp⟩ →
        (document.TellsApart ↔ ∀ path ∈ document.modules, ¬ document.Confuses path) ∧
        (IsNormal document.entry → document.TellsApart) ∧
        ((wanted? = none → ∀ candidate ∈ config.entryCandidates, IsNormal candidate) →
          document.TellsApart) := by
  refine ⟨fun code => Module.decodeReference_referenceOf code none, fun code path => ?_,
    fun later code other path name hpath hname => ?_, fun document stamp hok => ?_⟩
  · have hmark : sourceMark = "\n//# sourceURL=@vfs" := by decide
    rw [← hmark, ← Module.tagged_some]
    exact Module.decodeReference_referenceOf code (some path)
  · exact Module.referenceOf_inj.trans (Module.tagged_inj hpath hname)
  · let setting : Setting := ⟨parser, project.tree, config⟩
    have hformed : setting.tree.WellFormed := hformed
    obtain ⟨hselect, hlists⟩ := lists_of_buildTree hformed hok
    obtain ⟨entry, graph, -, hmade⟩ := documentOf_of_buildTree hok
    have happart := hlists.tellsApart_iff (of_documentOf hmade).refersToAll
    have hnormal : IsNormal document.entry → document.TellsApart := fun hentry =>
      happart.mpr fun path _ hconfuses => hconfuses.not_isNormal hentry
    exact ⟨happart, hnormal, fun hspelled => hnormal (isNormal_of_selectEntry hformed hselect hspelled)⟩

/-- The page of a script that imports a style sheet tells the two modules apart. -/
theorem references_of_build_styled :
    ∃ document, (build (fun _ _ => styledTree) {} 0 styledProject .empty (some "/a.js")).1
        = .ok ⟨.ok document, styledProject.revision⟩ ∧ document.TellsApart ∧
      decodeReference (Registry.empty.register "x" (some "/a.js")).1
        = .ok "x\n//# sourceURL=@vfs/a.js\n" := by
  obtain ⟨document, hbuild⟩ := exists_build_styled
  have hexact := references_of_build (fun _ _ => styledTree) {} 0 consistent_styledProject.wellFormed
    .empty (some "/a.js")
  exact ⟨document, hbuild, (hexact.2.2.2 document _ hbuild).2.2 nofun, hexact.2.1 "x" "/a.js"⟩

/-! ## §3. A module that is confused with the entry -/

/-- The node of `import "/a.js";`. -/
def echoingImport : Syntax.Node :=
  ⟨"import_statement", true, false, 0, 15, none,
    [⟨"import", false, false, 0, 6, none, []⟩,
      ⟨"string", true, false, 7, 14, some "source",
        [⟨"\"", false, false, 7, 8, none, []⟩, ⟨"string_fragment", true, false, 8, 13, none, []⟩,
          ⟨"\"", false, false, 13, 14, none, []⟩]⟩,
      ⟨";", false, false, 14, 15, none, []⟩]⟩

/-- A script of this import, and one with a comment in its second line. -/
def echoingParser : Lowering.Parser := fun _ source =>
  if source = "import \"/a.js\";" then ⟨"program", true, false, 0, 15, none, [echoingImport]⟩
  else ⟨"program", true, false, 0, 34, none, [echoingImport, ⟨"comment", true, false, 16, 34, none, []⟩]⟩

theorem lower_entry_echoing : Lowering.lower echoingParser .tsx {} "import \"/a.js\";"
    = .ok ⟨"import \"/a.js\";", ["/a.js"], [⟨7, 14, "/a.js"⟩], false⟩ := by
  unfold Lowering.lower
  rw [String.contains_char_eq, if_neg (by decide)]
  rfl

theorem lower_other_echoing :
    Lowering.lower echoingParser .tsx {} "import \"/a.js\";\n//# sourceURL=@vfs"
      = .ok ⟨"import \"/a.js\";\n//# sourceURL=@vfs", ["/a.js"], [⟨7, 14, "/a.js"⟩], false⟩ := by
  unfold Lowering.lower
  rw [String.contains_char_eq, if_neg (by decide)]
  rfl

/-- Two scripts that import the second one; the second one ends as the mark begins. -/
def echoingActions : List Project.Action :=
  [.edit (.createFile "/\n/# sourceURL=@vfs/a.js" "import \"/a.js\";"),
    .edit (.createFile "/a.js" "import \"/a.js\";\n//# sourceURL=@vfs")]

/-- A spelling of the path of the first script that begins with a mark and goes on to the path of the
second one. -/
def echoingPath : Text := "\n//# sourceURL=@vfs/a.js"

/-- The candidate is not in normal form. -/
def echoingConfig : Config where
  externals := []
  mountsEntry := false
  entryCandidates := [echoingPath]

def echoingProject : Project :=
  (({} : Project).newCache {}).2.run echoingParser (({} : Project).newCache {}).1 echoingActions

def echoingSetting : Setting :=
  ⟨echoingParser, echoingProject.tree, echoingConfig⟩

theorem consistent_echoingProject : echoingProject.Consistent echoingParser {} 0 :=
  (Project.consistent_newCache _ {} (.inl rfl : ({} : Project).tree.IsInitial)).run echoingActions

/-- The module of the entry. -/
def echoingEntry : Module :=
  ⟨"/\n/# sourceURL=@vfs/a.js", .script, "import \"/a.js\";", ["/a.js"], [⟨7, 14, "/a.js"⟩]⟩

/-- The module of the other script. -/
def echoingOther : Module :=
  ⟨"/a.js", .script, "import \"/a.js\";\n//# sourceURL=@vfs", ["/a.js"], [⟨7, 14, "/a.js"⟩]⟩

theorem freshModule_echoingEntry :
    freshModule echoingSetting.parser {} echoingSetting.tree echoingPath = .ok echoingEntry := by
  have hpath : Path.normalize echoingPath = "/\n/# sourceURL=@vfs/a.js" := by decide
  have hread : echoingSetting.tree.read echoingPath = .ok (.text "import \"/a.js\";") := by
    unfold Tree.read
    rw [hpath]
    rfl
  have hmodule := freshModule_of_lower hread (by rw [hpath]; rfl) lower_entry_echoing
  rwa [hpath] at hmodule

theorem freshModule_echoingOther :
    freshModule echoingSetting.parser {} echoingSetting.tree "/a.js" = .ok echoingOther :=
  freshModule_of_lower rfl rfl lower_other_echoing

/-- The links of both scripts. -/
def echoingLinks : Links :=
  ⟨[], [("/a.js", "/a.js")]⟩

/-- The graph of the page. -/
def echoingGraph : Graph :=
  (((({} : Graph).enter echoingPath echoingEntry echoingLinks).enter "/a.js" echoingOther
    echoingLinks).complete "/a.js").complete echoingPath

theorem answer_plan_echoing :
    (plan echoingSetting none).answer {} = .ok (echoingPath, echoingGraph) := by
  have htexts : echoingSetting.tree.HoldsTexts := consistent_echoingProject.holdsTexts
  have hselect : selectEntry echoingSetting.tree echoingSetting.config none = .ok echoingPath := by
    decide
  have hown : ownExternals echoingSetting.config echoingPath = .ok [] := rfl
  -- the file of the entry counts as unreached, under its normal form
  have hunreached : (echoingSetting.tree.files.map Prod.fst).erase echoingPath
      = [("/\n/# sourceURL=@vfs/a.js" : Text), "/a.js"] := by
    decide
  have hfirst : (reach echoingSetting { externals := [] } echoingPath).answer {}
      = .ok (({} : Graph).enter echoingPath echoingEntry echoingLinks, ["/a.js"]) :=
    (answer_reach_eq_ok_iff htexts).mpr ⟨echoingEntry, echoingLinks, freshModule_echoingEntry,
      by decide, by decide +kernel⟩
  have hsecond : (reach echoingSetting (({} : Graph).enter echoingPath echoingEntry echoingLinks)
        "/a.js").answer {}
      = .ok ((({} : Graph).enter echoingPath echoingEntry echoingLinks).enter "/a.js"
          echoingOther echoingLinks, ["/a.js"]) :=
    (answer_reach_eq_ok_iff htexts).mpr ⟨echoingOther, echoingLinks, freshModule_echoingOther,
      by decide, by decide +kernel⟩
  have hcollect : (collect echoingSetting echoingPath).answer {} = .ok echoingGraph := by
    rw [answer_collect htexts, hown]
    show ((reach echoingSetting { externals := [] } echoingPath).answer {} >>= _) = _
    rw [hfirst]
    show (search echoingSetting ((echoingSetting.tree.files.map Prod.fst).erase echoingPath)
      [⟨echoingPath, ["/a.js"]⟩] _).answer {} = _
    rw [hunreached, answer_search_of_mem htexts (by decide), hsecond]
    show (search echoingSetting [("/\n/# sourceURL=@vfs/a.js" : Text)]
      [⟨"/a.js", ["/a.js"]⟩, ⟨echoingPath, []⟩] _).answer {} = _
    rw [search, dif_neg (by decide), search, search, search]
    rfl
  rw [answer_plan htexts, hselect]
  show ((collect echoingSetting echoingPath).answer {}).map _ = _
  rw [hcollect]
  rfl

theorem string?_linkedCode_entry :
    (linkedCode echoingGraph echoingPath).string? = some "import \"@vfs/a.js\";" := by
  show (link echoingEntry.code echoingEntry.sites [("/a.js", "/a.js")]).string? = _
  unfold link backToFront
  rw [show echoingEntry.sites = [⟨7, 14, "/a.js"⟩] from rfl, List.mergeSort_singleton]
  decide

theorem string?_linkedCode_other : (linkedCode echoingGraph "/a.js").string?
    = some "import \"@vfs/a.js\";\n//# sourceURL=@vfs" := by
  show (link echoingOther.code echoingOther.sites [("/a.js", "/a.js")]).string? = _
  unfold link backToFront
  rw [show echoingOther.sites = [⟨7, 14, "/a.js"⟩] from rfl, List.mergeSort_singleton]
  decide

/-- The document of the two scripts has two modules and gives both of them one reference. -/
theorem not_tellsApart_build_echoing :
    ∃ document, (build echoingParser echoingConfig 0 echoingProject .empty none).1
        = .ok ⟨.ok document, echoingProject.revision⟩ ∧
      document.modules = [("/a.js" : Text), echoingPath] ∧ ¬ document.TellsApart := by
  have hcache := consistent_echoingProject.hasSound.cacheAt
  have htexts : echoingSetting.tree.HoldsTexts := consistent_echoingProject.holdsTexts
  have hplan := (steady_plan htexts none _ hcache).1.trans answer_plan_echoing
  have hcodes : ∀ path ∈ echoingGraph.order,
      (linkedCode echoingGraph path).string?.isSome = true ∧ path.string?.isSome = true := by
    show ∀ path ∈ [("/a.js" : Text), echoingPath], _
    rw [List.forall_mem_cons, List.forall_mem_singleton, string?_linkedCode_entry, string?_linkedCode_other]
    decide
  obtain ⟨document, hbuild⟩ := exists_document_of_plan hplan hcodes (by decide)
    echoingProject.revision .empty
  obtain ⟨entry, graph, hplan', hmade⟩ := documentOf_of_buildTree hbuild
  rw [hplan] at hplan'
  cases hplan'
  have hof := of_documentOf hmade
  have hmodules : document.modules = [("/a.js" : Text), echoingPath] := hof.modules_eq
  refine ⟨document, hbuild, hmodules, fun happart => ?_⟩
  obtain ⟨code, name, hcode, hname, hentry⟩ := hof.hasReference echoingPath (by decide)
  obtain ⟨other, path, hother, hpath, hreference⟩ := hof.hasReference "/a.js" (by decide)
  rw [string?_linkedCode_entry] at hcode
  rw [string?_linkedCode_other] at hother
  have hstring : echoingPath.string? = some "\n//# sourceURL=@vfs/a.js" := Text.string?_ofString _
  rw [hstring] at hname
  rw [Text.string?_ofString] at hpath
  obtain rfl := Option.some.inj hcode
  obtain rfl := Option.some.inj hname
  obtain rfl := Option.some.inj hother
  obtain rfl := Option.some.inj hpath
  have htagged : tagged "import \"@vfs/a.js\";" (some "\n//# sourceURL=@vfs/a.js")
      = tagged "import \"@vfs/a.js\";\n//# sourceURL=@vfs" (some "/a.js") := by
    decide
  have hshared := happart echoingPath (by rw [hmodules]; decide) "/a.js"
    (by rw [hmodules]; decide) (by rw [hentry, hreference, Module.referenceOf_inj.mpr htagged])
  revert hshared
  decide

end LivePreview.Preview
