/-
  LivePreview.Proofs.Preview.Publishing
  ─────────────────────────────────────
  **What a build does to the counts of references.**

  Publishing gives out the references of the files in order, up to the first one whose
  module cannot be encoded (`givenOut`).  A build publishes the files of its plan and
  does nothing else to the registry (`registry_buildTree`).

  So a build that fails leaves the registry as it was, and one that succeeds has given
  out the references of its document, each as often as the document holds it.  A build
  that breaks down leaves the registry as it was only if it breaks down before it
  publishes anything (`Breakdown.isLate`): what it has published by then stays given
  out, although no document holds it (`registry_build`).
-/
import LivePreview.Lowering.Parsed
import LivePreview.Proofs.Module.Registry
import LivePreview.Proofs.Preview.DepthFirst
import LivePreview.Proofs.Preview.Linked

namespace LivePreview.Preview

open LivePreview.Lowering (Parser)
open LivePreview.Module (Registry)

variable {setting : Setting} {graph : Graph} {registry : Registry}

/-! ## §1. Publishing -/

/-- The reference to the linked module of a file, unless the module cannot be encoded. -/
def moduleReference? (graph : Graph) (path : Text) : Option String :=
  match (linkedCode graph path).string?, path.string? with
  | some code, some name => some (Module.referenceOf code (some name))
  | _, _ => none

/-- The references that are given out when files are published: those of the files in front of the
first one whose module cannot be encoded. -/
def givenOut (graph : Graph) : List Text → List String
  | [] => []
  | path :: paths =>
    match moduleReference? graph path with
    | some reference => reference :: givenOut graph paths
    | none => []

theorem publish_cons (graph : Graph) (path : Text) (paths : List Text) (references : Table String)
    (registry : Registry) : publish graph (path :: paths) (references, registry) =
      match moduleReference? graph path with
      | some reference =>
        publish graph paths (references.insert (Module.idOf path) reference, registry.add reference)
      | none => (.error (.unencodable path), registry) := by
  unfold moduleReference?
  rw [publish]
  cases (linkedCode graph path).string? with
  | none => rfl
  | some code => cases path.string? <;> rfl

theorem registry_publish (graph : Graph) (paths : List Text) (references : Table String)
    (registry : Registry) :
    (publish graph paths (references, registry)).2 = (givenOut graph paths).foldl .add registry := by
  induction paths generalizing references registry with
  | nil => rfl
  | cons path paths ih =>
    rw [publish_cons, givenOut]
    cases moduleReference? graph path with
    | none => rfl
    | some reference => exact ih _ _

/-- Publishing files enters the references that it gives out, behind those that are there. -/
theorem values_of_publish {paths : List Text} {references published : Table String}
    (hnodup : paths.Nodup) (hnew : ∀ path ∈ paths, Module.idOf path ∉ references.keys)
    (hok : (publish graph paths (references, registry)).1 = .ok published) :
    published.values = references.values ++ givenOut graph paths := by
  induction paths generalizing references registry with
  | nil =>
    cases hok
    exact (List.append_nil _).symm
  | cons path paths ih =>
    obtain ⟨hpath, hpaths⟩ := List.nodup_cons.mp hnodup
    rw [publish_cons] at hok
    rw [givenOut]
    cases hreference : moduleReference? graph path with
    | none =>
      rw [hreference] at hok
      cases hok
    | some reference =>
      rw [hreference] at hok
      -- different files have different ids, so that no entry is overwritten
      have hlater : ∀ other ∈ paths,
          Module.idOf other ∉ (references.insert (Module.idOf path) reference).keys := by
        intro other hother hmem
        rcases Table.mem_keys_insert.mp hmem with heq | hmem
        · exact hpath (idOf_injective heq ▸ hother)
        · exact hnew other (List.mem_cons_of_mem _ hother) hmem
      rw [ih hpaths hlater hok, Table.values_insert_of_notMem (hnew path List.mem_cons_self),
        List.append_assoc]
      rfl

/-! ## §2. Breakdowns -/

/-- The breakdown comes about when the modules of a page are given out, or later. -/
def Breakdown.isLate : Breakdown → Bool
  | .unencodable _ | .url _ => true
  | .transformation _ | .tree _ => false

/-- A search stops before anything is given out. -/
def Stop.IsEarly : Stop → Prop
  | .error _ => True
  | .breakdown cause => cause.isLate = false

theorem isEarly_ofFailure (failure : Module.Failure) : (Stop.ofFailure failure).IsEarly := by
  cases failure with
  | noModule _ => exact trivial
  | tree _ => rfl
  | breakdown _ => rfl

theorem isEarly_of_start_reach {path : Text} {cache after : Module.Cache} {stop : Stop}
    (h : (reach setting graph path).start cache = (.error stop, after)) : stop.IsEarly := by
  unfold reach at h
  rw [start_bind, start_transform] at h
  cases hmodule : (cache.moduleAt setting.parser setting.tree path).1 with
  | error failure =>
    rw [hmodule] at h
    cases h
    exact isEarly_ofFailure failure
  | ok found =>
    rw [hmodule] at h
    dsimp only [Except.mapError] at h
    rw [start_bind, start_resolved] at h
    cases hlinks : linksOf setting.tree setting.config path graph.externals found.imports with
    | error fault =>
      rw [hlinks] at h
      cases h
      exact trivial
    | ok links =>
      rw [hlinks] at h
      cases h

theorem Visits.isEarly {targets : List Text} {cache after : Module.Cache} {stop : Stop}
    (h : Visits setting targets graph cache (.error stop, after)) : stop.IsEarly := by
  generalize houtcome : ((.error stop, after) : Except Stop Graph × Module.Cache) = outcome at h
  induction h with
  | done graph cache => cases houtcome
  | known _ _ ih => exact ih houtcome
  | unreached _ hreach =>
    cases houtcome
    exact isEarly_of_start_reach hreach
  | stopped _ _ _ ih =>
    cases houtcome
    exact ih rfl
  | followed _ _ _ _ _ ihrest => exact ihrest houtcome

theorem Explores.isEarly {entry : Text} {cache after : Module.Cache} {stop : Stop}
    (h : Explores setting entry cache (.error stop, after)) : stop.IsEarly := by
  cases h with
  | unknownExternal _ => exact trivial
  | visited _ hvisits => exact hvisits.isEarly

/-- What selecting an entry and collecting its modules ends with: a stop before anything is given out,
or a graph that lists no file twice. -/
theorem plan_cases (setting : Setting) (wanted? : Option Text) (cache : Module.Cache) :
    (∃ stop, ((plan setting wanted?).start cache).1 = .error stop ∧ stop.IsEarly)
      ∨ ∃ entry graph, ((plan setting wanted?).start cache).1 = .ok (entry, graph)
        ∧ graph.order.Nodup := by
  rw [start_plan]
  cases selectEntry setting.tree setting.config wanted? with
  | error fault => exact .inl ⟨_, rfl, trivial⟩
  | ok entry =>
    have hexplores := explores_collect setting entry cache
    dsimp only
    generalize (collect setting entry).start cache = outcome at hexplores
    rcases outcome with ⟨stop | graph, after⟩
    · exact .inl ⟨stop, rfl, hexplores.isEarly⟩
    · exact .inr ⟨entry, graph, rfl, hexplores.order.1⟩

/-! ## §3. Documents -/

theorem registry_documentOf (config : Config) (entry : Text) (revision : Nat) (graph : Graph)
    (registry : Registry) : (documentOf config entry revision graph registry).2
      = (givenOut graph graph.order).foldl .add registry :=
  registry_publish graph graph.order [] registry

/-- A document holds the references that have been given out for it. -/
theorem values_references_of_documentOf {config : Config} {entry : Text} {revision : Nat}
    {document : Document} (hnodup : graph.order.Nodup)
    (hok : (documentOf config entry revision graph registry).1 = .ok document) :
    document.references.values = givenOut graph graph.order := by
  obtain ⟨references, hpublish, hdocument⟩ := Result.bind_eq_ok_iff.mp hok
  unfold documentWith at hdocument
  split at hdocument
  · cases hdocument
    exact values_of_publish hnodup (fun _ _ => List.not_mem_nil) hpublish
  · cases hdocument

/-- If there is no document of a graph, then because of a late breakdown. -/
theorem isLate_of_documentOf {config : Config} {entry : Text} {revision : Nat} {breakdown : Breakdown}
    (h : (documentOf config entry revision graph registry).1 = .error breakdown) :
    breakdown.isLate = true := by
  -- publishing breaks down at the first module that cannot be encoded
  have hlate : ∀ paths references registry,
      (publish graph paths (references, registry)).1 = .error breakdown → breakdown.isLate = true := by
    intro paths
    induction paths with
    | nil => exact nofun
    | cons path paths ih =>
      intro references registry hpublish
      rw [publish_cons] at hpublish
      cases hreference : moduleReference? graph path with
      | none =>
        rw [hreference] at hpublish
        cases hpublish
        rfl
      | some reference =>
        rw [hreference] at hpublish
        exact ih _ _ hpublish
  unfold documentOf at h
  dsimp only at h
  cases hpublish : (publish graph graph.order ([], registry)).1 with
  | error first =>
    rw [hpublish] at h
    cases h
    exact hlate _ _ _ hpublish
  | ok references =>
    rw [hpublish] at h
    replace h : documentWith config entry revision graph references = .error breakdown := h
    unfold documentWith at h
    split at h
    · cases h
    · cases h
      rfl

/-! ## §4. Builds -/

/-- What has been given out when a build has come to the end of its plan. -/
def givenOutBy : Except Stop (Text × Graph) → List String
  | .ok (_, graph) => givenOut graph graph.order
  | .error _ => []

/-- **A build gives out the references of its plan, and does nothing else to the registry.** -/
theorem registry_buildTree (setting : Setting) (revision : Nat) (registry : Registry)
    (cache : Module.Cache) (wanted? : Option Text) :
    (buildTree setting revision registry cache wanted?).registry
      = (givenOutBy ((plan setting wanted?).start cache).1).foldl .add registry := by
  unfold Walk.start buildTree
  rcases (plan setting wanted?).run.run cache with ⟨stop | ⟨entry, graph⟩, after⟩
  · cases stop <;> rfl
  · show _ = (givenOut graph graph.order).foldl .add registry
    rw [← registry_documentOf setting.config entry revision graph registry]
    dsimp only
    rcases documentOf setting.config entry revision graph registry with ⟨breakdown | document, live⟩
    · rfl
    · rfl

section BuildTree

variable {revision stamp : Nat} {cache : Module.Cache} {wanted? : Option Text}

/-- A build that fails gives nothing out. -/
theorem registry_buildTree_of_error {error : BuildError}
    (hok : (buildTree setting revision registry cache wanted?).answer = .ok ⟨.error error, stamp⟩) :
    (buildTree setting revision registry cache wanted?).registry = registry := by
  rw [answer_buildTree] at hok
  rw [registry_buildTree]
  rcases plan_cases setting wanted? cache with ⟨stop, hplan, -⟩ | ⟨entry, graph, hplan, -⟩
  · rw [hplan]
    rfl
  · rw [hplan] at hok
    obtain ⟨document, -, heq⟩ := Result.map_eq_ok_iff.mp hok
    cases heq

/-- A build that succeeds gives out the references of its document. -/
theorem registry_buildTree_of_document {document : Document}
    (hok : (buildTree setting revision registry cache wanted?).answer = .ok ⟨.ok document, stamp⟩) :
    (buildTree setting revision registry cache wanted?).registry
      = document.references.values.foldl .add registry := by
  rw [answer_buildTree] at hok
  rw [registry_buildTree]
  rcases plan_cases setting wanted? cache with ⟨stop, hplan, -⟩ | ⟨entry, graph, hplan, hnodup⟩
  · rw [hplan] at hok
    cases stop <;> cases hok
  · rw [hplan] at hok ⊢
    obtain ⟨made, hmade, heq⟩ := Result.map_eq_ok_iff.mp hok
    cases heq
    rw [values_references_of_documentOf hnodup hmade]
    rfl

/-- A build that breaks down gives out nothing if that is early, and else the references of its
plan. -/
theorem registry_buildTree_of_breakdown {breakdown : Breakdown}
    (herror : (buildTree setting revision registry cache wanted?).answer = .error breakdown) :
    (breakdown.isLate = false ∧ (buildTree setting revision registry cache wanted?).registry = registry)
      ∨ (breakdown.isLate = true ∧ ∃ entry graph,
        ((plan setting wanted?).start cache).1 = .ok (entry, graph)
          ∧ (buildTree setting revision registry cache wanted?).registry
            = (givenOut graph graph.order).foldl .add registry) := by
  rw [answer_buildTree] at herror
  rw [registry_buildTree]
  rcases plan_cases setting wanted? cache with ⟨stop, hplan, hearly⟩ | ⟨entry, graph, hplan, -⟩
  · rw [hplan] at herror ⊢
    cases stop with
    | error _ => cases herror
    | breakdown _ =>
      cases herror
      exact .inl ⟨hearly, rfl⟩
  · rw [hplan] at herror ⊢
    refine .inr ⟨?_, entry, graph, rfl, rfl⟩
    replace herror : (documentOf setting.config entry revision graph registry).1.map _
      = .error breakdown := herror
    cases hmade : (documentOf setting.config entry revision graph registry).1 with
    | error cause =>
      rw [hmade] at herror
      cases herror
      exact isLate_of_documentOf hmade
    | ok document =>
      rw [hmade] at herror
      cases herror

end BuildTree

/-- For every project, registry and configuration: a build that fails, or breaks down before it
publishes anything, leaves the registry as it was.  A build that succeeds has given out the references
of its document.  A build that breaks down later has given out references of its plan. -/
theorem registry_build (parser : Parser) (config : Config) (number : Nat) (project : Project)
    (registry : Registry) (wanted? : Option Text) :
    let setting : Setting := ⟨parser, project.tree, config⟩
    let planned := ((plan setting wanted?).start (project.cacheAt number)).1
    let (answer, _, after) := build parser config number project registry wanted?
    (∀ error stamp, answer = .ok ⟨.error error, stamp⟩ → after = registry)
      ∧ (∀ document stamp, answer = .ok ⟨.ok document, stamp⟩ → ∀ reference,
        after.count reference = registry.count reference + document.references.values.count reference)
      ∧ (∀ breakdown, answer = .error breakdown → breakdown.isLate = false → after = registry)
      ∧ (∀ breakdown, answer = .error breakdown → breakdown.isLate = true →
        ∃ entry graph, planned = .ok (entry, graph) ∧ ∀ reference,
          after.count reference
            = registry.count reference + (givenOut graph graph.order).count reference) := by
  intro setting planned
  let built := buildTree setting project.revision registry (project.cacheAt number) wanted?
  show (∀ error stamp, built.answer = _ → built.registry = _) ∧ _
  refine ⟨fun error stamp => registry_buildTree_of_error, fun document stamp hok reference => ?_,
    fun breakdown herror hearly => ?_, fun breakdown herror hlate => ?_⟩
  · rw [registry_buildTree_of_document hok]
    exact Module.Registry.count_foldl_add registry _ reference
  · rcases registry_buildTree_of_breakdown herror with ⟨-, hregistry⟩ | ⟨hlate, -⟩
    · exact hregistry
    · exact absurd hlate (Bool.eq_false_iff.mp hearly)
  · rcases registry_buildTree_of_breakdown herror with ⟨hearly, -⟩ | ⟨-, entry, graph, hplan, hregistry⟩
    · exact absurd hlate (Bool.eq_false_iff.mp hearly)
    · refine ⟨entry, graph, hplan, fun reference => ?_⟩
      rw [hregistry]
      exact Module.Registry.count_foldl_add registry _ reference

/-- The plan of an entry that imports no file is the entry alone. -/
theorem start_plan_of_files_eq_nil {setting : Setting} {cache : Module.Cache} {wanted? : Option Text}
    {entry : Text} {externals : Table Text} {found : Module} {links : Links}
    (htexts : setting.tree.HoldsTexts) (hcache : cache.Sound setting.parser {})
    (hselect : selectEntry setting.tree setting.config wanted? = .ok entry)
    (hown : ownExternals setting.config entry = .ok externals)
    (hfresh : freshModule setting.parser {} setting.tree entry = .ok found)
    (hlinks : linksOf setting.tree setting.config entry externals found.imports = .ok links)
    (hfiles : links.files = []) :
    ((plan setting wanted?).start cache).1
      = .ok (entry, (({ externals } : Graph).enter entry found links).complete entry) := by
  have hreach : (reach setting { externals } entry).answer {}
      = .ok (({ externals } : Graph).enter entry found links, []) :=
    (answer_reach_eq_ok_iff htexts).mpr ⟨found, links, hfresh, hlinks, by rw [hfiles]⟩
  rw [← (steady_reach htexts _ _ _ hcache).1] at hreach
  rcases hstart : (reach setting { externals } entry).start cache with ⟨answer, after⟩
  rw [hstart] at hreach
  obtain rfl : answer = _ := hreach
  have hvisits : Visits setting [entry] { externals } cache (.ok _, after) :=
    .followed List.not_mem_nil hstart (.done _ _) (.done _ _)
  rw [start_plan, hselect]
  dsimp only
  rw [explores_iff.mp (.visited hown hvisits)]

theorem start_plan_of_imports_eq_nil {setting : Setting} {cache : Module.Cache} {wanted? : Option Text}
    {entry : Text} {externals : Table Text} {found : Module} (htexts : setting.tree.HoldsTexts)
    (hcache : cache.Sound setting.parser {})
    (hselect : selectEntry setting.tree setting.config wanted? = .ok entry)
    (hown : ownExternals setting.config entry = .ok externals)
    (hfresh : freshModule setting.parser {} setting.tree entry = .ok found)
    (himports : found.imports = []) :
    ((plan setting wanted?).start cache).1
      = .ok (entry, (({ externals } : Graph).enter entry found ⟨externals, []⟩).complete entry) := by
  have hlinks : linksOf setting.tree setting.config entry externals found.imports
      = .ok ⟨externals, []⟩ := by
    rw [himports]
    rfl
  exact start_plan_of_files_eq_nil htexts hcache hselect hown hfresh hlinks rfl

/-! ## §5. An external without a valid host -/

/-- A configuration in which one of the externals that a page needs has a host with a stray bracket. -/
def bracketedConfig : Config where
  externals := [("react", "https://[bad"), ("react-dom/client", "https://cdn.example/client")]

def sheetActions : List Project.Action :=
  [.edit (.createFile "/a.css" "p\x7b\x7d")]

/-- A project that consists of a style sheet. -/
def sheetProject : Project :=
  (({} : Project).newCache {}).2.run (Lowering.parserOf []) (({} : Project).newCache {}).1 sheetActions

def sheetSetting : Setting :=
  ⟨Lowering.parserOf [], sheetProject.tree, bracketedConfig⟩

theorem consistent_sheetProject : sheetProject.Consistent (Lowering.parserOf []) {} 0 :=
  (Project.consistent_newCache _ {} (.inl rfl : ({} : Project).tree.IsInitial)).run sheetActions

/-- The module of the style sheet. -/
def sheetModule : Module :=
  ⟨"/a.css", .style, Module.styleCode "/a.css" (.text "p\x7b\x7d"), [], []⟩

theorem freshModule_sheet :
    freshModule sheetSetting.parser {} sheetSetting.tree "/a.css" = .ok sheetModule := rfl

/-- The graph of the page. -/
def sheetGraph : Graph :=
  (({ externals := bracketedConfig.externals } : Graph).enter "/a.css" sheetModule
    ⟨bracketedConfig.externals, []⟩).complete "/a.css"

theorem start_plan_sheet :
    ((plan sheetSetting (some "/a.css")).start (sheetProject.cacheAt 0)).1 = .ok ("/a.css", sheetGraph) :=
  start_plan_of_imports_eq_nil consistent_sheetProject.holdsTexts
    consistent_sheetProject.hasSound.cacheAt (by decide +kernel) (by decide +kernel)
    freshModule_sheet rfl

theorem isSome_linkedCode_sheet : ∀ path ∈ sheetGraph.order,
    (linkedCode sheetGraph path).string?.isSome = true ∧ path.string?.isSome = true := by
  have hcode : linkedCode sheetGraph "/a.css" = link sheetModule.code [] [] := rfl
  show ∀ path ∈ [("/a.css" : Text)], _
  rw [List.forall_mem_singleton, hcode]
  unfold link backToFront
  rw [List.mergeSort_nil]
  decide +kernel

theorem answer_build_sheet :
    (build (Lowering.parserOf []) bracketedConfig 0 sheetProject .empty (some "/a.css")).1
      = .error (.url .strayBrackets) := by
  obtain ⟨published, hpublish⟩ := exists_publish_eq_ok isSome_linkedCode_sheet [] .empty
  have hpolicy : contentSecurityPolicy sheetGraph.externals.values = .error .strayBrackets := by
    decide +kernel
  have hdocument : documentWith bracketedConfig "/a.css" sheetProject.revision sheetGraph published
      = .error (.url .strayBrackets) := by
    unfold documentWith page
    rw [hpolicy]
    rfl
  show (buildTree sheetSetting _ _ _ _).answer = _
  rw [answer_buildTree, start_plan_sheet]
  unfold conclude documentOf
  dsimp only
  rw [hpublish]
  show (documentWith bracketedConfig "/a.css" sheetProject.revision sheetGraph published).map _ = _
  rw [hdocument]
  rfl

theorem exists_givenOut_sheet : ∃ reference, givenOut sheetGraph sheetGraph.order = [reference] := by
  obtain ⟨hcode, hname⟩ := isSome_linkedCode_sheet "/a.css" List.mem_cons_self
  obtain ⟨code, hcode⟩ := Option.isSome_iff_exists.mp hcode
  obtain ⟨name, hname⟩ := Option.isSome_iff_exists.mp hname
  have hreference : moduleReference? sheetGraph "/a.css" = some (Module.referenceOf code (some name)) := by
    unfold moduleReference?
    rw [hcode, hname]
  refine ⟨Module.referenceOf code (some name), ?_⟩
  show givenOut sheetGraph ["/a.css"] = _
  unfold givenOut
  rw [hreference]
  rfl

/-- The build of the style sheet breaks down when its reference has been given out. -/
theorem registry_build_sheet :
    ∃ entry graph,
      ((plan sheetSetting (some "/a.css")).start (sheetProject.cacheAt 0)).1 = .ok (entry, graph)
        ∧ ∀ reference,
          (build (Lowering.parserOf []) bracketedConfig 0 sheetProject .empty
            (some "/a.css")).2.2.count reference
              = Registry.empty.count reference + (givenOut graph graph.order).count reference :=
  (registry_build (Lowering.parserOf []) bracketedConfig 0 sheetProject .empty (some "/a.css")).2.2.2
    (.url .strayBrackets) answer_build_sheet rfl

/-- A build that ends without a document may leave a reference live that was not live before. -/
theorem count_build_sheet_ne :
    (build (Lowering.parserOf []) bracketedConfig 0 sheetProject .empty (some "/a.css")).1
        = .error (.url .strayBrackets)
      ∧ ∃ reference,
        (build (Lowering.parserOf []) bracketedConfig 0 sheetProject .empty
          (some "/a.css")).2.2.count reference ≠ Registry.empty.count reference := by
  obtain ⟨reference, hreference⟩ := exists_givenOut_sheet
  refine ⟨answer_build_sheet, reference, ?_⟩
  show (buildTree sheetSetting _ _ _ _).registry.count reference ≠ _
  rw [registry_buildTree, start_plan_sheet]
  show ((givenOut sheetGraph sheetGraph.order).foldl Registry.add .empty).count reference ≠ _
  rw [hreference, Module.Registry.count_foldl_add, Module.Registry.count_empty]
  simp

end LivePreview.Preview
