/-
  LivePreview.Proofs.Preview.Spelling
  ───────────────────────────────────
  **One file is one module, if the entry is spelled in normal form.**

  Modules are told apart by the texts of their paths.  What an import is resolved to is
  listed among the files of the tree, under its normal form (`Visits.mem_files`), and so
  the entry is the only module that can have another spelling.  It has the one of a
  candidate, which is taken as it stands; an entry that is asked for, and the first
  script of the tree, are in normal form (`isNormal_of_selectEntry`).

  A second spelling of the entry is one module more if the imports lead back to it: a
  script that imports itself is listed twice (`modules_build_returning`).
-/
import LivePreview.Proofs.Preview.Publishing

namespace LivePreview.Preview

open LivePreview.Lowering (Options Parser)
open LivePreview.Module (Registry)
open LivePreview.Path (IsNormal)

/-! ## §1. Spellings of files -/

variable {setting : Setting}

/-- **Visiting files adds no others than files of the tree in normal form.** -/
theorem Visits.mem_files {targets : List Text} {graph after : Graph} {cache below : Module.Cache}
    (h : Visits setting targets graph cache (.ok after, below)) {path : Text} (hpath : path ∈ after.order) :
    path ∈ graph.order ∨ path ∈ targets ∨ path ∈ setting.tree.files.map Prod.fst := by
  generalize houtcome : ((.ok after, below) : Except Stop Graph × Module.Cache) = outcome at h
  -- induction on the search: what is followed is a target, or a file that another one imports
  induction h generalizing after below with
  | done graph cache =>
    cases houtcome
    exact .inl hpath
  | known _ _ ih =>
    rcases ih hpath houtcome with horder | htarget | hfile
    · exact .inl horder
    · exact .inr (.inl (List.mem_cons_of_mem _ htarget))
    · exact .inr (.inr hfile)
  | unreached _ _ => cases houtcome
  | stopped _ _ _ _ => cases houtcome
  | followed _ hreach _ _ ihbeneath ihrest =>
    obtain ⟨found, links, hlinks, rfl, rfl⟩ := exists_enter_of_start_reach hreach
    -- what lies beneath the target comes in front of it, and the other targets behind
    rcases ihrest hpath houtcome with hcomplete | htarget | hfile
    · rcases List.mem_append.mp hcomplete with hbeneath | hself
      · rcases ihbeneath hbeneath rfl with horder | himport | hfile
        · exact .inl horder
        · exact .inr (.inr (mem_files_of_linksOf hlinks himport))
        · exact .inr (.inr hfile)
      · exact .inr (.inl (List.mem_cons.mpr (.inl (List.mem_singleton.mp hself))))
    · exact .inr (.inl (List.mem_cons_of_mem _ htarget))
    · exact .inr (.inr hfile)

theorem Explores.mem_files {entry : Text} {graph : Graph} {cache below : Module.Cache}
    (h : Explores setting entry cache (.ok graph, below)) {path : Text} (hpath : path ∈ graph.order) :
    path = entry ∨ path ∈ setting.tree.files.map Prod.fst := by
  cases h with
  | visited _ hvisits =>
    rcases hvisits.mem_files hpath with hnone | hentry | hfile
    · exact absurd hnone List.not_mem_nil
    · exact .inl (List.mem_singleton.mp hentry)
    · exact .inr hfile

theorem isNormal_of_mem_files {tree : Tree} (hformed : tree.WellFormed) {path : Text}
    (hpath : path ∈ tree.files.map Prod.fst) : IsNormal path ∧ tree.isFile path = true := by
  have hfile := Tree.mem_files_iff.mp hpath
  have hhas : tree.has path = true := by
    unfold Tree.isFileAt at hfile
    obtain ⟨node, hnode, -⟩ := (Option.any_eq_true _ _).mp hfile
    exact Tree.has_eq_true_iff.mpr ⟨node, hnode⟩
  have hnormal := hformed.grounded.isNormal path hhas
  exact ⟨hnormal, by rw [Tree.isFile_of_isNormal hnormal, hfile]⟩

/-! ## §2. The spelling of the entry -/

theorem isFile_of_selectEntry {tree : Tree} (hformed : tree.WellFormed) {config : Config}
    {wanted? : Option Text} {entry : Text} (hok : selectEntry tree config wanted? = .ok entry) :
    tree.isFile entry = true := by
  unfold selectEntry at hok
  split at hok
  · next path =>
    split at hok
    · next hfile =>
      cases hok
      unfold Tree.isFile at hfile ⊢
      rwa [Path.isNormal_normalize path]
    · cases hok
  · split at hok
    · next candidate hcandidate =>
      cases hok
      exact List.find?_some hcandidate
    · split at hok
      · next path hscript =>
        cases hok
        exact (isNormal_of_mem_files hformed (List.mem_of_find?_eq_some hscript)).2
      · cases hok

/-- Only a candidate can be an entry that is not in normal form. -/
theorem isNormal_of_selectEntry {tree : Tree} (hformed : tree.WellFormed) {config : Config}
    {wanted? : Option Text} {entry : Text} (hok : selectEntry tree config wanted? = .ok entry)
    (hspelled : wanted? = none → ∀ candidate ∈ config.entryCandidates, IsNormal candidate) :
    IsNormal entry := by
  unfold selectEntry at hok
  split at hok
  · next path =>
    split at hok
    · cases hok
      exact Path.isNormal_normalize path
    · cases hok
  · split at hok
    · next candidate hcandidate =>
      cases hok
      exact hspelled rfl _ (List.mem_of_find?_eq_some hcandidate)
    · split at hok
      · next path hscript =>
        cases hok
        exact (isNormal_of_mem_files hformed (List.mem_of_find?_eq_some hscript)).1
      · cases hok

/-! ## §3. The references of a document -/

/-- Publishing files enters a key for each of them, behind those that are there. -/
theorem keys_of_publish {graph : Graph} {paths : List Text} {references published : Table String}
    {registry : Registry} (hnodup : paths.Nodup)
    (hnew : ∀ path ∈ paths, Module.idOf path ∉ references.keys)
    (hok : (publish graph paths (references, registry)).1 = .ok published) :
    published.keys = references.keys ++ paths.map Module.idOf := by
  induction paths generalizing references registry with
  | nil =>
    cases hok
    exact (List.append_nil _).symm
  | cons path paths ih =>
    obtain ⟨hpath, hpaths⟩ := List.nodup_cons.mp hnodup
    rw [publish_cons] at hok
    cases hreference : moduleReference? graph path with
    | none =>
      rw [hreference] at hok
      cases hok
    | some reference =>
      rw [hreference] at hok
      have hkeys := Table.keys_insert_of_notMem (hnew path List.mem_cons_self) reference
      -- the keys of the later files are new still, since different paths have different keys
      have hlater : ∀ other ∈ paths,
          Module.idOf other ∉ (references.insert (Module.idOf path) reference).keys := by
        intro other hother
        rw [hkeys, List.mem_append, List.mem_singleton, not_or]
        refine ⟨hnew other (List.mem_cons_of_mem _ hother), fun heq => hpath ?_⟩
        rwa [← idOf_injective heq]
      rw [ih hpaths hlater hok, hkeys, List.append_assoc, List.map_cons, List.singleton_append]

theorem keys_references_of_documentOf {config : Config} {entry : Text} {revision : Nat} {graph : Graph}
    {registry : Registry} {document : Document} (hnodup : graph.order.Nodup)
    (hok : (documentOf config entry revision graph registry).1 = .ok document) :
    document.entry = entry ∧ document.modules = graph.order ∧
      document.references.keys = graph.order.map Module.idOf := by
  obtain ⟨references, hpublish, hdocument⟩ := Result.bind_eq_ok_iff.mp hok
  unfold documentWith at hdocument
  split at hdocument
  · cases hdocument
    exact ⟨rfl, rfl, keys_of_publish hnodup (fun _ _ => List.not_mem_nil) hpublish⟩
  · cases hdocument

/-! ## §4. Documents -/

/-- The modules are distinct files of a tree with a key each, and none but the entry can be spelled in
another way than in normal form. -/
structure Document.Lists (document : Document) (tree : Tree) : Prop where
  entry_mem : document.entry ∈ document.modules
  nodup : document.modules.Nodup
  isFile : ∀ path ∈ document.modules, tree.isFile path = true
  isNormal : ∀ path ∈ document.modules, path = document.entry ∨ IsNormal path
  keys_eq : document.references.keys = document.modules.map Module.idOf

/-- Each module is a file in normal form, no file is listed twice, and each listed file has one key. -/
structure Document.OneModuleEach (document : Document) : Prop where
  isNormal : ∀ path ∈ document.modules, IsNormal path
  nodup : (document.modules.map Path.normalize).Nodup
  keys_eq : document.references.keys = document.modules.map Module.idOf

variable {document : Document} {tree : Tree}

/-- A file is listed twice only if the entry is not in normal form and its file is listed so, too. -/
theorem Document.Lists.nodup_normalize_iff (h : document.Lists tree) :
    (document.modules.map Path.normalize).Nodup ↔
      (IsNormal document.entry ∨ Path.normalize document.entry ∉ document.modules) := by
  constructor
  · intro hnodup
    by_contra hnot
    rw [not_or, not_not] at hnot
    -- the entry and its normal form are two modules of one file
    exact hnot.1 (List.inj_on_of_nodup_map hnodup hnot.2 h.entry_mem
      (Path.isNormal_normalize document.entry))
  · intro hentry
    refine h.nodup.map_on fun p hp q hq heq => ?_
    have hnormal : ∀ {p q : Text}, IsNormal p → IsNormal q → Path.normalize p = Path.normalize q → p = q :=
      fun hp hq heq => hp.symm.trans (heq.trans hq)
    -- another spelling of a module is that of the entry, whose normal form is not listed
    have hother : ∀ {p : Text}, p ∈ document.modules → IsNormal p →
        Path.normalize document.entry = Path.normalize p → document.entry = p := by
      intro p hp hpnormal heq
      rcases hentry with hentry | hunlisted
      · exact hnormal hentry hpnormal heq
      · rw [heq, show Path.normalize p = p from hpnormal] at hunlisted
        exact absurd hp hunlisted
    rcases h.isNormal p hp with rfl | hpnormal
    · rcases h.isNormal q hq with rfl | hqnormal
      · rfl
      · exact hother hq hqnormal heq
    · rcases h.isNormal q hq with rfl | hqnormal
      · exact (hother hp hpnormal heq.symm).symm
      · exact hnormal hpnormal hqnormal heq

/-- **One file is one module if and only if the entry is in normal form.** -/
theorem Document.Lists.oneModuleEach_iff (h : document.Lists tree) :
    document.OneModuleEach ↔ IsNormal document.entry := by
  constructor
  · intro hone
    exact hone.isNormal _ h.entry_mem
  · intro hentry
    refine ⟨fun path hpath => ?_, h.nodup_normalize_iff.mpr (.inl hentry), h.keys_eq⟩
    rcases h.isNormal path hpath with rfl | hnormal
    · exact hentry
    · exact hnormal

/-- The document of a plan lists the files that the plan has collected. -/
theorem lists_of_buildTree (hformed : setting.tree.WellFormed) {revision stamp : Nat} {registry : Registry}
    {cache : Module.Cache} {wanted? : Option Text}
    (hok : (buildTree setting revision registry cache wanted?).answer = .ok ⟨.ok document, stamp⟩) :
    selectEntry setting.tree setting.config wanted? = .ok document.entry ∧ document.Lists setting.tree := by
  obtain ⟨entry, graph, hplan, hmade⟩ := documentOf_of_buildTree hok
  obtain ⟨hselect, below, hexplores⟩ := explores_of_plan hplan
  obtain ⟨hnodup, hlast⟩ := hexplores.order
  obtain ⟨rfl, hmodules, hkeys⟩ := keys_references_of_documentOf hnodup hmade
  refine ⟨hselect, ?_, ?_, fun path hpath => ?_, fun path hpath => ?_, ?_⟩
  · rw [hmodules]
    exact List.mem_of_getLast? hlast
  · rwa [hmodules]
  · rw [hmodules] at hpath
    rcases hexplores.mem_files hpath with rfl | hfile
    · exact isFile_of_selectEntry hformed hselect
    · exact (isNormal_of_mem_files hformed hfile).2
  · rw [hmodules] at hpath
    exact (hexplores.mem_files hpath).imp_right fun hfile => (isNormal_of_mem_files hformed hfile).1
  · rw [hmodules, hkeys]

/-- A document that is built holds a reference, since its entry has a key. -/
theorem values_ne_nil_of_buildTree (hformed : setting.tree.WellFormed) {revision stamp : Nat}
    {registry : Registry} {cache : Module.Cache} {wanted? : Option Text}
    (hok : (buildTree setting revision registry cache wanted?).answer = .ok ⟨.ok document, stamp⟩) :
    document.references.values ≠ [] := by
  intro hnone
  obtain ⟨-, hlists⟩ := lists_of_buildTree hformed hok
  have hkeys : document.references.keys = [] := by
    rw [Table.keys, List.map_eq_nil_iff]
    exact List.map_eq_nil_iff.mp hnone
  rw [hlists.keys_eq, List.map_eq_nil_iff] at hkeys
  exact List.ne_nil_of_mem hlists.entry_mem hkeys

/-- A build that succeeds lists each path once, with a key each, and none but the entry can be out of
normal form; one file is one module just when the entry is not, and a file is listed twice just when
the entry is and the normal form of its path is listed, too.  The entry is in normal form if it was
asked for, or if all candidates are. -/
theorem oneModuleEach_of_build (parser : Parser) (config : Config) (number : Nat) {project : Project}
    (hformed : project.tree.WellFormed) (registry : Registry) (wanted? : Option Text)
    {document : Document} {stamp : Nat}
    (hok : (build parser config number project registry wanted?).1 = .ok ⟨.ok document, stamp⟩) :
    document.Lists project.tree ∧
    (document.OneModuleEach ↔ IsNormal document.entry) ∧
    ((document.modules.map Path.normalize).Nodup ↔
      (IsNormal document.entry ∨ Path.normalize document.entry ∉ document.modules)) ∧
    ((wanted? = none → ∀ candidate ∈ config.entryCandidates, IsNormal candidate) →
      document.OneModuleEach) := by
  let setting : Setting := ⟨parser, project.tree, config⟩
  have hformed : setting.tree.WellFormed := hformed
  obtain ⟨hselect, hlists⟩ := lists_of_buildTree hformed hok
  refine ⟨hlists, hlists.oneModuleEach_iff, hlists.nodup_normalize_iff, fun hspelled => ?_⟩
  exact hlists.oneModuleEach_iff.mpr (isNormal_of_selectEntry hformed hselect hspelled)

/-- The page of a script that imports a style sheet has a module for each. -/
theorem oneModuleEach_of_build_styled :
    ∃ document, (build (fun _ _ => styledTree) {} 0 styledProject .empty (some "/a.js")).1
        = .ok ⟨.ok document, styledProject.revision⟩ ∧
      document.Lists styledProject.tree ∧ document.OneModuleEach := by
  obtain ⟨document, hbuild⟩ := exists_build_styled
  have hone := oneModuleEach_of_build (fun _ _ => styledTree) {} 0 consistent_styledProject.wellFormed
    .empty (some "/a.js") hbuild
  exact ⟨document, hbuild, hone.1, hone.2.2.2 nofun⟩

/-! ## §5. A script that imports itself -/

/-- The tree of `import './d';`. -/
def returningTree : Syntax.Node :=
  ⟨"program", true, false, 0, 13, none,
    [⟨"import_statement", true, false, 0, 13, none,
      [⟨"import", false, false, 0, 6, none, []⟩,
        ⟨"string", true, false, 7, 12, some "source",
          [⟨"'", false, false, 7, 8, none, []⟩, ⟨"string_fragment", true, false, 8, 11, none, []⟩,
            ⟨"'", false, false, 11, 12, none, []⟩]⟩,
        ⟨";", false, false, 12, 13, none, []⟩]⟩]⟩

theorem lower_returningTree : Lowering.lower (fun _ _ => returningTree) .tsx {} "import './d';"
    = .ok ⟨"import \"./d\";", ["./d"], [⟨7, 12, "./d"⟩], false⟩ := by
  unfold Lowering.lower
  rw [String.contains_char_eq, if_neg (by decide)]
  rfl

/-- The candidate is not in normal form. -/
def returningConfig : Config where
  externals := []
  mountsEntry := false
  entryCandidates := ["d.js"]

def returningActions : List Project.Action :=
  [.edit (.createFile "/d.js" "import './d';")]

/-- A project that consists of a script. -/
def returningProject : Project :=
  (({} : Project).newCache {}).2.run (fun _ _ => returningTree) (({} : Project).newCache {}).1
    returningActions

def returningSetting : Setting :=
  ⟨fun _ _ => returningTree, returningProject.tree, returningConfig⟩

theorem consistent_returningProject : returningProject.Consistent (fun _ _ => returningTree) {} 0 :=
  (Project.consistent_newCache _ {} (.inl rfl : ({} : Project).tree.IsInitial)).run returningActions

/-- The module of the script, whichever way its path is spelled. -/
def returningScript : Module :=
  ⟨"/d.js", .script, "import \"./d\";", ["./d"], [⟨7, 12, "./d"⟩]⟩

theorem freshModule_returning {path : Text} (hpath : Path.normalize path = "/d.js") :
    freshModule returningSetting.parser {} returningSetting.tree path = .ok returningScript := by
  have hread : returningSetting.tree.read path = .ok (.text "import './d';") := by
    unfold Tree.read
    rw [hpath]
    rfl
  have hmodule := freshModule_of_lower hread (by rw [hpath]; rfl) lower_returningTree
  rwa [hpath] at hmodule

/-- The links of the script. -/
def returningLinks : Links :=
  ⟨[], [("./d", "/d.js")]⟩

/-- The graph of the page. -/
def returningGraph : Graph :=
  (((({} : Graph).enter "d.js" returningScript returningLinks).enter "/d.js" returningScript
    returningLinks).complete "/d.js").complete "d.js"

theorem answer_plan_returning :
    (plan returningSetting none).answer {} = .ok ("d.js", returningGraph) := by
  have htexts : returningSetting.tree.HoldsTexts := consistent_returningProject.holdsTexts
  have hselect : selectEntry returningSetting.tree returningSetting.config none = .ok "d.js" := by
    decide +kernel
  have hown : ownExternals returningSetting.config "d.js" = .ok [] := rfl
  have hunreached : (returningSetting.tree.files.map Prod.fst).erase "d.js" = [("/d.js" : Text)] := by
    decide +kernel
  have hfirst : (reach returningSetting { externals := [] } "d.js").answer {}
      = .ok (({} : Graph).enter "d.js" returningScript returningLinks, ["/d.js"]) :=
    (answer_reach_eq_ok_iff htexts).mpr ⟨returningScript, returningLinks,
      freshModule_returning (by decide +kernel), by decide +kernel, by decide +kernel⟩
  have hsecond : (reach returningSetting (({} : Graph).enter "d.js" returningScript returningLinks)
        "/d.js").answer {}
      = .ok ((({} : Graph).enter "d.js" returningScript returningLinks).enter "/d.js" returningScript
          returningLinks, ["/d.js"]) :=
    (answer_reach_eq_ok_iff htexts).mpr ⟨returningScript, returningLinks,
      freshModule_returning (by decide +kernel), by decide +kernel, by decide +kernel⟩
  have hcollect : (collect returningSetting "d.js").answer {} = .ok returningGraph := by
    rw [answer_collect htexts, hown]
    show ((reach returningSetting { externals := [] } "d.js").answer {} >>= _) = _
    rw [hfirst]
    show (search returningSetting ((returningSetting.tree.files.map Prod.fst).erase "d.js")
      [⟨"d.js", ["/d.js"]⟩] _).answer {} = _
    -- the file has been reached, but under another spelling
    rw [hunreached, answer_search_of_mem htexts List.mem_cons_self, hsecond]
    show (search returningSetting [] [⟨"/d.js", ["/d.js"]⟩, ⟨"d.js", []⟩] _).answer {} = _
    rw [search, dif_neg List.not_mem_nil, search, search, search]
    rfl
  rw [answer_plan htexts, hselect]
  show ((collect returningSetting "d.js").answer {}).map _ = _
  rw [hcollect]
  rfl

theorem isSome_linkedCode_returning : ∀ path ∈ returningGraph.order,
    (linkedCode returningGraph path).string?.isSome = true ∧ path.string?.isSome = true := by
  have hcode : ∀ path ∈ returningGraph.order, linkedCode returningGraph path
      = link returningScript.code returningScript.sites [("./d", "/d.js")] := by
    show ∀ path ∈ [("/d.js" : Text), "d.js"], _
    rw [List.forall_mem_cons, List.forall_mem_singleton]
    exact ⟨rfl, rfl⟩
  have hlinked : (link returningScript.code returningScript.sites [("./d", "/d.js")]).string?.isSome
      = true := by
    unfold link backToFront
    rw [show returningScript.sites = [⟨7, 12, "./d"⟩] from rfl, List.mergeSort_singleton]
    decide +kernel
  intro path hpath
  rw [hcode path hpath]
  refine ⟨hlinked, ?_⟩
  revert path
  show ∀ path ∈ [("/d.js" : Text), "d.js"], _
  decide +kernel

/-- A script that is the entry under a second spelling and imports itself is listed twice. -/
theorem modules_build_returning :
    ∃ document, (build (fun _ _ => returningTree) returningConfig 0 returningProject .empty none).1
        = .ok ⟨.ok document, returningProject.revision⟩ ∧
      document.modules = ["/d.js", "d.js"] ∧
      document.references.keys = ["@vfs/d.js", "@vfsd.js"] ∧
      ¬ document.OneModuleEach := by
  have hcache := consistent_returningProject.hasSound.cacheAt
  have htexts : returningSetting.tree.HoldsTexts := consistent_returningProject.holdsTexts
  have hplan := (steady_plan htexts none _ hcache).1.trans answer_plan_returning
  obtain ⟨document, hbuild⟩ := exists_document_of_plan hplan isSome_linkedCode_returning
    (by decide +kernel) returningProject.revision .empty
  obtain ⟨entry, graph, hplan', hmade⟩ := documentOf_of_buildTree hbuild
  rw [hplan] at hplan'
  cases hplan'
  obtain ⟨-, hmodules, hkeys⟩ := keys_references_of_documentOf (by decide +kernel) hmade
  refine ⟨document, hbuild, hmodules, hkeys.trans (by decide +kernel), fun hone => ?_⟩
  have hnormal := hone.isNormal "d.js" (by rw [hmodules]; decide +kernel)
  revert hnormal
  decide +kernel

end LivePreview.Preview
