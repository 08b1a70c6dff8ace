/-
  LivePreview.Proofs.Preview.Linked
  ─────────────────────────────────
  **No import of a built page dangles.**

  Linking exchanges the literals at the sites, and nothing else.  They are replaced from the
  back to the front, each in code whose end has been replaced already.  What stands in front
  of a site is still what it was, so all replacements together are one pass over the code
  from the front (`exchange`):

      code      x x x " . / a " x x " r " x x
                      [- site -)    [--)
      linked    x x x " @ v f s / a " x x " r " x x

  A build that succeeds gives out a reference for every module of its graph
  (`hasReference_of_publish`), and the graph is closed under imports.  So the code behind each
  reference is the module's own with the ids of modules at the sites of local
  specifiers, every such id has a reference, every other specifier is an external, and
  nothing else has changed (`publishes_of_build`).
-/
import LivePreview.Preview.Build
import LivePreview.Proofs.Lowering.Code
import LivePreview.Proofs.Module.Sites
import LivePreview.Proofs.Preview.Incremental
import LivePreview.Proofs.Preview.Search
import Mathlib.Data.List.Pairwise

namespace LivePreview.Preview

open LivePreview.Lowering (Site exchange)

/-- What linking leaves at a site: the literal of the id of the file that the specifier names, or
else what stands there. -/
def linkedAt (target? : Option Text) (code : List CodePoint) (site : Site) : List CodePoint :=
  match target? with
  | some target => (Json.literal (Module.idOf target) : Text).points
  | none => code.extract site.start site.stop

/-! ## §1. One site -/

/-- Linking a site of a code in three parts, of which the second is what stands at the site. -/
theorem linkSite_append (targets : Table Text) {site : Site} {code before literal behind : List CodePoint}
    (hstart : before.length = site.start) (hstop : (before ++ literal).length = site.stop)
    (hliteral : code.extract site.start site.stop = literal) :
    linkSite targets (before ++ literal ++ behind) site
      = before ++ linkedAt (targets.get? site.specifier) code site ++ behind := by
  unfold linkSite linkedAt
  cases targets.get? site.specifier with
  | none =>
    show before ++ literal ++ behind = before ++ code.extract site.start site.stop ++ behind
    rw [hliteral]
  | some target =>
    show splice (before ++ literal ++ behind) site.start site.stop _ = _
    unfold splice
    rw [← hstop, List.drop_left, ← hstart, List.append_assoc before literal, List.take_left]

/-! ## §2. All sites -/

/-- Sites in whatever order come out of the sort as those that follow one another, reversed. -/
theorem backToFront_eq_reverse {sites ordered : List Site} (hperm : ordered.Perm sites)
    (hordered : ordered.Pairwise fun a b => a.start < b.start) : backToFront sites = ordered.reverse := by
  let le : Site → Site → Prop := fun a b => b.start ≤ a.start
  have hsorts : (backToFront sites).Perm ordered.reverse :=
    (List.mergeSort_perm sites _).trans (hperm.symm.trans (List.reverse_perm ordered).symm)
  have hsorted : (backToFront sites).Pairwise le := by
    have hpairwise := @List.pairwise_mergeSort Site (fun a b => decide (b.start ≤ a.start))
      (by
        intro a b c hab hbc
        rw [decide_eq_true_eq] at hab hbc ⊢
        omega)
      (by
        intro a b
        rw [Bool.or_eq_true, decide_eq_true_eq, decide_eq_true_eq]
        omega) sites
    exact hpairwise.imp fun h => of_decide_eq_true h
  have hreverse : ordered.reverse.Pairwise le :=
    List.pairwise_reverse.mpr (hordered.imp fun h => Nat.le_of_lt h)
  -- two sites that start at one place are one site
  have hinjective : ∀ a ∈ ordered, ∀ b ∈ ordered, a.start = b.start → a = b := by
    intro a ha b hb heq
    by_cases hsame : a = b
    · exact hsame
    · have hsymm : Std.Symm fun a b : Site => a.start ≠ b.start := ⟨fun _ _ h => h.symm⟩
      have hdistinct : ordered.Pairwise fun a b => a.start ≠ b.start :=
        hordered.imp fun h => Nat.ne_of_lt h
      exact absurd heq (hdistinct.forall ha hb hsame)
  refine hsorts.eq_of_pairwise (fun a b ha hb hab hba => ?_) hsorted hreverse
  exact hinjective a (List.mem_reverse.mp (hsorts.mem_iff.mp ha)) b (List.mem_reverse.mp hb)
    (Nat.le_antisymm hba hab)

/-- The sites from the last one to the first, behind a front that none of them touches. -/
theorem foldr_linkSite (targets : Table Text) {code : List CodePoint} {sites : List Site}
    (hordered : sites.Pairwise fun a b => a.stop ≤ b.start) {front rest : List CodePoint}
    (hcode : front ++ rest = code)
    (hbounds : ∀ site ∈ sites,
      front.length ≤ site.start ∧ site.start < site.stop ∧ site.stop ≤ code.length) :
    sites.foldr (fun site linked => linkSite targets linked site) code
      = front ++ exchange (fun site => linkedAt (targets.get? site.specifier) code site)
          front.length sites rest := by
  induction sites generalizing front rest with
  | nil => exact hcode.symm
  | cons site sites ih =>
    obtain ⟨hfront, hsites⟩ := List.pairwise_cons.mp hordered
    obtain ⟨hstart, hlt, hstop⟩ := hbounds site List.mem_cons_self
    have hlength : front.length + rest.length = code.length := by
      rw [← hcode, List.length_append]
    -- the front up to the site, and the site itself
    let before := front ++ rest.take (site.start - front.length)
    let literal := code.extract site.start site.stop
    have hbefore : before.length = site.start := by
      show (front ++ rest.take (site.start - front.length)).length = site.start
      rw [List.length_append, List.length_take]
      omega
    have hcut : front ++ rest.take (site.stop - front.length) = before ++ literal := by
      show _ = front ++ rest.take (site.start - front.length) ++ code.extract site.start site.stop
      have hsplit : site.stop - front.length
          = (site.start - front.length) + (site.stop - site.start) := by omega
      have hdrop : code.drop site.start = rest.drop (site.start - front.length) := by
        rw [← hcode, List.drop_append, List.drop_eq_nil_of_le hstart, List.nil_append]
      rw [List.extract_eq_take_drop, hdrop, hsplit, List.take_add, List.append_assoc]
    have hend : (before ++ literal).length = site.stop := by
      rw [← hcut, List.length_append, List.length_take]
      omega
    have hrest : before ++ literal ++ rest.drop (site.stop - front.length) = code := by
      rw [← hcut, List.append_assoc, List.take_append_drop, hcode]
    have hlater : ∀ later ∈ sites, (before ++ literal).length ≤ later.start
        ∧ later.start < later.stop ∧ later.stop ≤ code.length := by
      intro later hmem
      have := hbounds later (List.mem_cons_of_mem _ hmem)
      have := hfront later hmem
      omega
    rw [List.foldr_cons, ih hsites hrest hlater, linkSite_append targets hbefore hend rfl, exchange,
      hend]
    show front ++ rest.take (site.start - front.length) ++ _ ++ _ = _
    simp only [List.append_assoc]

/-- **Linking exchanges what stands at the sites, from the front to the back,** in whatever order the
sites are listed. -/
theorem points_link {code : Text} {sites ordered : List Site} (hperm : ordered.Perm sites)
    (hordered : ordered.Pairwise fun a b => a.stop ≤ b.start)
    (hbounds : ∀ site ∈ ordered, site.start < site.stop ∧ site.stop ≤ code.points.length)
    (targets : Table Text) :
    (link code sites targets).points
      = exchange (fun site => linkedAt (targets.get? site.specifier) code.points site) 0 ordered
          code.points := by
  have hstarts : ordered.Pairwise fun a b => a.start < b.start := by
    apply hordered.imp_of_mem
    intro a b ha hb hab
    exact Nat.lt_of_lt_of_le (hbounds a ha).1 hab
  show (backToFront sites).foldl (linkSite targets) code.points = _
  rw [backToFront_eq_reverse hperm hstarts, List.foldl_reverse]
  exact foldr_linkSite targets hordered (List.nil_append _) fun site hsite =>
    ⟨Nat.zero_le _, hbounds site hsite⟩

end LivePreview.Preview

namespace LivePreview.Preview

open LivePreview.Lowering (Options Parser exchange)
open LivePreview.Module (Registry)
open LivePreview.Path.Specifier (isLocal)

/-! ## §3. Published references -/

/-- Different files have different ids. -/
theorem idOf_injective {p q : Text} (h : Module.idOf p = Module.idOf q) : p = q := by
  have hpoints : (Module.idStart : Text).points ++ p.points = (Module.idStart : Text).points ++ q.points :=
    congrArg Text.points h
  exact Text.ext (List.append_cancel_left hpoints)

/-- A table holds the reference to the linked code of a file, under the id of its module. -/
def HasReference (graph : Graph) (references : Table String) (path : Text) : Prop :=
  ∃ code name, (linkedCode graph path).string? = some code ∧ path.string? = some name
    ∧ references.get? (Module.idOf path) = some (Module.referenceOf code (some name))

/-- Publishing enters the references of the given files and leaves the others alone. -/
theorem hasReference_of_publish {graph : Graph} {paths : List Text} {references published : Table String}
    {registry : Registry} (hok : (publish graph paths (references, registry)).1 = .ok published) :
    (∀ path ∈ paths, HasReference graph published path)
      ∧ ∀ path, path ∉ paths →
        published.get? (Module.idOf path) = references.get? (Module.idOf path) := by
  induction paths generalizing references registry with
  | nil =>
    cases hok
    exact ⟨fun path hpath => absurd hpath List.not_mem_nil, fun path _ => rfl⟩
  | cons first paths ih =>
    unfold publish at hok
    split at hok
    · next code name hcode hname =>
      obtain ⟨hreferences, hothers⟩ := ih hok
      refine ⟨fun path hpath => ?_, fun path hpath => ?_⟩
      · by_cases hlater : path ∈ paths
        · exact hreferences path hlater
        · -- nothing that is published later has the id of this file
          obtain rfl : path = first := (List.mem_cons.mp hpath).resolve_right hlater
          refine ⟨code, name, hcode, hname, ?_⟩
          rw [hothers path hlater]
          exact Table.get?_insert_self _ _ _
      · rw [List.mem_cons, not_or] at hpath
        obtain ⟨hne, hlater⟩ := hpath
        rw [hothers path hlater, Table.get?_insert, if_neg fun heq => hne (idOf_injective heq)]
    · cases hok

/-! ## §4. Documents -/

/-- What a document tells of a graph. -/
structure Document.Of (graph : Graph) (document : Document) : Prop where
  modules_eq : document.modules = graph.order
  externals_eq : document.externals = graph.externals
  hasReference : ∀ path ∈ graph.order, HasReference graph document.references path

theorem of_documentOf {config : Config} {entry : Text} {revision : Nat} {graph : Graph}
    {registry : Registry} {document : Document}
    (hok : (documentOf config entry revision graph registry).1 = .ok document) :
    document.Of graph := by
  unfold documentOf at hok
  obtain ⟨references, hpublish, hdocument⟩ := Result.bind_eq_ok_iff.mp hok
  unfold documentWith at hdocument
  split at hdocument
  · cases hdocument
    exact ⟨rfl, rfl, (hasReference_of_publish hpublish).1⟩
  · cases hdocument

/-- A build that succeeds has made the document of its plan. -/
theorem documentOf_of_buildTree {setting : Setting} {revision stamp : Nat} {registry : Registry}
    {cache : Module.Cache} {wanted? : Option Text} {document : Document}
    (hok : (buildTree setting revision registry cache wanted?).answer = .ok ⟨.ok document, stamp⟩) :
    ∃ entry graph, ((plan setting wanted?).start cache).1 = .ok (entry, graph)
      ∧ (documentOf setting.config entry revision graph registry).1 = .ok document := by
  rw [answer_buildTree] at hok
  rcases hplan : ((plan setting wanted?).start cache).1 with (error | breakdown) | ⟨entry, graph⟩
  · rw [hplan] at hok
    cases hok
  · rw [hplan] at hok
    cases hok
  · rw [hplan] at hok
    obtain ⟨made, hmade, hresult⟩ := Result.map_eq_ok_iff.mp hok
    cases hresult
    exact ⟨entry, graph, rfl, hmade⟩

theorem plan_of_buildTree {setting : Setting} {revision stamp : Nat} {registry : Registry}
    {cache : Module.Cache} {wanted? : Option Text} {document : Document}
    (hok : (buildTree setting revision registry cache wanted?).answer = .ok ⟨.ok document, stamp⟩) :
    ∃ entry graph, ((plan setting wanted?).start cache).1 = .ok (entry, graph)
      ∧ document.Of graph := by
  obtain ⟨entry, graph, hplan, hmade⟩ := documentOf_of_buildTree hok
  exact ⟨entry, graph, hplan, of_documentOf hmade⟩

/-! ## §5. Linked modules -/

/-- The code of a module of a file with the ids of modules at the sites of the specifiers that name
files, and everything else as it is. -/
def relinked (tree : Tree) (path : Text) (found : Module) : Text :=
  ⟨exchange (fun site => linkedAt (tree.resolveImport? path site.specifier) found.code.points site) 0
    found.sites found.code.points⟩

/-- A document publishes the module of a file so that none of its imports dangles. -/
structure Document.Publishes (document : Document) (tree : Tree) (path : Text) (found : Module) : Prop where
  /-- The literals of the specifiers stand at the sites, one behind the other. -/
  sitesExact : found.SitesExact
  /-- The reference to the relinked code is given out under the id of the module. -/
  reference : ∃ code name, (relinked tree path found).string? = some code ∧ path.string? = some name
    ∧ document.references.get? (Module.idOf path) = some (Module.referenceOf code (some name))
  /-- A local specifier names a file, for whose module there is a reference. -/
  localSite : ∀ site ∈ found.sites, isLocal site.specifier = true →
    ∃ target, tree.resolveImport? path site.specifier = some target
      ∧ Module.idOf target ∈ document.references.keys
  /-- Any other specifier names no file, and is an external. -/
  bareSite : ∀ site ∈ found.sites, isLocal site.specifier = false →
    tree.resolveImport? path site.specifier = none ∧ site.specifier ∈ document.externals.keys

section Publishes

variable {options : Options} {setting : Setting} {graph : Graph} {document : Document}

/-- The linked code of a file that a graph holds. -/
theorem linkedCode_eq_relinked {path : Text} {found : Module}
    (hheld : graph.Holds options setting path found) (hsites : found.SitesExact) :
    linkedCode graph path = relinked setting.tree path found := by
  unfold linkedCode
  rw [hheld.modules_get?]
  apply Text.ext
  show (link found.code found.sites ((graph.targets.get? path).getD [])).points = _
  rw [points_link (.refl _) hsites.ordered hsites.bounds]
  apply Lowering.exchange_congr
  intro site hsite
  rw [hheld.target_eq site.specifier (hsites.mem_imports site hsite)]

/-- The document of a closed graph publishes each of its modules with all imports linked. -/
theorem publishes_of_closed (htexts : setting.tree.HoldsTexts) (hclosed : graph.Closed options setting)
    (hdocument : document.Of graph) {path : Text} (hpath : path ∈ document.modules) :
    ∃ found, freshModule setting.parser options setting.tree path = .ok found
      ∧ document.Publishes setting.tree path found := by
  rw [hdocument.modules_eq] at hpath
  obtain ⟨found, hheld⟩ := hclosed.holds path hpath
  have hsites : found.SitesExact :=
    (Module.Cache.sound_new setting.parser options).sitesExact htexts hheld.freshModule_eq
  refine ⟨found, hheld.freshModule_eq, hsites, ?_, fun site hsite hlocal => ?_,
    fun site hsite hbare => ?_⟩
  · obtain ⟨code, name, hcode, hname, hget⟩ := hdocument.hasReference path hpath
    rw [linkedCode_eq_relinked hheld hsites] at hcode
    exact ⟨code, name, hcode, hname, hget⟩
  · have hmem := hsites.mem_imports site hsite
    obtain ⟨target, htarget⟩ := Option.isSome_iff_exists.mp (hheld.isSome_of_isLocal _ hmem hlocal)
    -- the file that is imported is complete, so its module has been published
    have horder := hclosed.mem_order path hpath target
      ⟨found, site.specifier, hheld.freshModule_eq, hmem, htarget⟩
    obtain ⟨_, _, -, -, hget⟩ := hdocument.hasReference target horder
    exact ⟨target, htarget, Table.mem_keys_of_get? hget⟩
  · have hmem := hsites.mem_imports site hsite
    rw [hdocument.externals_eq]
    exact ⟨setting.tree.resolveImport?_of_isLocal_eq_false path hbare,
      hheld.mem_externals _ hmem hbare⟩

end Publishes

/-! ## §6. Builds that succeed -/

/-- Publishing succeeds if all codes and paths can be encoded. -/
theorem exists_publish_eq_ok {graph : Graph} {paths : List Text}
    (h : ∀ path ∈ paths, (linkedCode graph path).string?.isSome = true ∧ path.string?.isSome = true)
    (references : Table String) (registry : Registry) :
    ∃ published, (publish graph paths (references, registry)).1 = .ok published := by
  induction paths generalizing references registry with
  | nil => exact ⟨references, rfl⟩
  | cons path paths ih =>
    obtain ⟨hcode, hname⟩ := h path List.mem_cons_self
    obtain ⟨code, hcode⟩ := Option.isSome_iff_exists.mp hcode
    obtain ⟨name, hname⟩ := Option.isSome_iff_exists.mp hname
    unfold publish
    rw [hcode, hname]
    exact ih (fun q hq => h q (List.mem_cons_of_mem _ hq)) _ _

/-- A build succeeds if it has a plan, the codes of its modules can be encoded, and the hosts of its
externals are valid. -/
theorem exists_document_of_plan {setting : Setting} {cache : Module.Cache} {wanted? : Option Text}
    {entry : Text} {graph : Graph} (hplan : ((plan setting wanted?).start cache).1 = .ok (entry, graph))
    (hcodes : ∀ path ∈ graph.order,
      (linkedCode graph path).string?.isSome = true ∧ path.string?.isSome = true)
    (hpolicy : (contentSecurityPolicy graph.externals.values).isOk = true) (revision : Nat)
    (registry : Registry) :
    ∃ document, (buildTree setting revision registry cache wanted?).answer
      = .ok ⟨.ok document, revision⟩ := by
  obtain ⟨published, hpublish⟩ := exists_publish_eq_ok hcodes [] registry
  rw [answer_buildTree, hplan]
  unfold conclude documentOf
  dsimp only
  rw [hpublish]
  show ∃ document, ((documentWith setting.config entry revision graph published).map _) = _
  unfold documentWith page
  cases hok : contentSecurityPolicy graph.externals.values with
  | error fault =>
    rw [hok] at hpolicy
    cases hpolicy
  | ok policy => exact ⟨_, rfl⟩

/-! ## §7. A script with a style sheet -/

/-- The tree of `import './b.css';`. -/
def styledTree : Syntax.Node :=
  ⟨"program", true, false, 0, 17, none,
    [⟨"import_statement", true, false, 0, 17, none,
      [⟨"import", false, false, 0, 6, none, []⟩,
        ⟨"string", true, false, 7, 16, some "source",
          [⟨"'", false, false, 7, 8, none, []⟩, ⟨"string_fragment", true, false, 8, 15, none, []⟩,
            ⟨"'", false, false, 15, 16, none, []⟩]⟩,
        ⟨";", false, false, 16, 17, none, []⟩]⟩]⟩

theorem lower_styledTree : Lowering.lower (fun _ _ => styledTree) .tsx {} "import './b.css';"
    = .ok ⟨"import \"./b.css\";", ["./b.css"], [⟨7, 16, "./b.css"⟩], false⟩ := by
  unfold Lowering.lower
  rw [String.contains_char_eq, if_neg (by decide)]
  rfl

/-- A script is made that imports a style sheet, and then the style sheet. -/
def styledActions : List Project.Action :=
  [.edit (.createFile "/a.js" "import './b.css';"), .edit (.createFile "/b.css" "p {}")]

def styledProject : Project :=
  (({} : Project).newCache {}).2.run (fun _ _ => styledTree) (({} : Project).newCache {}).1
    styledActions

def styledSetting : Setting :=
  ⟨fun _ _ => styledTree, styledProject.tree, {}⟩

theorem consistent_styledProject : styledProject.Consistent (fun _ _ => styledTree) {} 0 :=
  (Project.consistent_newCache _ {} (.inl rfl : ({} : Project).tree.IsInitial)).run styledActions

/-- The module of the script. -/
def styledScript : Module :=
  ⟨"/a.js", .script, "import \"./b.css\";", ["./b.css"], [⟨7, 16, "./b.css"⟩]⟩

/-- The module of the style sheet. -/
def styledSheet : Module :=
  ⟨"/b.css", .style, Module.styleCode "/b.css" (.text "p {}"), [], []⟩

theorem freshModule_styledScript :
    freshModule styledSetting.parser {} styledSetting.tree "/a.js" = .ok styledScript :=
  freshModule_of_lower rfl rfl lower_styledTree

theorem freshModule_styledSheet :
    freshModule styledSetting.parser {} styledSetting.tree "/b.css" = .ok styledSheet := rfl

/-- What the page needs to render its entry. -/
def styledExternals : Table Text :=
  [("react", "https://esm.sh/react@18.3.1"),
    ("react-dom/client", "https://esm.sh/react-dom@18.3.1/client?deps=react@18.3.1")]

/-- The graph when the script has been reached. -/
def styledStart : Graph :=
  ({ externals := styledExternals } : Graph).enter "/a.js" styledScript
    ⟨styledExternals, [("./b.css", "/b.css")]⟩

/-- The graph of the page. -/
def styledGraph : Graph :=
  ((styledStart.enter "/b.css" styledSheet ⟨styledExternals, []⟩).complete "/b.css").complete "/a.js"

theorem answer_collect_styled :
    (collect styledSetting "/a.js").answer {} = .ok styledGraph := by
  have htexts : styledSetting.tree.HoldsTexts := consistent_styledProject.holdsTexts
  have hown : ownExternals styledSetting.config "/a.js" = .ok styledExternals := by decide +kernel
  have hunreached : (styledSetting.tree.files.map Prod.fst).erase "/a.js" = [("/b.css" : Text)] := by
    decide +kernel
  have hscript : (reach styledSetting { externals := styledExternals } "/a.js").answer {}
      = .ok (styledStart, ["/b.css"]) :=
    (answer_reach_eq_ok_iff htexts).mpr ⟨styledScript, ⟨styledExternals, [("./b.css", "/b.css")]⟩,
      freshModule_styledScript, by decide +kernel, by decide +kernel⟩
  have hsheet : (reach styledSetting styledStart "/b.css").answer {}
      = .ok (styledStart.enter "/b.css" styledSheet ⟨styledExternals, []⟩, []) :=
    (answer_reach_eq_ok_iff htexts).mpr ⟨styledSheet, ⟨styledExternals, []⟩,
      freshModule_styledSheet, by decide +kernel, by decide +kernel⟩
  rw [answer_collect htexts, hown]
  show ((reach styledSetting { externals := styledExternals } "/a.js").answer {} >>= _) = _
  rw [hscript]
  show (search styledSetting ((styledSetting.tree.files.map Prod.fst).erase "/a.js")
    [⟨"/a.js", ["/b.css"]⟩] styledStart).answer {} = _
  rw [hunreached, answer_search_of_mem htexts List.mem_cons_self, hsheet]
  show (search styledSetting [] [⟨"/b.css", []⟩, ⟨"/a.js", []⟩] _).answer {} = _
  rw [search, search, search]
  rfl

theorem answer_plan_styled :
    (plan styledSetting (some "/a.js")).answer {} = .ok ("/a.js", styledGraph) := by
  have htexts : styledSetting.tree.HoldsTexts := consistent_styledProject.holdsTexts
  have hselect : selectEntry styledSetting.tree styledSetting.config (some "/a.js") = .ok "/a.js" := by
    decide +kernel
  rw [answer_plan htexts, hselect]
  show ((collect styledSetting "/a.js").answer {}).map _ = _
  rw [answer_collect_styled]
  rfl

theorem isSome_linkedCode_styled : ∀ path ∈ styledGraph.order,
    (linkedCode styledGraph path).string?.isSome = true ∧ path.string?.isSome = true := by
  have hscript : linkedCode styledGraph "/a.js"
      = link styledScript.code styledScript.sites [("./b.css", "/b.css")] := rfl
  have hsheet : linkedCode styledGraph "/b.css" = link styledSheet.code [] [] := rfl
  show ∀ path ∈ [("/b.css" : Text), "/a.js"], _
  rw [List.forall_mem_cons, List.forall_mem_singleton, hscript, hsheet]
  unfold link backToFront
  rw [List.mergeSort_nil, show styledScript.sites = [⟨7, 16, "./b.css"⟩] from rfl,
    List.mergeSort_singleton]
  decide +kernel

/-- The page of the script is built, with the style sheet linked to it. -/
theorem exists_build_styled :
    ∃ document, (build (fun _ _ => styledTree) {} 0 styledProject .empty (some "/a.js")).1
      = .ok ⟨.ok document, styledProject.revision⟩ := by
  have hcache := consistent_styledProject.hasSound.cacheAt
  have htexts : styledSetting.tree.HoldsTexts := consistent_styledProject.holdsTexts
  have hplan := (steady_plan htexts (some "/a.js") _ hcache).1.trans answer_plan_styled
  exact exists_document_of_plan hplan isSome_linkedCode_styled (by decide +kernel)
    styledProject.revision .empty

/-! ## §8. Behind every run -/

/-- Behind every run of edits, requests, invalidations and builds: if a build succeeds, then every
module of its document is published with all its imports linked; and if the page renders its entry,
then what it needs for that is among the externals. -/
theorem publishes_of_build (parser : Parser) (options : Options) {start : Project}
    (hstart : start.tree.IsInitial) (actions : List Project.Action) (config : Config)
    (registry : Registry) (wanted? : Option Text) {document : Document} {stamp : Nat} :
    let number := (start.newCache options).1
    let project := (start.newCache options).2.run parser number actions
    (build parser config number project registry wanted?).1 = .ok ⟨.ok document, stamp⟩ →
      (∀ path ∈ document.modules, ∃ found, (project.moduleAt parser number path).1 = .ok found
        ∧ document.Publishes project.tree path found)
      ∧ (config.mountsEntry = true →
        ("react" : Text) ∈ document.externals.keys ∧ ("react-dom/client" : Text) ∈ document.externals.keys) := by
  intro number project hok
  have hproject : project.Consistent parser options number :=
    (Project.consistent_newCache parser options hstart).run actions
  let setting : Setting := ⟨parser, project.tree, config⟩
  have htexts : setting.tree.HoldsTexts := hproject.holdsTexts
  have hcache : (project.cacheAt number).Sound setting.parser options := hproject.hasSound.cacheAt
  obtain ⟨entry, graph, hplan, hdocument⟩ :=
    @plan_of_buildTree setting project.revision stamp registry (project.cacheAt number) wanted? document hok
  -- the plan is the one of a new cache, and for that one the search is known to be complete
  rw [(steady_plan htexts wanted? _ hcache).1] at hplan
  have hclosed := closed_of_plan htexts hplan
  refine ⟨fun path hpath => ?_, fun hmounts => ?_⟩
  · -- the module is the one that the cache answers, too
    obtain ⟨found, hfresh, hpublishes⟩ := publishes_of_closed htexts hclosed hdocument hpath
    refine ⟨found, ?_, hpublishes⟩
    exact (hcache.moduleAt htexts path).1.trans hfresh
  · have hrequired := hclosed.required
    unfold requiredExternals at hrequired
    rw [if_pos hmounts] at hrequired
    rw [hdocument.externals_eq]
    exact ⟨hrequired (by decide), hrequired (by decide)⟩

/-- The page of a script is built, with the style sheet that the script imports. -/
theorem publishes_of_build_styled :
    ∃ document, (build (fun _ _ => styledTree) {} 0 styledProject .empty (some "/a.js")).1
        = .ok ⟨.ok document, styledProject.revision⟩ ∧
      (∀ path ∈ document.modules, ∃ found,
        (styledProject.moduleAt (fun _ _ => styledTree) 0 path).1 = .ok found
          ∧ document.Publishes styledProject.tree path found) ∧
      (({} : Config).mountsEntry = true →
        ("react" : Text) ∈ document.externals.keys
          ∧ ("react-dom/client" : Text) ∈ document.externals.keys) := by
  obtain ⟨document, hbuild⟩ := exists_build_styled
  exact ⟨document, hbuild, publishes_of_build (fun _ _ => styledTree) {}
    (.inl rfl : ({} : Project).tree.IsInitial) styledActions {} .empty (some "/a.js") hbuild⟩

end LivePreview.Preview
