/-
  LivePreview.Proofs.Preview.Order
  ────────────────────────────────
  **The modules of a page stand behind what they need.**

  Whenever files are visited, every file that has been reached and is not complete
  leads to them (`Graph.LeadsTo`): it lies on the stack of the recursive search.  So a
  file that is completed stands behind each file that it imports, unless that one is
  not complete itself and therefore leads back to it (`Graph.Follows`); visiting files
  keeps this, step by step (`follows_of_visits`).

  From the entry on nothing is left incomplete.  So the modules of a document are the
  files that the entry reaches, each once and the entry last, and each stands behind
  those of its imports that do not lead back to it (`build_depthFirst`).
-/
import LivePreview.Proofs.Preview.DepthFirst
import LivePreview.Proofs.Preview.Linked
import Mathlib.Logic.Relation

namespace LivePreview.Preview

open LivePreview.Lowering (Options Parser)
open LivePreview.Module (Registry)

variable {options : Options} {setting : Setting} {graph between after : Graph} {path : Text}
  {targets : List Text}

/-! ## §1. Files that are reached -/

/-- A file leads to another one by imports, to itself by none. -/
abbrev Reaches (options : Options) (setting : Setting) : Text → Text → Prop :=
  Relation.ReflTransGen (Imports options setting)

/-- What a file imports is what its imports are resolved to. -/
theorem mem_files_iff_imports {found : Module} {links : Links} {externals : Table Text}
    (hfresh : freshModule setting.parser options setting.tree path = .ok found)
    (hlinks : linksOf setting.tree setting.config path externals found.imports = .ok links)
    {target : Text} : target ∈ links.files ↔ Imports options setting path target := by
  have hcover := (cover_linksOf hlinks).1
  unfold Links.files
  rw [List.mem_eraseDups]
  constructor
  · intro hmem
    obtain ⟨specifier, hspecifier, hresolve⟩ := hcover.exists_of_mem_values target hmem
    exact ⟨found, specifier, hfresh, hspecifier, hresolve⟩
  · rintro ⟨made, specifier, hmade, hspecifier, hresolve⟩
    cases hfresh.symm.trans hmade
    have hget := hcover.target_eq specifier
    rw [if_pos hspecifier, hresolve] at hget
    exact Table.mem_values_of_get? hget

/-- Every file that has been reached and is not complete leads to all targets. -/
def Graph.LeadsTo (options : Options) (setting : Setting) (graph : Graph) (targets : List Text) : Prop :=
  ∀ path ∈ graph.modules.keys, path ∉ graph.order →
    ∀ target ∈ targets, Reaches options setting path target

/-- At the start no file has been reached. -/
theorem Graph.leadsTo_start (externals : Table Text) (targets : List Text) :
    ({ externals } : Graph).LeadsTo options setting targets := by
  intro path hpath
  exact absurd hpath List.not_mem_nil

/-- A file that is reached leads to what it imports, and so does what leads to it. -/
theorem Graph.LeadsTo.enter (h : graph.LeadsTo options setting (path :: targets)) {found : Module}
    {links : Links} {externals : Table Text}
    (hfresh : freshModule setting.parser options setting.tree path = .ok found)
    (hlinks : linksOf setting.tree setting.config path externals found.imports = .ok links) :
    (graph.enter path found links).LeadsTo options setting links.files := by
  intro other hother hopen target htarget
  have himports := (mem_files_iff_imports hfresh hlinks).mp htarget
  rcases Table.mem_keys_insert.mp hother with rfl | hother
  · exact .single himports
  · exact (h other hother hopen path List.mem_cons_self).tail himports

/-- What is added is complete, so that it does not count among what leads to the targets. -/
theorem Graph.LeadsTo.grow (h : graph.LeadsTo options setting (path :: targets)) {added : List Text}
    (hgrows : graph.GrowsBy between added) : between.LeadsTo options setting targets := by
  intro other hother hopen target htarget
  rw [hgrows.order_eq, List.mem_append, not_or] at hopen
  have hold := ((hgrows.mem_keys_iff other).mp hother).resolve_right hopen.2
  exact h other hold hopen.1 target (List.mem_cons_of_mem _ htarget)

/-! ## §2. What visiting files preserves -/

/-- A graph has grown by files that the targets lead to, each of them behind those of its imports
that do not lead back to it; the targets have been reached. -/
structure Graph.Follows (options : Options) (setting : Setting) (targets : List Text)
    (graph after : Graph) (added : List Text) : Prop extends graph.GrowsBy after added where
  mem_keys : ∀ target ∈ targets, target ∈ after.modules.keys
  exists_reaches : ∀ path ∈ added, ∃ target ∈ targets, Reaches options setting target path
  sorted : ∀ path ∈ added, ∀ target, Imports options setting path target →
    ¬ Reaches options setting target path → [target, path].Sublist after.order

theorem Graph.follows_nil (graph : Graph) : graph.Follows options setting [] graph [] :=
  ⟨graph.growsBy_nil, nofun, nofun, nofun⟩

/-- A file that has been reached before need not be visited. -/
theorem Graph.Follows.known {added : List Text} (h : graph.Follows options setting targets after added)
    (hknown : path ∈ graph.modules.keys) :
    graph.Follows options setting (path :: targets) after added := by
  refine ⟨h.toGrowsBy, ?_, fun other hother => ?_, h.sorted⟩
  · rw [List.forall_mem_cons]
    exact ⟨(h.mem_keys_iff path).mpr (.inl hknown), h.mem_keys⟩
  · obtain ⟨target, htarget, hreaches⟩ := h.exists_reaches other hother
    exact ⟨target, List.mem_cons_of_mem _ htarget, hreaches⟩

/-- A file is complete when its imports have been visited. -/
theorem Graph.Follows.complete {beneath : Graph} {found : Module} {links : Links}
    {externals : Table Text} {added : List Text}
    (h : (graph.enter path found links).Follows options setting links.files beneath added)
    (hfresh : freshModule setting.parser options setting.tree path = .ok found)
    (hlinks : linksOf setting.tree setting.config path externals found.imports = .ok links)
    (hnew : path ∉ graph.modules.keys) (hleads : graph.LeadsTo options setting (path :: targets)) :
    graph.Follows options setting [path] (beneath.complete path) (added ++ [path]) := by
  have hcomplete := h.toGrowsBy.complete hnew
  have hmem : ∀ target, target ∈ links.files ↔ Imports options setting path target :=
    fun target => mem_files_iff_imports hfresh hlinks
  have horder : (beneath.complete path).order = beneath.order ++ [path] := rfl
  refine ⟨hcomplete, ?_, fun other hother => ?_, fun other hother target himports hapart => ?_⟩
  · rw [List.forall_mem_singleton]
    exact (hcomplete.mem_keys_iff path).mpr (.inr (List.mem_append_right _ List.mem_cons_self))
  · refine ⟨path, List.mem_cons_self, ?_⟩
    rcases List.mem_append.mp hother with hother | hother
    · obtain ⟨target, htarget, hreaches⟩ := h.exists_reaches other hother
      exact .head ((hmem target).mp htarget) hreaches
    · rw [List.mem_singleton.mp hother]
  · rw [horder]
    rcases List.mem_append.mp hother with hother | hother
    · exact (h.sorted other hother target himports hapart).trans (List.sublist_append_left _ _)
    · rw [List.mem_singleton] at hother
      subst hother
      -- an import of the file itself has been visited; it is complete, as it does not lead back
      have hbehind : target ∈ beneath.order := by
        by_contra hopen
        have hkeys := h.mem_keys target ((hmem target).mpr himports)
        rw [h.order_eq, List.mem_append, not_or] at hopen
        rcases Table.mem_keys_insert.mp (((h.mem_keys_iff target).mp hkeys).resolve_right hopen.2)
          with rfl | hold
        · exact hapart .refl
        · exact hapart (hleads target hold hopen.1 _ List.mem_cons_self)
      exact (List.singleton_sublist.mpr hbehind).append (.refl [_])

/-- A file has been visited, and then the others. -/
theorem Graph.Follows.append {first second : List Text}
    (h : graph.Follows options setting [path] between first)
    (h' : between.Follows options setting targets after second) :
    graph.Follows options setting (path :: targets) after (first ++ second) := by
  refine ⟨h.toGrowsBy.append h'.toGrowsBy, ?_, fun other hother => ?_,
    fun other hother target himports hapart => ?_⟩
  · rw [List.forall_mem_cons]
    exact ⟨(h'.mem_keys_iff path).mpr (.inl (h.mem_keys path List.mem_cons_self)), h'.mem_keys⟩
  · rcases List.mem_append.mp hother with hother | hother
    · obtain ⟨target, htarget, hreaches⟩ := h.exists_reaches other hother
      exact ⟨target, List.mem_cons.mpr (.inl (List.mem_singleton.mp htarget)), hreaches⟩
    · obtain ⟨target, htarget, hreaches⟩ := h'.exists_reaches other hother
      exact ⟨target, List.mem_cons_of_mem _ htarget, hreaches⟩
  · rcases List.mem_append.mp hother with hother | hother
    · rw [h'.order_eq]
      exact (h.sorted other hother target himports hapart).trans (List.sublist_append_left _ _)
    · exact h'.sorted other hother target himports hapart

/-- **Visiting files completes those that they lead to, each behind those of its imports that do not
lead back to it.** -/
theorem follows_of_visits (htexts : setting.tree.HoldsTexts) {cache below : Module.Cache}
    (hcache : cache.Sound setting.parser options)
    (h : Visits setting targets graph cache (.ok after, below))
    (hleads : graph.LeadsTo options setting targets) :
    (∃ added, graph.Follows options setting targets after added) ∧ below.Sound setting.parser options := by
  generalize houtcome : ((.ok after, below) : Except Stop Graph × Module.Cache) = outcome at h
  -- induction on the search; the cache has to stay sound, since a module may be taken from it
  induction h generalizing after below with
  | done graph cache =>
    cases houtcome
    exact ⟨⟨[], graph.follows_nil⟩, hcache⟩
  | known hknown _ ih =>
    obtain ⟨⟨added, hadded⟩, hbelow⟩ :=
      ih hcache (fun path hpath hopen target htarget =>
        hleads path hpath hopen target (List.mem_cons_of_mem _ htarget)) houtcome
    exact ⟨⟨added, hadded.known hknown⟩, hbelow⟩
  | unreached _ _ => cases houtcome
  | stopped _ _ _ _ => cases houtcome
  | followed hnew hreach _ _ ihbeneath ihrest =>
    obtain ⟨hanswer, hbetween⟩ := steady_reach htexts _ _ _ hcache
    rw [hreach] at hanswer hbetween
    obtain ⟨found, links, hfresh, hlinks, heq⟩ := (answer_reach_eq_ok_iff htexts).mp hanswer.symm
    cases heq
    obtain ⟨⟨first, hfirst⟩, hmiddle⟩ := ihbeneath hbetween (hleads.enter hfresh hlinks) rfl
    have hcomplete := hfirst.complete hfresh hlinks hnew hleads
    obtain ⟨⟨second, hsecond⟩, hbelow⟩ := ihrest hmiddle (hleads.grow hcomplete.toGrowsBy) houtcome
    exact ⟨⟨_, hcomplete.append hsecond⟩, hbelow⟩

/-! ## §3. The order from an entry -/

/-- Files are listed in the order of a depth-first search from an entry. -/
structure DependencyOrder (options : Options) (setting : Setting) (entry : Text) (files : List Text) :
    Prop where
  nodup : files.Nodup
  /-- The files are those that the entry leads to. -/
  mem_iff : ∀ path, path ∈ files ↔ Reaches options setting entry path
  getLast?_eq : files.getLast? = some entry
  /-- What a file imports precedes it, unless it leads back to the file. -/
  sorted : ∀ path ∈ files, ∀ target, Imports options setting path target →
    ¬ Reaches options setting target path → [target, path].Sublist files

theorem Explores.dependencyOrder {entry : Text} {cache below : Module.Cache}
    (htexts : setting.tree.HoldsTexts) (hcache : cache.Sound setting.parser options)
    (h : Explores setting entry cache (.ok graph, below)) :
    DependencyOrder options setting entry graph.order := by
  obtain ⟨hnodup, hlast⟩ := h.order
  have hanswer : (collect setting entry).answer options = .ok graph := by
    rw [← (steady_collect htexts entry cache hcache).1, explores_iff.mp h]
  have hclosed := closed_of_collect htexts hanswer
  have hentry : entry ∈ graph.order := List.mem_of_getLast? hlast
  cases h with
  | visited hown hvisits =>
    obtain ⟨⟨added, hadded⟩, -⟩ := follows_of_visits htexts hcache hvisits (Graph.leadsTo_start _ _)
    have horder : graph.order = added := hadded.order_eq
    refine ⟨hnodup, fun path => ⟨fun hpath => ?_, fun hreaches => ?_⟩, hlast, ?_⟩
    · obtain ⟨target, htarget, hreaches⟩ := hadded.exists_reaches path (horder ▸ hpath)
      rwa [List.mem_singleton.mp htarget] at hreaches
    · -- the order is closed under imports
      induction hreaches with
      | refl => exact hentry
      | tail _ himports ih => exact hclosed.mem_order _ ih _ himports
    · intro path hpath
      exact hadded.sorted path (horder ▸ hpath)

/-! ## §4. Builds from an entry -/

/-- The plan of a build from a file of the tree is what is collected from it. -/
theorem start_plan_of_isFile {entry : Text} (hfile : setting.tree.isFile entry = true)
    (cache : Module.Cache) :
    (plan setting (some entry)).start cache =
      match (collect setting (Path.normalize entry)).start cache with
      | (.ok graph, cache) => (.ok (Path.normalize entry, graph), cache)
      | (.error stop, cache) => (.error stop, cache) := by
  have hselect : selectEntry setting.tree setting.config (some entry) = .ok (Path.normalize entry) := by
    unfold selectEntry
    exact if_pos hfile
  have hplan := start_plan setting (some entry) cache
  rw [hselect] at hplan
  exact hplan

/-- A build that fails has the error of its plan. -/
theorem answer_buildTree_eq_error_iff {revision stamp : Nat} {registry : Registry} {cache : Module.Cache}
    {wanted? : Option Text} {error : BuildError} :
    (buildTree setting revision registry cache wanted?).answer = .ok ⟨.error error, stamp⟩ ↔
      stamp = revision ∧ ((plan setting wanted?).start cache).1 = .error (.error error) := by
  rw [answer_buildTree]
  rcases ((plan setting wanted?).start cache).1 with (found | breakdown) | ⟨entry, graph⟩
  · simp [conclude, eq_comm, and_comm]
  · simp [conclude]
  · rcases hmade : (documentOf setting.config entry revision graph registry).1 with breakdown | document
    · simp [conclude, hmade, Except.map]
    · simp [conclude, hmade, Except.map]

/-- Behind every run of edits, requests, invalidations and builds: the search from a file ends as the
recursive search does; if a build from the file fails, then with the first error of that search; and
if it succeeds, then its modules are the files that the entry leads to, each once, the entry last, and
each behind those of its imports that do not lead back to it. -/
theorem build_depthFirst (parser : Parser) (options : Options) {start : Project}
    (hstart : start.tree.IsInitial) (actions : List Project.Action) (config : Config)
    (registry : Registry) (wanted : Text) :
    let number := (start.newCache options).1
    let project := (start.newCache options).2.run parser number actions
    let setting : Setting := ⟨parser, project.tree, config⟩
    let entry := Path.normalize wanted
    let cache := project.cacheAt number
    let answer := (build parser config number project registry (some wanted)).1
    project.tree.isFile wanted = true →
      (∀ outcome, Explores setting entry cache outcome ↔
        (collect setting entry).start cache = outcome)
      ∧ (∀ error stamp, answer = .ok ⟨.error error, stamp⟩ ↔
        stamp = project.revision ∧ ∃ after, Explores setting entry cache (.error (.error error), after))
      ∧ (∀ document stamp, answer = .ok ⟨.ok document, stamp⟩ →
        (∃ graph after, Explores setting entry cache (.ok graph, after)
          ∧ document.modules = graph.order)
        ∧ DependencyOrder options setting entry document.modules) := by
  intro number project setting entry cache answer hfile
  have hproject : project.Consistent parser options number :=
    (Project.consistent_newCache parser options hstart).run actions
  have htexts : setting.tree.HoldsTexts := hproject.holdsTexts
  have hcache : cache.Sound setting.parser options := hproject.hasSound.cacheAt
  have hplan := @start_plan_of_isFile setting wanted hfile cache
  refine ⟨fun outcome => explores_iff, fun error stamp => ?_, fun document stamp hok => ?_⟩
  · rw [show answer = (buildTree setting project.revision registry cache (some wanted)).answer from rfl,
      answer_buildTree_eq_error_iff, hplan]
    apply and_congr_right
    intro _
    simp only [explores_iff]
    rcases (collect setting (Path.normalize wanted)).start cache with ⟨stop | graph, after⟩
    · simp
    · simp
  · obtain ⟨selected, graph, hselected, hdocument⟩ :=
      @plan_of_buildTree setting project.revision stamp registry cache (some wanted) document hok
    rw [hplan] at hselected
    rcases hcollect : (collect setting (Path.normalize wanted)).start cache with ⟨stop | found, after⟩
    · rw [hcollect] at hselected
      cases hselected
    · rw [hcollect] at hselected
      cases hselected
      have hexplores : Explores setting entry cache (.ok graph, after) := explores_iff.mpr hcollect
      rw [hdocument.modules_eq]
      exact ⟨⟨graph, after, hexplores, rfl⟩, hexplores.dependencyOrder htexts hcache⟩

/-- The page of a script that imports a style sheet: its modules are in the order of the search. -/
theorem build_depthFirst_styled :
    styledProject.tree.isFile "/a.js" = true ∧
      ∃ document, (build (fun _ _ => styledTree) {} 0 styledProject .empty (some "/a.js")).1
          = .ok ⟨.ok document, styledProject.revision⟩
        ∧ (∃ graph after, Explores styledSetting "/a.js" (styledProject.cacheAt 0) (.ok graph, after)
          ∧ document.modules = graph.order)
        ∧ DependencyOrder {} styledSetting "/a.js" document.modules := by
  have hfile : styledProject.tree.isFile "/a.js" = true := by decide +kernel
  have hnormal : Path.normalize "/a.js" = "/a.js" := by decide +kernel
  obtain ⟨document, hbuild⟩ := exists_build_styled
  have hsearch := build_depthFirst (fun _ _ => styledTree) {}
    (.inl rfl : ({} : Project).tree.IsInitial) styledActions {} .empty "/a.js" hfile
  rw [hnormal] at hsearch
  exact ⟨hfile, document, hbuild, hsearch.2.2 document _ hbuild⟩

end LivePreview.Preview
