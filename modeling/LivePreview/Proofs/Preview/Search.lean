/-
  LivePreview.Proofs.Preview.Search
  ─────────────────────────────────
  **What the search for modules has found when it ends.**

  When all imports of a file have been resolved, a file stands under every local
  specifier and a URL under every other one (`Links.Cover`, `cover_linksOf`).  The
  externals only grow, so that what has once been looked up stays there.

  While the search goes on, every file that has been reached is complete or on the
  stack, and every file that it imports has been reached or is still pending in its
  frame (`Searching`).  Every step keeps this: a file whose imports have all been
  followed is complete (`Searching.complete`), a pending file is reached
  (`Searching.reach`), and one that has been reached is no longer pending
  (`Searching.dropPending`).  When the stack is empty nothing is pending, so that
  whatever a complete file imports is complete (`Closed`, `closed_of_plan`).
-/
import LivePreview.Preview.Graph
import LivePreview.Proofs.Preview.Walk
import LivePreview.Proofs.Result
import LivePreview.Proofs.Table
import LivePreview.Proofs.Tree.Resolution

namespace LivePreview.Preview

open LivePreview.Path.Specifier (isLocal)

/-! ## §1. Externals -/

/-- An external that has been looked up is in the table, with all that was there before. -/
theorem addExternal_eq_ok {config : Config} {importer specifier : Text} {externals after : Table Text}
    (hok : addExternal config importer externals specifier = .ok after) :
    externals.keys ⊆ after.keys ∧ specifier ∈ after.keys := by
  unfold addExternal at hok
  split at hok
  · next url hget =>
    cases hok
    exact ⟨List.Subset.refl _, Table.mem_keys_of_get? hget⟩
  · split at hok
    · next url _ =>
      cases hok
      exact ⟨fun key hkey => Table.mem_keys_insert.mpr (.inr hkey), Table.mem_keys_insert.mpr (.inl rfl)⟩
    · cases hok

theorem foldlM_addExternal_eq_ok {config : Config} {importer : Text} {specifiers : List Text}
    {externals after : Table Text}
    (hok : specifiers.foldlM (addExternal config importer) externals = .ok after) :
    externals.keys ⊆ after.keys ∧ specifiers ⊆ after.keys := by
  induction specifiers generalizing externals with
  | nil =>
    cases hok
    exact ⟨List.Subset.refl _, List.nil_subset _⟩
  | cons specifier specifiers ih =>
    rw [List.foldlM_cons] at hok
    obtain ⟨between, hfirst, hrest⟩ := Result.bind_eq_ok_iff.mp hok
    obtain ⟨hkeys, hmem⟩ := addExternal_eq_ok hfirst
    obtain ⟨hlater, hspecifiers⟩ := ih hrest
    exact ⟨List.Subset.trans hkeys hlater, List.cons_subset.mpr ⟨hlater hmem, hspecifiers⟩⟩

/-- The externals that every page needs with a configuration. -/
def requiredExternals (config : Config) : List Text :=
  if config.mountsEntry then mountExternals else []

theorem ownExternals_eq_ok {config : Config} {entry : Text} {externals : Table Text}
    (hok : ownExternals config entry = .ok externals) :
    requiredExternals config ⊆ externals.keys := by
  unfold ownExternals at hok
  unfold requiredExternals
  split at hok
  · next hmounts =>
    rw [if_pos hmounts]
    exact (foldlM_addExternal_eq_ok hok).2
  · next hmounts =>
    rw [if_neg hmounts]
    exact List.nil_subset _

/-! ## §2. Links -/

/-- The links of a file hold what some of its imports are resolved to: a file for every local
specifier, and a URL for every other one. -/
structure Links.Cover (tree : Tree) (importer : Text) (imports : List Text) (links : Links) : Prop where
  target_eq : ∀ specifier, links.targets.get? specifier
    = if specifier ∈ imports then tree.resolveImport? importer specifier else none
  isSome_of_isLocal : ∀ specifier ∈ imports, isLocal specifier = true →
    (tree.resolveImport? importer specifier).isSome = true
  mem_externals : ∀ specifier ∈ imports, isLocal specifier = false → specifier ∈ links.externals.keys
  exists_of_mem_values : ∀ target ∈ links.targets.values,
    ∃ specifier ∈ imports, tree.resolveImport? importer specifier = some target

section Links

variable {tree : Tree} {config : Config} {importer : Text} {links after : Links}

/-- A local specifier with the file that it is resolved to. -/
theorem Links.Cover.withTarget {imports : List Text} {specifier target : Text}
    (h : links.Cover tree importer imports) (hlocal : isLocal specifier = true)
    (hresolve : tree.resolveImport? importer specifier = some target) :
    Links.Cover tree importer (imports ++ [specifier])
      { links with targets := links.targets.insert specifier target } := by
  refine ⟨fun other => ?_, fun other hother hisLocal => ?_, fun other hother hbare => ?_,
    fun file hfile => ?_⟩
  · rw [Table.get?_insert, h.target_eq]
    by_cases heq : other = specifier
    · simp [heq, hresolve]
    · simp [heq]
  · rcases List.mem_append.mp hother with hother | hother
    · exact h.isSome_of_isLocal other hother hisLocal
    · rw [List.mem_singleton.mp hother, hresolve, Option.isSome_some]
  · rcases List.mem_append.mp hother with hother | hother
    · exact h.mem_externals other hother hbare
    · rw [List.mem_singleton.mp hother, hlocal] at hbare
      cases hbare
  · rcases Table.mem_values_insert hfile with rfl | hfile
    · exact ⟨specifier, List.mem_append_right _ List.mem_cons_self, hresolve⟩
    · obtain ⟨other, hother, heq⟩ := h.exists_of_mem_values file hfile
      exact ⟨other, List.mem_append_left _ hother, heq⟩

/-- A specifier that is not local, and externals among which it is. -/
theorem Links.Cover.withExternals {imports : List Text} {specifier : Text} {externals : Table Text}
    (h : links.Cover tree importer imports) (hbare : isLocal specifier = false)
    (hkeys : links.externals.keys ⊆ externals.keys) (hmem : specifier ∈ externals.keys) :
    Links.Cover tree importer (imports ++ [specifier]) { links with externals } := by
  refine ⟨fun other => ?_, fun other hother hisLocal => ?_, fun other hother hotherBare => ?_,
    fun file hfile => ?_⟩
  · -- a specifier that is not local is resolved to no file
    rw [h.target_eq]
    by_cases heq : other = specifier
    · simp [heq, tree.resolveImport?_of_isLocal_eq_false importer hbare]
    · simp [heq]
  · rcases List.mem_append.mp hother with hother | hother
    · exact h.isSome_of_isLocal other hother hisLocal
    · rw [List.mem_singleton.mp hother, hbare] at hisLocal
      cases hisLocal
  · rcases List.mem_append.mp hother with hother | hother
    · exact hkeys (h.mem_externals other hother hotherBare)
    · rw [List.mem_singleton.mp hother]
      exact hmem
  · obtain ⟨other, hother, heq⟩ := h.exists_of_mem_values file hfile
    exact ⟨other, List.mem_append_left _ hother, heq⟩

/-- Resolving one more import. -/
theorem Links.Cover.addImport {imports : List Text} {specifier : Text}
    (h : links.Cover tree importer imports)
    (hok : addImport tree config importer links specifier = .ok after) :
    after.Cover tree importer (imports ++ [specifier])
      ∧ links.externals.keys ⊆ after.externals.keys := by
  unfold Preview.addImport at hok
  by_cases hlocal : isLocal specifier = true
  · rw [if_pos hlocal] at hok
    cases hresolve : tree.resolveImport? importer specifier with
    | none =>
      rw [hresolve] at hok
      cases hok
    | some target =>
      rw [hresolve] at hok
      cases hok
      exact ⟨h.withTarget hlocal hresolve, List.Subset.refl _⟩
  · rw [if_neg hlocal] at hok
    obtain ⟨externals, hexternal, rfl⟩ := Result.map_eq_ok_iff.mp hok
    obtain ⟨hkeys, hmem⟩ := addExternal_eq_ok hexternal
    exact ⟨h.withExternals (Bool.eq_false_iff.mpr hlocal) hkeys hmem, hkeys⟩

theorem Links.Cover.foldlM_addImport {done imports : List Text} (h : links.Cover tree importer done)
    (hok : imports.foldlM (Preview.addImport tree config importer) links = .ok after) :
    after.Cover tree importer (done ++ imports)
      ∧ links.externals.keys ⊆ after.externals.keys := by
  induction imports generalizing done links with
  | nil =>
    cases hok
    rw [List.append_nil]
    exact ⟨h, List.Subset.refl _⟩
  | cons specifier imports ih =>
    rw [List.foldlM_cons] at hok
    obtain ⟨between, hfirst, hrest⟩ := Result.bind_eq_ok_iff.mp hok
    obtain ⟨hbetween, hkeys⟩ := h.addImport hfirst
    obtain ⟨hafter, hlater⟩ := ih hbetween hrest
    rw [List.append_assoc, List.singleton_append] at hafter
    exact ⟨hafter, List.Subset.trans hkeys hlater⟩

/-- The links of a file hold what all its imports are resolved to. -/
theorem cover_linksOf {externals : Table Text} {imports : List Text}
    (hok : linksOf tree config importer externals imports = .ok links) :
    links.Cover tree importer imports ∧ externals.keys ⊆ links.externals.keys := by
  have hnone : ({ externals } : Links).Cover tree importer [] := by
    refine ⟨fun specifier => rfl, ?_, ?_, ?_⟩
    all_goals
      intro x hx
      exact absurd hx List.not_mem_nil
  exact hnone.foldlM_addImport hok

end Links

end LivePreview.Preview

namespace LivePreview.Preview

open LivePreview.Lowering (Options)
open LivePreview.Path.Specifier (isLocal)

/-! ## §3. What a graph holds of a file -/

/-- A file imports another one: it names it in its module. -/
def Imports (options : Options) (setting : Setting) (path target : Text) : Prop :=
  ∃ found specifier, freshModule setting.parser options setting.tree path = .ok found
    ∧ specifier ∈ found.imports ∧ setting.tree.resolveImport? path specifier = some target

/-- A graph holds the module of a file, and what its imports are resolved to. -/
structure Graph.Holds (options : Options) (setting : Setting) (graph : Graph) (path : Text)
    (found : Module) : Prop where
  freshModule_eq : freshModule setting.parser options setting.tree path = .ok found
  modules_get? : graph.modules.get? path = some found
  target_eq : ∀ specifier ∈ found.imports, ((graph.targets.get? path).getD []).get? specifier
    = setting.tree.resolveImport? path specifier
  isSome_of_isLocal : ∀ specifier ∈ found.imports, isLocal specifier = true →
    (setting.tree.resolveImport? path specifier).isSome = true
  mem_externals : ∀ specifier ∈ found.imports, isLocal specifier = false →
    specifier ∈ graph.externals.keys

variable {options : Options} {setting : Setting} {graph after : Graph} {path : Text}

/-- A file that has been entered is held. -/
theorem holds_enter {found : Module} {links : Links} (graph : Graph)
    (hfresh : freshModule setting.parser options setting.tree path = .ok found)
    (hcover : links.Cover setting.tree path found.imports) :
    (graph.enter path found links).Holds options setting path found := by
  refine ⟨hfresh, Table.get?_insert_self _ _ _, fun specifier hmem => ?_, hcover.isSome_of_isLocal,
    hcover.mem_externals⟩
  show (((graph.targets.insert path links.targets).get? path).getD []).get? specifier = _
  rw [Table.get?_insert_self, Option.getD_some, hcover.target_eq, if_pos hmem]

/-- What a graph holds of a file it still holds when another file has been entered. -/
theorem Graph.Holds.enter {other : Text} {found entered : Module} {links : Links}
    (h : graph.Holds options setting path found) (hne : path ≠ other)
    (hkeys : graph.externals.keys ⊆ links.externals.keys) :
    (graph.enter other entered links).Holds options setting path found := by
  refine ⟨h.freshModule_eq, ?_, fun specifier hmem => ?_, h.isSome_of_isLocal,
    fun specifier hmem hbare => hkeys (h.mem_externals specifier hmem hbare)⟩
  · show (graph.modules.insert other entered).get? path = some found
    rw [Table.get?_insert, if_neg hne]
    exact h.modules_get?
  · show (((graph.targets.insert other links.targets).get? path).getD []).get? specifier = _
    rw [Table.get?_insert, if_neg hne]
    exact h.target_eq specifier hmem

/-! ## §4. The invariant -/

/-- What holds in the midst of a search, for files that are still unreached, a stack, and the graph
that has been found so far. -/
structure Searching (options : Options) (setting : Setting) (unreached : List Text)
    (stack : List Frame) (graph : Graph) : Prop where
  /-- Every file that has been reached is held. -/
  holds : ∀ path ∈ graph.modules.keys, ∃ found, graph.Holds options setting path found
  /-- The files that have been reached are the complete ones and those on the stack. -/
  mem_keys_iff : ∀ path,
    path ∈ graph.modules.keys ↔ path ∈ graph.order ∨ ∃ frame ∈ stack, frame.path = path
  /-- What a reached file imports has been reached or is pending in its frame. -/
  followed : ∀ path ∈ graph.modules.keys, ∀ target, Imports options setting path target →
    target ∈ graph.modules.keys ∨ ∃ frame ∈ stack, frame.path = path ∧ target ∈ frame.pending
  pending_isFile : ∀ frame ∈ stack, ∀ target ∈ frame.pending,
    target ∈ setting.tree.files.map Prod.fst
  /-- Every file of the tree has been reached or is listed as unreached. -/
  listed : ∀ path ∈ setting.tree.files.map Prod.fst, path ∈ unreached ∨ path ∈ graph.modules.keys
  required : requiredExternals setting.config ⊆ graph.externals.keys

theorem searching_nil {externals : Table Text}
    (hrequired : requiredExternals setting.config ⊆ externals.keys) :
    Searching options setting (setting.tree.files.map Prod.fst) [] { externals } := by
  have hnone : ∀ path, path ∉ ({ externals } : Graph).modules.keys := fun _ => List.not_mem_nil
  refine ⟨fun path hpath => absurd hpath (hnone path), fun path => ?_,
    fun path hpath => absurd hpath (hnone path), fun frame hframe => absurd hframe List.not_mem_nil,
    fun path hpath => .inl hpath, hrequired⟩
  constructor
  · intro hpath
    exact absurd hpath (hnone path)
  · intro hpath
    rcases hpath with hpath | ⟨frame, hframe, -⟩
    · exact absurd hpath List.not_mem_nil
    · exact absurd hframe List.not_mem_nil

section Searching

variable {unreached : List Text} {stack : List Frame}

/-- A file whose imports have all been followed is complete. -/
theorem Searching.complete {rest : List Frame}
    (h : Searching options setting unreached (⟨path, []⟩ :: rest) graph) :
    Searching options setting unreached rest (graph.complete path) := by
  have hkeys : (graph.complete path).modules.keys = graph.modules.keys := rfl
  refine ⟨fun q hq => ?_, fun q => ?_, fun q hq target himports => ?_,
    fun frame hframe => h.pending_isFile frame (List.mem_cons_of_mem _ hframe), h.listed, h.required⟩
  · obtain ⟨found, hheld⟩ := h.holds q hq
    exact ⟨found, hheld.freshModule_eq, hheld.modules_get?, hheld.target_eq, hheld.isSome_of_isLocal,
      hheld.mem_externals⟩
  · rw [hkeys, h.mem_keys_iff]
    show _ ↔ q ∈ graph.order ++ [path] ∨ _
    simp only [List.mem_cons, List.mem_append, List.not_mem_nil, or_false, exists_eq_or_imp]
    rw [or_assoc, eq_comm (a := path)]
  · rcases h.followed q hq target himports with hreached | ⟨frame, hframe, hpath, hpending⟩
    · exact .inl hreached
    · -- nothing was pending in the frame that is gone
      rcases List.mem_cons.mp hframe with rfl | hframe
      · exact absurd hpending List.not_mem_nil
      · exact .inr ⟨frame, hframe, hpath, hpending⟩

/-- A pending file that has been reached need not be followed. -/
theorem Searching.dropPending (front : List Frame) {rest : List Frame} {target : Text}
    {pending : List Text}
    (h : Searching options setting unreached (front ++ ⟨path, target :: pending⟩ :: rest) graph)
    (hreached : target ∈ graph.modules.keys) :
    Searching options setting unreached (front ++ ⟨path, pending⟩ :: rest) graph := by
  refine ⟨h.holds, fun q => ?_, fun q hq file himports => ?_, fun frame hframe file hfile => ?_,
    h.listed, h.required⟩
  · rw [h.mem_keys_iff]
    simp only [List.mem_append, List.mem_cons, or_and_right, exists_or, exists_eq_left]
  · rcases h.followed q hq file himports with hmem | ⟨frame, hframe, hpath, hpending⟩
    · exact .inl hmem
    · rcases List.mem_append.mp hframe with hframe | hframe
      · exact .inr ⟨frame, List.mem_append_left _ hframe, hpath, hpending⟩
      · rcases List.mem_cons.mp hframe with rfl | hframe
        · rcases List.mem_cons.mp hpending with rfl | hpending
          · exact .inl hreached
          · exact .inr ⟨⟨path, pending⟩, List.mem_append_right _ List.mem_cons_self, hpath, hpending⟩
        · exact .inr ⟨frame, List.mem_append_right _ (List.mem_cons_of_mem _ hframe), hpath, hpending⟩
  · rcases List.mem_append.mp hframe with hframe | hframe
    · exact h.pending_isFile frame (List.mem_append_left _ hframe) file hfile
    · rcases List.mem_cons.mp hframe with rfl | hframe
      · exact h.pending_isFile ⟨path, target :: pending⟩
          (List.mem_append_right _ List.mem_cons_self) file (List.mem_cons_of_mem _ hfile)
      · exact h.pending_isFile frame (List.mem_append_right _ (List.mem_cons_of_mem _ hframe)) file hfile

/-- Reaching a file puts it on the stack, with all its imports pending. -/
theorem Searching.enter (h : Searching options setting unreached stack graph) {found : Module}
    {links : Links} (hfresh : freshModule setting.parser options setting.tree path = .ok found)
    (hlinks : linksOf setting.tree setting.config path graph.externals found.imports = .ok links) :
    Searching options setting (unreached.erase path) (⟨path, links.files⟩ :: stack)
      (graph.enter path found links) := by
  obtain ⟨hcover, hkeys⟩ := cover_linksOf hlinks
  have hmem : ∀ q, q ∈ (graph.enter path found links).modules.keys
      ↔ q = path ∨ q ∈ graph.modules.keys := fun _ => Table.mem_keys_insert
  refine ⟨fun q hq => ?_, fun q => ?_, fun q hq target himports => ?_, fun frame hframe target hpending => ?_,
    fun q hfile => ?_, List.Subset.trans h.required hkeys⟩
  · by_cases heq : q = path
    · rw [heq]
      exact ⟨found, holds_enter graph hfresh hcover⟩
    · obtain ⟨module, hheld⟩ := h.holds q (((hmem q).mp hq).resolve_left heq)
      exact ⟨module, hheld.enter heq hkeys⟩
  · rw [hmem, h.mem_keys_iff]
    show _ ↔ q ∈ graph.order ∨ _
    simp only [List.mem_cons, exists_eq_or_imp]
    rw [or_left_comm, eq_comm (a := q)]
  · by_cases heq : q = path
    · -- all imports of the file itself are pending
      obtain ⟨made, specifier, hmade, hspecifier, hresolve⟩ := himports
      rw [heq] at hmade hresolve
      cases hfresh.symm.trans hmade
      have hget : links.targets.get? specifier = some target := by
        rw [hcover.target_eq, if_pos hspecifier, hresolve]
      exact .inr ⟨_, List.mem_cons_self, heq.symm,
        List.mem_eraseDups.mpr (Table.mem_values_of_get? hget)⟩
    · rcases h.followed q (((hmem q).mp hq).resolve_left heq) target himports with
        hreached | ⟨frame, hframe, hpath, hpending⟩
      · exact .inl ((hmem target).mpr (.inr hreached))
      · exact .inr ⟨frame, List.mem_cons_of_mem _ hframe, hpath, hpending⟩
  · rcases List.mem_cons.mp hframe with rfl | hframe
    · obtain ⟨specifier, -, hresolve⟩ :=
        hcover.exists_of_mem_values target (List.mem_eraseDups.mp hpending)
      exact Tree.mem_files_of_resolveImport? hresolve
    · exact h.pending_isFile frame hframe target hpending
  · rw [hmem]
    by_cases heq : q = path
    · exact .inr (.inl heq)
    · exact (h.listed q hfile).imp (fun hq => (List.mem_erase_of_ne heq).mpr hq) .inr

end Searching

/-! ## §5. The end of the search -/

/-- Whatever a complete file imports is complete, and the graph holds it. -/
structure Graph.Closed (options : Options) (setting : Setting) (graph : Graph) : Prop where
  holds : ∀ path ∈ graph.order, ∃ found, graph.Holds options setting path found
  mem_order : ∀ path ∈ graph.order, ∀ target, Imports options setting path target →
    target ∈ graph.order
  required : requiredExternals setting.config ⊆ graph.externals.keys

theorem Searching.closed {unreached : List Text} (h : Searching options setting unreached [] graph) :
    graph.Closed options setting := by
  have hmem : ∀ path, path ∈ graph.modules.keys ↔ path ∈ graph.order := by
    intro path
    rw [h.mem_keys_iff]
    simp
  refine ⟨fun path hpath => h.holds path ((hmem path).mpr hpath), fun path hpath target himports => ?_,
    h.required⟩
  rcases h.followed path ((hmem path).mpr hpath) target himports with hreached | ⟨frame, hframe, -⟩
  · exact (hmem target).mp hreached
  · exact absurd hframe List.not_mem_nil

section Setting

variable (htexts : setting.tree.HoldsTexts)
include htexts

/-- Reaching a file: its module and what its imports are resolved to. -/
theorem answer_reach_eq_ok_iff {reached : Graph × List Text} :
    (reach setting graph path).answer options = .ok reached ↔
      ∃ found links, freshModule setting.parser options setting.tree path = .ok found
        ∧ linksOf setting.tree setting.config path graph.externals found.imports = .ok links
        ∧ (graph.enter path found links, links.files) = reached := by
  unfold reach
  rw [(steady_transform htexts path).answer_bind fun _ => (steady_resolved _).bind fun _ => steady_pure _,
    answer_transform, Result.bind_eq_ok_iff]
  apply exists_congr
  intro found
  rw [Result.mapError_eq_ok_iff, (@steady_resolved setting.parser _ _ _).answer_bind fun _ => steady_pure _,
    answer_resolved, Result.bind_eq_ok_iff, ← exists_and_left]
  apply exists_congr
  intro links
  unfold settled
  rw [Result.mapError_eq_ok_iff, answer_pure, Except.ok.injEq]

/-- Following an import to a file that has not been reached. -/
theorem answer_search_of_mem {unreached : List Text} {path target : Text} {pending : List Text}
    {rest : List Frame} (hmem : target ∈ unreached) :
    (search setting unreached (⟨path, target :: pending⟩ :: rest) graph).answer options
      = (reach setting graph target).answer options >>= fun reached =>
        (search setting (unreached.erase target) (⟨target, reached.2⟩ :: ⟨path, pending⟩ :: rest)
          reached.1).answer options := by
  rw [search, dif_pos hmem,
    (steady_reach htexts graph target).answer_bind fun reached => steady_search htexts _ _ _]

/-- Collecting the modules that an entry needs. -/
theorem answer_collect (entry : Text) : (collect setting entry).answer options
    = settled (ownExternals setting.config entry) >>= fun externals =>
      (reach setting { externals } entry).answer options >>= fun reached =>
        (search setting ((setting.tree.files.map Prod.fst).erase entry) [⟨entry, reached.2⟩]
          reached.1).answer options := by
  unfold collect
  rw [(steady_resolved _).answer_bind fun externals =>
    (steady_reach htexts _ entry).bind fun reached => steady_search htexts _ _ _, answer_resolved]
  refine congrArg (settled _ >>= ·) (funext fun externals => ?_)
  rw [(steady_reach htexts _ entry).answer_bind fun reached => steady_search htexts _ _ _]

/-- Selecting an entry and collecting its modules. -/
theorem answer_plan (wanted? : Option Text) : (plan setting wanted?).answer options
    = settled (selectEntry setting.tree setting.config wanted?) >>= fun entry =>
      ((collect setting entry).answer options).map (entry, ·) := by
  unfold plan
  rw [(steady_resolved _).answer_bind fun entry =>
    (steady_collect htexts entry).bind fun _ => steady_pure _, answer_resolved]
  refine congrArg (settled _ >>= ·) (funext fun entry => ?_)
  rw [(steady_collect htexts entry).answer_bind fun _ => steady_pure _]
  cases (collect setting entry).answer options <;> rfl

/-- **A search that ends leaves nothing pending.** -/
theorem Searching.search {unreached : List Text} {stack : List Frame}
    (h : Searching options setting unreached stack graph)
    (hok : (search setting unreached stack graph).answer options = .ok after) :
    after.Closed options setting := by
  induction unreached, stack, graph using search.induct with
  | case1 unreached graph =>
    rw [Preview.search] at hok
    cases hok
    exact h.closed
  | case2 unreached graph path rest ih =>
    rw [Preview.search] at hok
    exact ih h.complete hok
  | case3 unreached graph path target pending rest hmem ih =>
    rw [answer_search_of_mem htexts hmem] at hok
    obtain ⟨reached, hreach, hrest⟩ := Result.bind_eq_ok_iff.mp hok
    obtain ⟨found, links, hfresh, hlinks, rfl⟩ := (answer_reach_eq_ok_iff htexts).mp hreach
    have hentered := h.enter hfresh hlinks
    have hreached : target ∈ (graph.enter target found links).modules.keys :=
      Table.mem_keys_insert.mpr (.inl rfl)
    exact ih _ _ (hentered.dropPending [_] hreached) hrest
  | case4 unreached graph path target pending rest hmem ih =>
    rw [Preview.search, dif_neg hmem] at hok
    -- a file that is not listed as unreached has been reached
    have hfile := h.pending_isFile _ List.mem_cons_self target List.mem_cons_self
    have hreached := (h.listed target hfile).resolve_left hmem
    exact ih (h.dropPending [] hreached) hok

theorem closed_of_collect {entry : Text} (hok : (collect setting entry).answer options = .ok graph) :
    graph.Closed options setting := by
  rw [answer_collect htexts] at hok
  obtain ⟨externals, hexternals, hrest⟩ := Result.bind_eq_ok_iff.mp hok
  obtain ⟨reached, hreach, hsearch⟩ := Result.bind_eq_ok_iff.mp hrest
  obtain ⟨found, links, hfresh, hlinks, rfl⟩ := (answer_reach_eq_ok_iff htexts).mp hreach
  have hrequired := ownExternals_eq_ok (Result.mapError_eq_ok_iff.mp hexternals)
  exact ((searching_nil hrequired).enter hfresh hlinks).search htexts hsearch

/-- **The plan of a build is closed under imports.** -/
theorem closed_of_plan {wanted? : Option Text} {entry : Text}
    (hok : (plan setting wanted?).answer options = .ok (entry, graph)) :
    graph.Closed options setting := by
  rw [answer_plan htexts] at hok
  obtain ⟨selected, -, hrest⟩ := Result.bind_eq_ok_iff.mp hok
  obtain ⟨collected, hcollect, hpair⟩ := Result.map_eq_ok_iff.mp hrest
  cases hpair
  exact closed_of_collect htexts hcollect

end Setting

end LivePreview.Preview
