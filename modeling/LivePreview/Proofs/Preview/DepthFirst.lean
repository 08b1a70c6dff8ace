/-
  LivePreview.Proofs.Preview.DepthFirst
  ─────────────────────────────────────
  **The search for modules is the recursive depth-first search.**

  The recursive search visits a list of files from left to right.  A file that has been
  reached before is passed over; any other one is reached, the files that it imports
  are visited, and then it is complete (`Visits`).  It ends at the first stop.

  The search keeps a stack instead: its frames are visited one after the other, the top
  first, and each file is complete behind its imports (`Unwinds`).  From there it is one
  step of either kind to the next (`Unwinds.pass`, `Unwinds.follow`), so that the search
  ends on every input as the recursive one does, with the same stop or the same graph
  and the same cache (`explores_iff`).

  What the recursive search adds to the order are the files that it reaches, each once
  (`Visits.grows`).
-/
import LivePreview.Proofs.Preview.Search
import LivePreview.Proofs.Preview.Walk

namespace LivePreview.Preview

variable {setting : Setting}

/-! ## §1. The recursive search -/

/-- Visiting files, from left to right, from a graph and a module cache ends with a graph or a stop,
and with a cache. -/
inductive Visits (setting : Setting) :
    List Text → Graph → Module.Cache → Except Stop Graph × Module.Cache → Prop
  /-- There is nothing to visit. -/
  | done (graph : Graph) (cache : Module.Cache) : Visits setting [] graph cache (.ok graph, cache)
  /-- The file has been reached before. -/
  | known {target : Text} {targets : List Text} {graph : Graph} {cache : Module.Cache}
      {outcome : Except Stop Graph × Module.Cache} (hknown : target ∈ graph.modules.keys)
      (hrest : Visits setting targets graph cache outcome) :
      Visits setting (target :: targets) graph cache outcome
  /-- The file cannot be transformed, or one of its imports cannot be resolved. -/
  | unreached {target : Text} {targets : List Text} {graph : Graph} {cache after : Module.Cache}
      {stop : Stop} (hnew : target ∉ graph.modules.keys)
      (hreach : (reach setting graph target).start cache = (.error stop, after)) :
      Visits setting (target :: targets) graph cache (.error stop, after)
  /-- The search stops beneath the file. -/
  | stopped {target : Text} {targets imports : List Text} {graph reached : Graph}
      {cache between after : Module.Cache} {stop : Stop} (hnew : target ∉ graph.modules.keys)
      (hreach : (reach setting graph target).start cache = (.ok (reached, imports), between))
      (hbeneath : Visits setting imports reached between (.error stop, after)) :
      Visits setting (target :: targets) graph cache (.error stop, after)
  /-- The file is complete when its imports have been visited; then the others are visited. -/
  | followed {target : Text} {targets imports : List Text} {graph reached beneath : Graph}
      {cache between below : Module.Cache} {outcome : Except Stop Graph × Module.Cache}
      (hnew : target ∉ graph.modules.keys)
      (hreach : (reach setting graph target).start cache = (.ok (reached, imports), between))
      (hbeneath : Visits setting imports reached between (.ok beneath, below))
      (hrest : Visits setting targets (beneath.complete target) below outcome) :
      Visits setting (target :: targets) graph cache outcome

/-- The recursive search from an entry: the externals that the page needs itself are looked up, and
then the entry is visited. -/
inductive Explores (setting : Setting) (entry : Text) (cache : Module.Cache) :
    Except Stop Graph × Module.Cache → Prop
  | unknownExternal {fault : ResolutionFault}
      (hown : ownExternals setting.config entry = .error fault) :
      Explores setting entry cache (.error (.error (.resolution fault)), cache)
  | visited {externals : Table Text} {outcome : Except Stop Graph × Module.Cache}
      (hown : ownExternals setting.config entry = .ok externals)
      (hvisits : Visits setting [entry] { externals } cache outcome) :
      Explores setting entry cache outcome

/-- **Visiting files ends in at most one way.** -/
theorem Visits.unique {targets : List Text} {graph : Graph} {cache : Module.Cache}
    {first second : Except Stop Graph × Module.Cache}
    (h : Visits setting targets graph cache first) (h' : Visits setting targets graph cache second) :
    first = second := by
  -- whether the first target has been reached, and if not how it is reached, decides the case
  induction h generalizing second with
  | done graph cache =>
    cases h'
    rfl
  | known hknown _ ih =>
    cases h' with
    | known _ hrest => exact ih hrest
    | unreached hnew _ => exact absurd hknown hnew
    | stopped hnew _ _ => exact absurd hknown hnew
    | followed hnew _ _ _ => exact absurd hknown hnew
  | unreached hnew hreach =>
    cases h' with
    | known hknown _ => exact absurd hknown hnew
    | unreached _ hreach' =>
      cases hreach.symm.trans hreach'
      rfl
    | stopped _ hreach' _ => cases hreach.symm.trans hreach'
    | followed _ hreach' _ _ => cases hreach.symm.trans hreach'
  | stopped hnew hreach _ ih =>
    cases h' with
    | known hknown _ => exact absurd hknown hnew
    | unreached _ hreach' => cases hreach.symm.trans hreach'
    | stopped _ hreach' hbeneath =>
      cases hreach.symm.trans hreach'
      exact ih hbeneath
    | followed _ hreach' hbeneath _ =>
      cases hreach.symm.trans hreach'
      cases ih hbeneath
  | followed hnew hreach _ _ ihbeneath ihrest =>
    cases h' with
    | known hknown _ => exact absurd hknown hnew
    | unreached _ hreach' => cases hreach.symm.trans hreach'
    | stopped _ hreach' hbeneath =>
      cases hreach.symm.trans hreach'
      cases ihbeneath hbeneath
    | followed _ hreach' hbeneath hrest =>
      cases hreach.symm.trans hreach'
      cases ihbeneath hbeneath
      exact ihrest hrest

theorem Explores.unique {entry : Text} {cache : Module.Cache}
    {first second : Except Stop Graph × Module.Cache}
    (h : Explores setting entry cache first) (h' : Explores setting entry cache second) :
    first = second := by
  cases h with
  | unknownExternal hown =>
    cases h' with
    | unknownExternal hown' =>
      cases hown.symm.trans hown'
      rfl
    | visited hown' _ => cases hown.symm.trans hown'
  | visited hown hvisits =>
    cases h' with
    | unknownExternal hown' => cases hown.symm.trans hown'
    | visited hown' hvisits' =>
      cases hown.symm.trans hown'
      exact hvisits.unique hvisits'

/-! ## §2. Reaching a file -/

theorem start_resolved {α : Type} (result : Except ResolutionFault α) (cache : Module.Cache) :
    (resolved result).start cache = (settled result, cache) := by
  cases result <;> rfl

/-- A file that is reached is entered with its module, and what is to be followed is what its
imports are resolved to. -/
theorem exists_enter_of_start_reach {graph after : Graph} {path : Text} {imports : List Text}
    {cache below : Module.Cache}
    (h : (reach setting graph path).start cache = (.ok (after, imports), below)) :
    ∃ found links, linksOf setting.tree setting.config path graph.externals found.imports = .ok links
      ∧ after = graph.enter path found links ∧ imports = links.files := by
  unfold reach at h
  rw [start_bind] at h
  rcases htransform : (transform setting path).start cache with ⟨stop | found, between⟩
  · rw [htransform] at h
    cases h
  · rw [htransform] at h
    dsimp only at h
    rw [start_bind, start_resolved] at h
    cases hlinks : linksOf setting.tree setting.config path graph.externals found.imports with
    | error fault =>
      rw [hlinks] at h
      cases h
    | ok links =>
      rw [hlinks] at h
      cases h
      exact ⟨found, links, hlinks, rfl, rfl⟩

/-- What a file imports is a file of the tree. -/
theorem mem_files_of_linksOf {config : Config} {tree : Tree} {importer target : Text}
    {externals : Table Text} {imports : List Text} {links : Links}
    (hok : linksOf tree config importer externals imports = .ok links) (hmem : target ∈ links.files) :
    target ∈ tree.files.map Prod.fst := by
  obtain ⟨specifier, -, hresolve⟩ :=
    (cover_linksOf hok).1.exists_of_mem_values target (List.mem_eraseDups.mp hmem)
  exact Tree.mem_files_of_resolveImport? hresolve

/-! ## §3. The stack -/

/-- Visiting the pending files on a stack, the top first, ends with a graph or a stop, and with a
cache. -/
inductive Unwinds (setting : Setting) :
    List Frame → Graph → Module.Cache → Except Stop Graph × Module.Cache → Prop
  | empty (graph : Graph) (cache : Module.Cache) : Unwinds setting [] graph cache (.ok graph, cache)
  | stopped {path : Text} {pending : List Text} {rest : List Frame} {graph : Graph}
      {cache after : Module.Cache} {stop : Stop}
      (hpending : Visits setting pending graph cache (.error stop, after)) :
      Unwinds setting (⟨path, pending⟩ :: rest) graph cache (.error stop, after)
  | completed {path : Text} {pending : List Text} {rest : List Frame} {graph beneath : Graph}
      {cache below : Module.Cache} {outcome : Except Stop Graph × Module.Cache}
      (hpending : Visits setting pending graph cache (.ok beneath, below))
      (hrest : Unwinds setting rest (beneath.complete path) below outcome) :
      Unwinds setting (⟨path, pending⟩ :: rest) graph cache outcome

section Unwinds

variable {path target : Text} {pending imports : List Text} {rest : List Frame}
  {graph reached : Graph} {cache between : Module.Cache}
  {outcome : Except Stop Graph × Module.Cache}

/-- A pending file that has been reached is passed over. -/
theorem Unwinds.pass (h : Unwinds setting (⟨path, pending⟩ :: rest) graph cache outcome)
    (hknown : target ∈ graph.modules.keys) :
    Unwinds setting (⟨path, target :: pending⟩ :: rest) graph cache outcome := by
  cases h with
  | stopped hpending => exact .stopped (.known hknown hpending)
  | completed hpending hrest => exact .completed (.known hknown hpending) hrest

/-- A pending file that is reached is put on the stack with its own imports. -/
theorem Unwinds.follow
    (h : Unwinds setting (⟨target, imports⟩ :: ⟨path, pending⟩ :: rest) reached between outcome)
    (hnew : target ∉ graph.modules.keys)
    (hreach : (reach setting graph target).start cache = (.ok (reached, imports), between)) :
    Unwinds setting (⟨path, target :: pending⟩ :: rest) graph cache outcome := by
  cases h with
  | stopped hbeneath => exact .stopped (.stopped hnew hreach hbeneath)
  | completed hbeneath hrest =>
    cases hrest with
    | stopped hpending => exact .stopped (.followed hnew hreach hbeneath hpending)
    | completed hpending hrest => exact .completed (.followed hnew hreach hbeneath hpending) hrest

end Unwinds

/-- The files that are listed as unreached are those that have no module in the graph, and what is
pending on a stack are files. -/
structure Listed (setting : Setting) (unreached : List Text) (stack : List Frame) (graph : Graph) :
    Prop where
  nodup : unreached.Nodup
  mem_iff : ∀ path ∈ setting.tree.files.map Prod.fst,
    path ∈ unreached ↔ path ∉ graph.modules.keys
  pending_isFile : ∀ frame ∈ stack, ∀ target ∈ frame.pending,
    target ∈ setting.tree.files.map Prod.fst

section Listed

variable {unreached : List Text} {stack : List Frame} {graph : Graph}

/-- A file that is reached is no longer listed, and its imports are pending. -/
theorem Listed.enter (h : Listed setting unreached stack graph) {path : Text} {found : Module}
    {links : Links}
    (hlinks : linksOf setting.tree setting.config path graph.externals found.imports = .ok links) :
    Listed setting (unreached.erase path) (⟨path, links.files⟩ :: stack)
      (graph.enter path found links) := by
  refine ⟨h.nodup.erase path, fun other hother => ?_, fun frame hframe target htarget => ?_⟩
  · show _ ↔ other ∉ (graph.modules.insert path found).keys
    rw [h.nodup.mem_erase_iff, h.mem_iff other hother, Table.mem_keys_insert, not_or]
  · rcases List.mem_cons.mp hframe with rfl | hframe
    · exact mem_files_of_linksOf hlinks htarget
    · exact h.pending_isFile frame hframe target htarget

/-- A pending file may be dropped. -/
theorem Listed.dropPending (front : List Frame) {path target : Text} {pending : List Text}
    {rest : List Frame}
    (h : Listed setting unreached (front ++ ⟨path, target :: pending⟩ :: rest) graph) :
    Listed setting unreached (front ++ ⟨path, pending⟩ :: rest) graph := by
  refine ⟨h.nodup, h.mem_iff, fun frame hframe file hfile => ?_⟩
  rcases List.mem_append.mp hframe with hframe | hframe
  · exact h.pending_isFile frame (List.mem_append_left _ hframe) file hfile
  · rcases List.mem_cons.mp hframe with rfl | hframe
    · exact h.pending_isFile ⟨path, target :: pending⟩ (List.mem_append_right _ List.mem_cons_self)
        file (List.mem_cons_of_mem _ hfile)
    · exact h.pending_isFile frame (List.mem_append_right _ (List.mem_cons_of_mem _ hframe)) file hfile

/-- **The search unwinds its stack.** -/
theorem Listed.unwinds_search (h : Listed setting unreached stack graph) (cache : Module.Cache) :
    Unwinds setting stack graph cache ((search setting unreached stack graph).start cache) := by
  -- the cases are those of the search: nothing left, a file complete, a file new, a file known
  induction unreached, stack, graph using search.induct generalizing cache with
  | case1 unreached graph =>
    rw [search]
    exact .empty graph cache
  | case2 unreached graph path rest ih =>
    rw [search]
    have hrest : Listed setting unreached rest (graph.complete path) :=
      ⟨h.nodup, h.mem_iff, fun frame hframe => h.pending_isFile frame (List.mem_cons_of_mem _ hframe)⟩
    exact .completed (.done graph cache) (ih hrest cache)
  | case3 unreached graph path target pending rest hmem ih =>
    have hfile := h.pending_isFile _ List.mem_cons_self target List.mem_cons_self
    have hnew := (h.mem_iff target hfile).mp hmem
    rw [search, dif_pos hmem, start_bind]
    rcases hreach : (reach setting graph target).start cache with ⟨stop | ⟨reached, imports⟩, between⟩
    · exact .stopped (.unreached hnew hreach)
    · obtain ⟨found, links, hlinks, rfl, rfl⟩ := exists_enter_of_start_reach hreach
      have hentered := h.enter hlinks
      have hlisted := hentered.dropPending [_]
      exact (ih _ _ hlisted between).follow hnew hreach
  | case4 unreached graph path target pending rest hmem ih =>
    rw [search, dif_neg hmem]
    have hfile := h.pending_isFile _ List.mem_cons_self target List.mem_cons_self
    have hknown : target ∈ graph.modules.keys := by
      by_contra hnew
      exact hmem ((h.mem_iff target hfile).mpr hnew)
    exact (ih (h.dropPending []) cache).pass hknown

end Listed

/-! ## §4. The search from an entry -/

theorem listed_nil (setting : Setting) (externals : Table Text) :
    Listed setting (setting.tree.files.map Prod.fst) [] { externals } :=
  ⟨setting.tree.nodup_files, fun _ hpath => ⟨fun _ => List.not_mem_nil, fun _ => hpath⟩,
    fun _ hframe => absurd hframe List.not_mem_nil⟩

/-- The search from an entry ends as the recursive one does. -/
theorem explores_collect (setting : Setting) (entry : Text) (cache : Module.Cache) :
    Explores setting entry cache ((collect setting entry).start cache) := by
  have hnew : ∀ externals, entry ∉ ({ externals } : Graph).modules.keys := fun _ => List.not_mem_nil
  unfold collect
  rw [start_bind, start_resolved]
  cases hown : ownExternals setting.config entry with
  | error fault => exact .unknownExternal hown
  | ok externals =>
    refine .visited hown ?_
    -- the entry is reached outside of the stack, and is the only target of the recursive search
    show Visits setting [entry] { externals } cache (Walk.start (reach _ _ _ >>= _) cache)
    rw [start_bind]
    rcases hreach : (reach setting { externals } entry).start cache with
      ⟨stop | ⟨reached, imports⟩, between⟩
    · exact .unreached (hnew externals) hreach
    · obtain ⟨found, links, hlinks, rfl, rfl⟩ := exists_enter_of_start_reach hreach
      have hlisted := (listed_nil setting externals).enter hlinks
      have hunwinds := hlisted.unwinds_search between
      dsimp only
      generalize (search setting ((setting.tree.files.map Prod.fst).erase entry) _ _).start between
        = outcome at hunwinds ⊢
      cases hunwinds with
      | stopped hpending => exact .stopped (hnew externals) hreach hpending
      | completed hpending hrest =>
        cases hrest
        exact .followed (hnew externals) hreach hpending (.done _ _)

/-- **The search ends on every input, and as the recursive search does.** -/
theorem explores_iff {entry : Text} {cache : Module.Cache}
    {outcome : Except Stop Graph × Module.Cache} :
    Explores setting entry cache outcome ↔ (collect setting entry).start cache = outcome := by
  constructor
  · intro h
    exact (explores_collect setting entry cache).unique h
  · intro h
    rw [← h]
    exact explores_collect setting entry cache

/-- A plan is made from the entry that is selected. -/
theorem start_plan (setting : Setting) (wanted? : Option Text) (cache : Module.Cache) :
    (plan setting wanted?).start cache =
      match selectEntry setting.tree setting.config wanted? with
      | .error fault => (.error (.error (.resolution fault)), cache)
      | .ok entry =>
        match (collect setting entry).start cache with
        | (.ok graph, cache) => (.ok (entry, graph), cache)
        | (.error stop, cache) => (.error stop, cache) := by
  unfold plan
  rw [start_bind, start_resolved]
  cases selectEntry setting.tree setting.config wanted? with
  | error fault => rfl
  | ok entry =>
    show Walk.start (collect setting entry >>= _) cache = _
    rw [start_bind]
    dsimp only
    rcases (collect setting entry).start cache with ⟨stop | graph, after⟩ <;> rfl

/-- What a plan that succeeds has explored. -/
theorem explores_of_plan {wanted? : Option Text} {cache : Module.Cache} {entry : Text} {graph : Graph}
    (hplan : ((plan setting wanted?).start cache).1 = .ok (entry, graph)) :
    selectEntry setting.tree setting.config wanted? = .ok entry
      ∧ ∃ below, Explores setting entry cache (.ok graph, below) := by
  rw [start_plan] at hplan
  cases hselect : selectEntry setting.tree setting.config wanted? with
  | error fault =>
    rw [hselect] at hplan
    cases hplan
  | ok selected =>
    rw [hselect] at hplan
    have hexplores := explores_collect setting selected cache
    dsimp only at hplan
    rcases hcollect : (collect setting selected).start cache with ⟨stop | found, below⟩
    · rw [hcollect] at hplan
      cases hplan
    · rw [hcollect] at hplan hexplores
      cases hplan
      exact ⟨rfl, below, hexplores⟩

/-! ## §5. The order of a graph -/

/-- A graph has grown by files that were not in it: each has a module and is complete. -/
structure Graph.GrowsBy (graph after : Graph) (added : List Text) : Prop where
  order_eq : after.order = graph.order ++ added
  nodup : added.Nodup
  fresh : ∀ path ∈ added, path ∉ graph.modules.keys
  mem_keys_iff : ∀ path, path ∈ after.modules.keys ↔ path ∈ graph.modules.keys ∨ path ∈ added

theorem Graph.growsBy_nil (graph : Graph) : graph.GrowsBy graph [] :=
  ⟨(List.append_nil _).symm, .nil, fun _ hpath => absurd hpath List.not_mem_nil, by simp⟩

/-- A file that is reached is complete behind the files that are added beneath it. -/
theorem Graph.GrowsBy.complete {graph beneath : Graph} {path : Text} {found : Module} {links : Links}
    {added : List Text} (h : (graph.enter path found links).GrowsBy beneath added)
    (hnew : path ∉ graph.modules.keys) :
    graph.GrowsBy (beneath.complete path) (added ++ [path]) := by
  have hkeys : ∀ other, other ∈ (graph.enter path found links).modules.keys
      ↔ other = path ∨ other ∈ graph.modules.keys := fun other => Table.mem_keys_insert
  refine ⟨?_, ?_, fun other hother => ?_, fun other => ?_⟩
  · show beneath.order ++ [path] = _
    rw [h.order_eq, List.append_assoc]
    rfl
  · rw [List.nodup_append]
    refine ⟨h.nodup, List.nodup_singleton path, fun other hother last hlast heq => ?_⟩
    rw [List.mem_singleton] at hlast
    exact h.fresh other hother ((hkeys other).mpr (.inl (heq.trans hlast)))
  · rcases List.mem_append.mp hother with hother | hother
    · intro hmem
      exact h.fresh other hother ((hkeys other).mpr (.inr hmem))
    · rw [List.mem_singleton.mp hother]
      exact hnew
  · show other ∈ beneath.modules.keys ↔ _
    rw [h.mem_keys_iff, hkeys, List.mem_append, List.mem_singleton]
    tauto

theorem Graph.GrowsBy.append {graph between after : Graph} {first second : List Text}
    (h : graph.GrowsBy between first) (h' : between.GrowsBy after second) :
    graph.GrowsBy after (first ++ second) := by
  refine ⟨?_, ?_, fun path hpath => ?_, fun path => ?_⟩
  · rw [h'.order_eq, h.order_eq, List.append_assoc]
  · rw [List.nodup_append]
    refine ⟨h.nodup, h'.nodup, fun path hpath other hother heq => ?_⟩
    exact h'.fresh other hother ((h.mem_keys_iff other).mpr (.inr (heq ▸ hpath)))
  · rcases List.mem_append.mp hpath with hpath | hpath
    · exact h.fresh path hpath
    · intro hmem
      exact h'.fresh path hpath ((h.mem_keys_iff path).mpr (.inl hmem))
  · rw [h'.mem_keys_iff, h.mem_keys_iff, List.mem_append, or_assoc]

/-- **Visiting files adds those that it reaches, each once.** -/
theorem Visits.grows {targets : List Text} {graph after : Graph} {cache below : Module.Cache}
    (h : Visits setting targets graph cache (.ok after, below)) :
    ∃ added, graph.GrowsBy after added := by
  generalize houtcome : ((.ok after, below) : Except Stop Graph × Module.Cache) = outcome at h
  induction h generalizing after below with
  | done graph cache =>
    cases houtcome
    exact ⟨[], graph.growsBy_nil⟩
  | known _ _ ih => exact ih houtcome
  | unreached _ _ => cases houtcome
  | stopped _ _ _ _ => cases houtcome
  | followed hnew hreach _ _ ihbeneath ihrest =>
    obtain ⟨found, links, -, rfl, -⟩ := exists_enter_of_start_reach hreach
    obtain ⟨first, hfirst⟩ := ihbeneath rfl
    obtain ⟨second, hsecond⟩ := ihrest houtcome
    exact ⟨_, (hfirst.complete hnew).append hsecond⟩

/-- The graph of an entry lists every file once, the entry last. -/
theorem Explores.order {entry : Text} {graph : Graph} {cache below : Module.Cache}
    (h : Explores setting entry cache (.ok graph, below)) :
    graph.order.Nodup ∧ graph.order.getLast? = some entry := by
  cases h with
  | visited _ hvisits =>
    cases hvisits with
    | known hknown _ => exact absurd hknown List.not_mem_nil
    | followed hnew hreach hbeneath hrest =>
      obtain ⟨found, links, -, rfl, -⟩ := exists_enter_of_start_reach hreach
      obtain ⟨added, hadded⟩ := hbeneath.grows
      have hcomplete := hadded.complete hnew
      -- nothing is left to visit behind the entry
      cases hrest
      rw [hcomplete.order_eq]
      exact ⟨hcomplete.nodup, List.getLast?_concat⟩

end LivePreview.Preview
