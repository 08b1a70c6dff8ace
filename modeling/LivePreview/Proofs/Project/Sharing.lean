/-
  LivePreview.Proofs.Project.Sharing
  ──────────────────────────────────
  **Whoever asks for a module cache shares the one that listens.**

  A project is *orderly* if every cache that listens to it exists and no two of them have
  the same options (`Orderly`).  In an orderly project the options tell a cache: who asks
  for one gets the one that listens (`Orderly.attachedCache_eq`), and a new one only if
  none does (`attachedCache_of_notMem`).

  So a project stays orderly whatever edits, builds of their own, requests for caches and
  closings follow one another (`Shared.orderly_run`).  None of these touches another
  listener than the cache that it is about: a new cache is put behind all others, and
  closing a cache takes away its only subscription (`Shared.others_perform`).
-/
import LivePreview.Proofs.Project.Edited

namespace LivePreview

open LivePreview.Lowering (Options Parser)
open LivePreview.Preview (Config)

/-! ## §1. What becomes of the options of a cache -/

namespace Module.Cache

variable (cache : Cache)

theorem options_hear (change : Tree.Change) : (cache.hear change).options = cache.options := by
  cases change with
  | created path kind => cases kind <;> rfl
  | modified path => rfl
  | deleted path kind => cases kind <;> rfl
  | renamed path kind newPath => rfl

theorem options_moduleAt (parser : Parser) (tree : Tree) (path : Text) :
    (cache.moduleAt parser tree path).2.options = cache.options := by
  unfold moduleAt
  split
  · unfold moduleOf
    split
    · rfl
    · dsimp only
      split <;> rfl
  · rfl

end Module.Cache

namespace Preview

variable {α β : Type} {setting : Setting}

/-- The walk leaves a cache with the options of the one that it starts from. -/
def Walk.KeepsOptions (walk : Walk α) : Prop :=
  ∀ cache, (walk.start cache).2.options = cache.options

theorem keepsOptions_pure (a : α) : (pure a : Walk α).KeepsOptions :=
  fun _ => rfl

theorem keepsOptions_resolved (result : Except ResolutionFault α) : (resolved result).KeepsOptions := by
  cases result <;> exact fun _ => rfl

theorem Walk.KeepsOptions.bind {walk : Walk α} {next : α → Walk β} (hwalk : walk.KeepsOptions)
    (hnext : ∀ a, (next a).KeepsOptions) : (walk >>= next).KeepsOptions := by
  intro cache
  have hfirst := hwalk cache
  rw [start_bind]
  rcases hstart : walk.start cache with ⟨stop | a, after⟩
  · rw [hstart] at hfirst
    exact hfirst
  · rw [hstart] at hfirst
    exact (hnext a after).trans hfirst

theorem keepsOptions_reach (graph : Graph) (path : Text) : (reach setting graph path).KeepsOptions := by
  refine Walk.KeepsOptions.bind (fun cache => ?_) fun _ =>
    (keepsOptions_resolved _).bind fun _ => keepsOptions_pure _
  rw [start_transform]
  exact cache.options_moduleAt setting.parser setting.tree path

theorem keepsOptions_search (unreached : List Text) (stack : List Frame) (graph : Graph) :
    (search setting unreached stack graph).KeepsOptions := by
  induction unreached, stack, graph using search.induct with
  | case1 unreached graph =>
    rw [search]
    exact keepsOptions_pure graph
  | case2 unreached graph path rest ih =>
    rw [search]
    exact ih
  | case3 unreached graph path target pending rest hmem ih =>
    rw [search, dif_pos hmem]
    exact (keepsOptions_reach graph target).bind fun reached => ih reached.1 reached.2
  | case4 unreached graph path target pending rest hmem ih =>
    rw [search, dif_neg hmem]
    exact ih

theorem keepsOptions_plan (setting : Setting) (wanted? : Option Text) :
    (plan setting wanted?).KeepsOptions :=
  (keepsOptions_resolved _).bind fun _ =>
    ((keepsOptions_resolved _).bind fun _ =>
      (keepsOptions_reach _ _).bind fun _ => keepsOptions_search _ _ _).bind fun _ => keepsOptions_pure _

/-- Whatever a build ends with, its cache has the options that it had. -/
theorem options_buildTree (setting : Setting) (revision : Nat) (registry : Module.Registry)
    (cache : Module.Cache) (wanted? : Option Text) :
    (buildTree setting revision registry cache wanted?).cache.options = cache.options := by
  have hkeeps := keepsOptions_plan setting wanted? cache
  unfold Walk.start at hkeeps
  unfold buildTree
  split
  · next hplan => rwa [hplan] at hkeeps
  · next hplan => rwa [hplan] at hkeeps
  · next hplan =>
    rw [hplan] at hkeeps
    split <;> exact hkeeps

end Preview

namespace Project

/-! ## §2. The caches that listen -/

/-- The options of the caches, by number. -/
def cacheOptions (project : Project) : List Options :=
  project.caches.map (·.options)

/-- The options of the cache that a listener is. -/
def optionsOf? (project : Project) : Listener → Option Options
  | .observer _ => none
  | .cache number => project.cacheOptions[number]?

/-- The options of the caches that listen, in the order of their subscription. -/
def listeningOptions (project : Project) : List Options :=
  project.listeners.filterMap project.optionsOf?

/-- Every cache that listens exists, and no two of them have the same options. -/
structure Orderly (project : Project) : Prop where
  lt_length : ∀ number, .cache number ∈ project.listeners → number < project.cacheOptions.length
  nodup : project.listeningOptions.Nodup

variable {project : Project} {options : Options} {number : Nat}

theorem optionsOf?_cache : project.optionsOf? (.cache number) = project.cacheOptions[number]? :=
  rfl

theorem cacheFor?_eq_some_iff {listener : Listener} :
    project.cacheFor? options listener = some number
      ↔ listener = .cache number ∧ project.optionsOf? listener = some options := by
  cases listener with
  | observer name => simp [cacheFor?]
  | cache other =>
    rw [cacheFor?, optionsOf?, cacheOptions, List.getElem?_map]
    cases hcache : project.caches[other]? with
    | none => simp
    | some cache => by_cases hoptions : cache.options = options <;> simp [hoptions]

theorem mem_listeningOptions_iff :
    options ∈ project.listeningOptions
      ↔ ∃ number, .cache number ∈ project.listeners ∧ project.cacheOptions[number]? = some options := by
  unfold listeningOptions
  rw [List.mem_filterMap]
  constructor
  · rintro ⟨listener, hmem, hoptions⟩
    cases listener with
    | observer name => cases hoptions
    | cache number => exact ⟨number, hmem, hoptions⟩
  · rintro ⟨number, hmem, hoptions⟩
    exact ⟨.cache number, hmem, hoptions⟩

/-- Apart from one subscription of a cache nobody listens who has its options. -/
theorem Orderly.notMem_filterMap_erase (h : project.Orderly) (hmem : .cache number ∈ project.listeners)
    (hoptions : project.cacheOptions[number]? = some options) :
    options ∉ (project.listeners.erase (.cache number)).filterMap project.optionsOf? := by
  have hperm := (List.perm_cons_erase hmem).filterMap project.optionsOf?
  rw [List.filterMap_cons_some (optionsOf?_cache.trans hoptions)] at hperm
  exact (List.nodup_cons.mp (hperm.nodup_iff.mp h.nodup)).1

/-- Two caches that listen are one if their options are. -/
theorem Orderly.eq_of_options (h : project.Orderly) {other : Nat}
    (hnumber : .cache number ∈ project.listeners) (hother : .cache other ∈ project.listeners)
    (hoptions : project.cacheOptions[number]? = some options)
    (hsame : project.cacheOptions[other]? = some options) : number = other := by
  by_contra hne
  have hapart : Listener.cache other ∈ project.listeners.erase (.cache number) :=
    (List.mem_erase_of_ne (by simpa using Ne.symm hne)).mpr hother
  exact h.notMem_filterMap_erase hnumber hoptions (List.mem_filterMap.mpr ⟨_, hapart, hsame⟩)

/-- **Who asks for a cache gets the one that listens.** -/
theorem Orderly.attachedCache_eq (h : project.Orderly) (hmem : .cache number ∈ project.listeners)
    (hoptions : project.cacheOptions[number]? = some options) :
    project.attachedCache options = (number, project) := by
  unfold attachedCache
  split
  · next found hfound =>
    obtain ⟨listener, hlistens, hcache⟩ := List.exists_of_findSome?_eq_some hfound
    obtain ⟨rfl, hsame⟩ := cacheFor?_eq_some_iff.mp hcache
    rw [h.eq_of_options hmem hlistens hoptions hsame]
  · next hnone =>
    have hcache := List.findSome?_eq_none_iff.mp hnone _ hmem
    rw [cacheFor?_eq_some_iff.mpr ⟨rfl, hoptions⟩] at hcache
    cases hcache

/-- A new cache is made only if none with the options listens. -/
theorem attachedCache_of_notMem (h : options ∉ project.listeningOptions) :
    project.attachedCache options = project.newCache options := by
  unfold attachedCache
  split
  · next found hfound =>
    obtain ⟨listener, hlistens, hcache⟩ := List.exists_of_findSome?_eq_some hfound
    obtain ⟨rfl, hsame⟩ := cacheFor?_eq_some_iff.mp hcache
    exact absurd (mem_listeningOptions_iff.mpr ⟨found, hlistens, hsame⟩) h
  · rfl

/-! ## §3. Keeping order -/

/-- Listeners may leave, and caches may change in all but their options. -/
theorem Orderly.of_sublist (h : project.Orderly) {after : Project}
    (hlisteners : after.listeners.Sublist project.listeners)
    (hoptions : after.cacheOptions = project.cacheOptions) : after.Orderly := by
  have hsame : after.optionsOf? = project.optionsOf? := by
    funext listener
    cases listener with
    | observer name => rfl
    | cache number => exact congrArg (·[number]?) hoptions
  refine ⟨fun number hmem => ?_, ?_⟩
  · rw [hoptions]
    exact h.lt_length number (hlisteners.subset hmem)
  · unfold listeningOptions
    rw [hsame]
    exact h.nodup.sublist (hlisteners.filterMap _)

theorem Orderly.observe (h : project.Orderly) (name : Nat) :
    (project.subscribe (.observer name)).Orderly := by
  refine ⟨fun number hmem => ?_, ?_⟩
  · have hmem : Listener.cache number ∈ project.listeners ++ [.observer name] := hmem
    exact h.lt_length number (by simpa using hmem)
  · show ((project.listeners ++ [Listener.observer name]).filterMap project.optionsOf?).Nodup
    rw [List.filterMap_append]
    exact (List.append_nil project.listeningOptions).symm ▸ h.nodup

theorem listeners_newCache (project : Project) (options : Options) :
    (project.newCache options).2.listeners = project.listeners ++ [.cache (project.newCache options).1] :=
  rfl

theorem cacheOptions_newCache (project : Project) (options : Options) :
    (project.newCache options).2.cacheOptions = project.cacheOptions ++ [options] :=
  List.map_append

theorem Orderly.newCache (h : project.Orderly) (hnew : options ∉ project.listeningOptions) :
    (project.newCache options).2.Orderly := by
  have hnumber : (project.newCache options).1 = project.cacheOptions.length := (List.length_map _).symm
  -- a new number makes no difference to those that listen already
  have hold : ∀ listener ∈ project.listeners,
      (project.newCache options).2.optionsOf? listener = project.optionsOf? listener := by
    intro listener hmem
    cases listener with
    | observer name => rfl
    | cache number =>
      rw [optionsOf?_cache, optionsOf?_cache, cacheOptions_newCache,
        List.getElem?_append_left (h.lt_length number hmem)]
  have hlistening : (project.newCache options).2.listeningOptions = project.listeningOptions ++ [options] := by
    unfold listeningOptions
    rw [listeners_newCache, List.filterMap_append, List.filterMap_congr hold, hnumber]
    refine congrArg (_ ++ ·) (List.filterMap_cons_some ?_)
    rw [optionsOf?_cache, cacheOptions_newCache, List.getElem?_concat_length]
  refine ⟨fun number hmem => ?_, ?_⟩
  · rw [cacheOptions_newCache, List.length_append, List.length_singleton]
    rw [listeners_newCache, List.mem_append, List.mem_singleton] at hmem
    rcases hmem with hmem | hmem
    · exact Nat.lt_succ_of_lt (h.lt_length number hmem)
    · cases hmem
      rw [hnumber]
      exact Nat.lt_succ_self _
  · rw [hlistening]
    exact List.nodup_append_comm.mp (List.nodup_cons.mpr ⟨hnew, h.nodup⟩)

/-- Asking for a cache keeps the order; the cache listens then, and nobody else comes or goes. -/
theorem Orderly.attachedCache (h : project.Orderly) (options : Options) :
    (project.attachedCache options).2.Orderly
      ∧ ((project.attachedCache options).2.listeners = project.listeners
        ∨ (project.attachedCache options).2.listeners
          = project.listeners ++ [.cache (project.attachedCache options).1]) := by
  by_cases hmem : options ∈ project.listeningOptions
  · obtain ⟨number, hlistens, hoptions⟩ := mem_listeningOptions_iff.mp hmem
    rw [h.attachedCache_eq hlistens hoptions]
    exact ⟨h, .inl rfl⟩
  · rw [attachedCache_of_notMem hmem]
    exact ⟨h.newCache hmem, .inr rfl⟩

/-- Who asks for a cache gets one that listens and has the options. -/
theorem Orderly.attachedCache_listens (h : project.Orderly) (options : Options) :
    .cache (project.attachedCache options).1 ∈ (project.attachedCache options).2.listeners
      ∧ (project.attachedCache options).2.cacheOptions[(project.attachedCache options).1]?
        = some options := by
  by_cases hmem : options ∈ project.listeningOptions
  · obtain ⟨number, hlistens, hoptions⟩ := mem_listeningOptions_iff.mp hmem
    rw [h.attachedCache_eq hlistens hoptions]
    exact ⟨hlistens, hoptions⟩
  · have hnumber : (project.newCache options).1 = project.cacheOptions.length := (List.length_map _).symm
    rw [attachedCache_of_notMem hmem, listeners_newCache, cacheOptions_newCache, hnumber]
    exact ⟨List.mem_append_right _ List.mem_cons_self, List.getElem?_concat_length⟩

theorem cacheOptions_modify (project : Project) (number : Nat) {f : Module.Cache → Module.Cache}
    (hf : ∀ cache, (f cache).options = cache.options) :
    ({ project with caches := project.caches.modify number f } : Project).cacheOptions
      = project.cacheOptions := by
  unfold cacheOptions
  refine List.ext_getElem? fun other => ?_
  rw [List.getElem?_map, List.getElem?_map, List.getElem?_modify]
  cases project.caches[other]? with
  | none => rfl
  | some cache => by_cases hother : number = other <;> simp [hother, hf]

theorem cacheOptions_tell (project : Project) (change : Tree.Change) (listener : Listener) :
    (project.tell change listener).cacheOptions = project.cacheOptions := by
  cases listener with
  | observer name => rfl
  | cache number => exact cacheOptions_modify project number fun cache => cache.options_hear change

theorem cacheOptions_performEdit (project : Project) (edit : Tree.Edit) :
    (project.performEdit edit).cacheOptions = project.cacheOptions := by
  rw [performEdit_eq_announce]
  cases project.tree.attempt edit with
  | error error => rfl
  | ok outcome =>
    let replaced : Project := { project with tree := outcome.tree }
    exact announce_preserves (P := fun told => told.cacheOptions = project.cacheOptions)
      (fun told change listener h => (cacheOptions_tell told change listener).trans h) (fun _ h => h)
      (show replaced.cacheOptions = project.cacheOptions from rfl) outcome.changes?

theorem cacheOptions_setCache {cache : Module.Cache} (h : cache.options = (project.cacheAt number).options) :
    (project.setCache number cache).cacheOptions = project.cacheOptions := by
  unfold cacheOptions setCache
  refine List.ext_getElem? fun other => ?_
  rw [List.getElem?_map, List.getElem?_map, List.getElem?_set]
  by_cases hother : number = other
  · subst hother
    unfold cacheAt at h
    cases hcache : project.caches[number]? with
    | none => simp [List.getElem?_eq_none_iff.mp hcache]
    | some before =>
      rw [hcache] at h
      simp [(List.getElem?_eq_some_iff.mp hcache).1, h]
  · rw [if_neg hother]

theorem Orderly.closeCache (h : project.Orderly) (number : Nat) : (project.closeCache number).Orderly :=
  h.of_sublist List.erase_sublist
    (cacheOptions_modify (project.unsubscribe (.cache number)) number fun _ => rfl)

/-- A cache that is closed does not listen any more. -/
theorem Orderly.notMem_closeCache (h : project.Orderly) (number : Nat) :
    .cache number ∉ (project.closeCache number).listeners := by
  intro hmem
  have hmem : Listener.cache number ∈ project.listeners.erase (.cache number) := hmem
  have hlistens := List.mem_of_mem_erase hmem
  have hoptions := List.getElem?_eq_getElem (h.lt_length number hlistens)
  -- a second subscription would have the options of the first one
  exact h.notMem_filterMap_erase hlistens hoptions (List.mem_filterMap.mpr ⟨_, hmem, hoptions⟩)

/-- A build of its own keeps the order, as asking for its cache does. -/
theorem Orderly.buildOnce (h : project.Orderly) (parser : Parser) (config : Config)
    (wanted? : Option Text) :
    (Preview.buildOnce parser config project wanted?).2.Orderly
      ∧ (Preview.buildOnce parser config project wanted?).2.listeners
        = (project.attachedCache {}).2.listeners := by
  have hattached := (h.attachedCache {}).1
  refine ⟨?_, rfl⟩
  refine hattached.of_sublist (List.Sublist.refl _) ?_
  exact cacheOptions_setCache (Preview.options_buildTree _ _ _ _ _)

end Project

/-! ## §4. Runs -/

/-- A project and the numbers of the caches that somebody has got. -/
structure Shared where
  project : Project
  taken : List Nat := []

namespace Shared

open Project (Orderly)

/-- What may be done with a project whose module caches are shared. -/
inductive Action where
  | edit (edit : Tree.Edit)
  /-- An observer subscribes. -/
  | observe (name : Nat)
  /-- An observer takes a subscription back. -/
  | ignore (name : Nat)
  /-- Somebody asks for a cache. -/
  | attach (options : Options)
  /-- A build of its own, which asks for the usual cache. -/
  | build (config : Config) (wanted? : Option Text)
  /-- A cache that somebody has got is closed. -/
  | close (number : Nat)

/-- What is behind an action; nobody can close a cache that nobody has got. -/
def perform (parser : Parser) (shared : Shared) : Action → Shared
  | .edit edit => { shared with project := shared.project.performEdit edit }
  | .observe name => { shared with project := shared.project.subscribe (.observer name) }
  | .ignore name => { shared with project := shared.project.unsubscribe (.observer name) }
  | .attach options =>
    let (number, project) := shared.project.attachedCache options
    ⟨project, number :: shared.taken⟩
  | .build config wanted? =>
    ⟨(Preview.buildOnce parser config shared.project wanted?).2,
      (shared.project.attachedCache {}).1 :: shared.taken⟩
  | .close number =>
    if number ∈ shared.taken then { shared with project := shared.project.closeCache number } else shared

/-- What is behind a run of actions. -/
def run (parser : Parser) (shared : Shared) (actions : List Action) : Shared :=
  actions.foldl (perform parser) shared

/-- The numbers of the caches that an action is about. -/
def concerned (shared : Shared) : Action → List Nat
  | .attach options => [(shared.project.attachedCache options).1]
  | .build _ _ => [(shared.project.attachedCache {}).1]
  | .close number => if number ∈ shared.taken then [number] else []
  | _ => []

/-- The listener is none of the caches with some numbers. -/
def isOther (taken : List Nat) : Listener → Bool
  | .observer _ => true
  | .cache number => !taken.contains number

/-- The listeners apart from the caches with some numbers, in the order of their subscription. -/
def others (taken : List Nat) (project : Project) : List Listener :=
  project.listeners.filter (isOther taken)

/-- What an action does to the listeners that it is not about. -/
def onOthers (listeners : List Listener) : Action → List Listener
  | .observe name => listeners ++ [.observer name]
  | .ignore name => listeners.erase (.observer name)
  | _ => listeners

variable {parser : Parser} {shared : Shared} {taken : List Nat}

theorem orderly_perform (h : shared.project.Orderly) (action : Action) :
    (shared.perform parser action).project.Orderly := by
  cases action with
  | edit edit =>
    refine h.of_sublist ?_ (Project.cacheOptions_performEdit _ edit)
    exact Project.listeners_performEdit shared.project edit ▸ List.Sublist.refl _
  | observe name => exact h.observe name
  | ignore name => exact h.of_sublist List.erase_sublist rfl
  | attach options => exact (h.attachedCache options).1
  | build config wanted? => exact (h.buildOnce parser config wanted?).1
  | close number =>
    rw [perform]
    split
    · exact h.closeCache number
    · exact h

theorem taken_subset_perform (shared : Shared) (action : Action) :
    shared.taken ⊆ (shared.perform parser action).taken := by
  cases action with
  | attach options => exact List.subset_cons_self _ _
  | build config wanted? => exact List.subset_cons_self _ _
  | close number =>
    rw [perform]
    split <;> exact List.Subset.refl _
  | _ => exact List.Subset.refl _

theorem taken_subset_run (shared : Shared) (actions : List Action) :
    shared.taken ⊆ (shared.run parser actions).taken := by
  unfold run
  induction actions generalizing shared with
  | nil => exact List.Subset.refl _
  | cons action actions ih => exact List.Subset.trans (taken_subset_perform shared action) (ih _)

theorem orderly_run (h : shared.project.Orderly) (actions : List Action) :
    (shared.run parser actions).project.Orderly := by
  unfold run
  induction actions generalizing shared with
  | nil => exact h
  | cons action actions ih => exact ih (orderly_perform h action)

/-! ## §5. Everybody else -/

/-- Taking one member away and choosing members can be done in either order. -/
theorem filter_erase {α : Type} [DecidableEq α] (p : α → Bool) (a : α) (l : List α) :
    (l.erase a).filter p = (l.filter p).erase a := by
  induction l with
  | nil => rfl
  | cons b l ih =>
    by_cases hb : b = a
    · subst hb
      by_cases hp : p b = true
      · rw [List.erase_cons_head, List.filter_cons_of_pos hp, List.erase_cons_head]
      · rw [List.erase_cons_head, List.filter_cons_of_neg hp,
          List.erase_of_not_mem fun hmem => hp (List.mem_filter.mp hmem).2]
    · rw [List.erase_cons_tail (by simpa using hb)]
      by_cases hp : p b = true
      · rw [List.filter_cons_of_pos hp, List.filter_cons_of_pos hp, ih, List.erase_cons_tail (by simpa using hb)]
      · rw [List.filter_cons_of_neg hp, List.filter_cons_of_neg hp, ih]

/-- Asking for a cache brings nobody but that cache. -/
theorem others_attachedCache {project : Project} (h : project.Orderly) {options : Options}
    (hmem : (project.attachedCache options).1 ∈ taken) :
    others taken (project.attachedCache options).2 = others taken project := by
  unfold others
  rcases (h.attachedCache options).2 with hsame | hbehind
  · rw [hsame]
  · rw [hbehind, List.filter_append]
    simp [isOther, hmem]

/-- Closing a cache that somebody has got takes nobody else away. -/
theorem others_closeCache (project : Project) {number : Nat} (hmem : number ∈ taken) :
    others taken (project.closeCache number) = others taken project := by
  show (project.listeners.erase (.cache number)).filter (isOther taken) = _
  rw [filter_erase, List.erase_of_not_mem]
  · rfl
  · simp [isOther, hmem]

/-- **An action touches no listener but the cache that it is about.** -/
theorem others_perform (h : shared.project.Orderly) (action : Action)
    (hconcerned : shared.concerned action ⊆ taken) :
    others taken (shared.perform parser action).project
      = onOthers (others taken shared.project) action := by
  cases action with
  | edit edit => exact congrArg (List.filter _) (Project.listeners_performEdit _ edit)
  | observe name =>
    show (shared.project.listeners ++ [Listener.observer name]).filter (isOther taken) = _
    rw [List.filter_append]
    rfl
  | ignore name => exact filter_erase _ _ _
  | attach options => exact others_attachedCache h (hconcerned List.mem_cons_self)
  | build config wanted? =>
    refine Eq.trans ?_ (others_attachedCache h (hconcerned List.mem_cons_self))
    exact congrArg (List.filter _) (h.buildOnce parser config wanted?).2
  | close number =>
    rw [concerned] at hconcerned
    rw [perform]
    split
    · next hmem =>
      rw [if_pos hmem] at hconcerned
      exact others_closeCache _ (hconcerned List.mem_cons_self)
    · rfl

theorem concerned_subset_perform (shared : Shared) (action : Action) :
    shared.concerned action ⊆ (shared.perform parser action).taken := by
  cases action with
  | attach options => exact List.cons_subset_cons _ (List.nil_subset _)
  | build config wanted? => exact List.cons_subset_cons _ (List.nil_subset _)
  | close number =>
    rw [concerned, perform]
    split
    · next hmem => exact List.cons_subset.mpr ⟨hmem, List.nil_subset _⟩
    · exact List.nil_subset _
  | _ => exact List.nil_subset _

theorem others_run (h : shared.project.Orderly) (actions : List Action)
    (htaken : (shared.run parser actions).taken ⊆ taken) :
    others taken (shared.run parser actions).project
      = actions.foldl onOthers (others taken shared.project) := by
  unfold run at htaken ⊢
  induction actions generalizing shared with
  | nil => rfl
  | cons action actions ih =>
    have hlater := List.Subset.trans (taken_subset_run _ actions) htaken
    rw [List.foldl_cons, List.foldl_cons, ih (orderly_perform h action) htaken,
      others_perform h action (List.Subset.trans (concerned_subset_perform shared action) hlater)]

/-! ## §6. Behind every run -/

/-- Behind every run that starts in order: at most one cache listens for each way of lowering; who asks
for a cache gets the one that listens, and a new one only if none does, which listens from then on; a
cache that is closed does not listen any more; the next action touches no listener but the cache that it is about; and the listeners
that nobody has got by asking are those of the start, as often and in the same order, but for the
observers that have come and gone. -/
theorem shared_of_run (parser : Parser) {start : Project} (hstart : start.Orderly)
    (actions : List Action) :
    let shared := run parser { project := start } actions
    shared.project.Orderly
      ∧ (∀ options, shared.project.listeners.countP
          (fun listener => shared.project.optionsOf? listener == some options) ≤ 1)
      ∧ (∀ number options, .cache number ∈ shared.project.listeners →
        shared.project.cacheOptions[number]? = some options →
          shared.project.attachedCache options = (number, shared.project))
      ∧ (∀ options, options ∉ shared.project.listeningOptions →
        shared.project.attachedCache options = shared.project.newCache options)
      ∧ (∀ options, .cache (shared.project.attachedCache options).1
          ∈ (shared.project.attachedCache options).2.listeners
        ∧ (shared.project.attachedCache options).2.cacheOptions[(shared.project.attachedCache options).1]?
          = some options)
      ∧ (∀ number, .cache number ∉ (shared.project.closeCache number).listeners)
      ∧ (∀ action, others (shared.concerned action) (shared.perform parser action).project
          = onOthers (others (shared.concerned action) shared.project) action)
      ∧ others shared.taken shared.project = actions.foldl onOthers (others shared.taken start) := by
  intro shared
  have horderly : shared.project.Orderly := orderly_run hstart actions
  refine ⟨horderly, fun options => ?_, fun number options => horderly.attachedCache_eq,
    fun options => Project.attachedCache_of_notMem, horderly.attachedCache_listens,
    horderly.notMem_closeCache,
    fun action => others_perform horderly action (List.Subset.refl _),
    others_run hstart actions (List.Subset.refl _)⟩
  rw [← List.count_filterMap]
  exact List.nodup_iff_count_le_one.mp horderly.nodup options

/-- A file is written and built, two caches are asked for, and the first one is closed before the next
build; in between an observer subscribes a second time and leaves once. -/
def lendingActions : List Action :=
  [.edit (.createFile "/a.css" "p\x7b\x7d"), .build { mountsEntry := false } (some "/a.css"), .attach {},
    .observe 7, .attach { fragment := "Fragment" }, .close 0, .ignore 7,
    .build { mountsEntry := false } (some "/a.css")]

/-- The observer stays through that run, and asking for one of the caches brings no second one. -/
theorem shared_of_run_lending :
    (({} : Project).subscribe (.observer 7)).Orderly ∧
    let shared := run (Lowering.parserOf []) { project := ({} : Project).subscribe (.observer 7) }
      lendingActions
    (∀ options, shared.project.listeners.countP
        (fun listener => shared.project.optionsOf? listener == some options) ≤ 1)
      ∧ others shared.taken shared.project = [.observer 7] := by
  have hempty : ({} : Project).Orderly := ⟨fun _ hmem => absurd hmem List.not_mem_nil, List.nodup_nil⟩
  have hstart := hempty.observe 7
  obtain ⟨-, hone, -, -, -, -, -, hothers⟩ := shared_of_run (Lowering.parserOf []) hstart lendingActions
  exact ⟨hstart, hone, hothers⟩

end Shared

end LivePreview
