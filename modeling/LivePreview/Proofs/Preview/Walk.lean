/-
  LivePreview.Proofs.Preview.Walk
  ───────────────────────────────
  **The search for modules does not depend on what the cache holds.**

  A walk is *steady* if it answers from every sound cache what it answers from a new
  one, and leaves a sound cache behind.  Steady walks are closed under the operations
  they are made of (`Steady.bind`); the search is one (`steady_plan`), by induction
  along its own recursion.  So its answer can be computed without a cache
  (`Walk.answer`), step by step (`Steady.answer_bind`).
-/
import LivePreview.Preview.Build
import LivePreview.Proofs.Module.Cache

namespace LivePreview.Preview

open LivePreview.Lowering (Options Parser)

variable {parser : Parser} {options : Options} {α β : Type}

/-! ## §1. Steady walks -/

/-- The answer of a walk and the cache behind it. -/
def Walk.start (walk : Walk α) (cache : Module.Cache) : Except Stop α × Module.Cache :=
  walk.run.run cache

/-- What a walk answers from a cache without entries. -/
def Walk.answer (options : Options) (walk : Walk α) : Except Stop α :=
  (walk.start (.new options)).1

/-- From every sound cache the walk answers the same, and it leaves a sound cache behind. -/
def Walk.Steady (parser : Parser) (options : Options) (walk : Walk α) : Prop :=
  ∀ cache, cache.Sound parser options →
    (walk.start cache).1 = walk.answer options ∧ (walk.start cache).2.Sound parser options

theorem start_bind (walk : Walk α) (next : α → Walk β) (cache : Module.Cache) :
    (walk >>= next).start cache =
      match walk.start cache with
      | (.ok a, cache) => (next a).start cache
      | (.error stop, cache) => (.error stop, cache) := by
  show (walk >>= next).run.run cache = _
  rw [ExceptT.run_bind, StateT.run_bind]
  show _ = match walk.run.run cache with
    | (.ok a, cache) => (next a).start cache
    | (.error stop, cache) => (.error stop, cache)
  rcases walk.run.run cache with ⟨answer, after⟩
  cases answer <;> rfl

@[simp] theorem answer_pure (a : α) : (pure a : Walk α).answer options = .ok a :=
  rfl

theorem steady_pure (a : α) : (pure a : Walk α).Steady parser options :=
  fun _ hcache => ⟨rfl, hcache⟩

theorem steady_throw (stop : Stop) : (throw stop : Walk α).Steady parser options :=
  fun _ hcache => ⟨rfl, hcache⟩

/-- The answer of a steady walk and of what follows it is computed without the cache. -/
theorem Walk.Steady.answer_bind {walk : Walk α} {next : α → Walk β}
    (hwalk : walk.Steady parser options) (hnext : ∀ a, (next a).Steady parser options) :
    (walk >>= next).answer options = walk.answer options >>= fun a => (next a).answer options := by
  have hnew := hwalk _ (Module.Cache.sound_new parser options)
  have hbind := start_bind walk next (.new options)
  unfold Walk.answer at hnew ⊢
  rw [hbind]
  rcases hstart : walk.start (.new options) with ⟨answer, cache⟩
  rw [hstart] at hnew
  cases answer with
  | error stop => rfl
  | ok a => exact (hnext a cache hnew.2).1

theorem Walk.Steady.bind {walk : Walk α} {next : α → Walk β}
    (hwalk : walk.Steady parser options) (hnext : ∀ a, (next a).Steady parser options) :
    (walk >>= next).Steady parser options := by
  intro cache hcache
  rw [hwalk.answer_bind hnext, start_bind]
  obtain ⟨hanswer, hsound⟩ := hwalk cache hcache
  rcases hstart : walk.start cache with ⟨answer, after⟩
  rw [hstart] at hanswer hsound
  rw [← hanswer]
  cases answer with
  | error stop => exact ⟨rfl, hsound⟩
  | ok a => exact hnext a after hsound

/-! ## §2. The steps of the search -/

theorem steady_resolved (result : Except ResolutionFault α) :
    (resolved result).Steady parser options := by
  cases result with
  | ok a => exact steady_pure a
  | error fault => exact steady_throw _

/-- A resolution as an answer. -/
def settled (result : Except ResolutionFault α) : Except Stop α :=
  result.mapError fun fault => .error (.resolution fault)

@[simp] theorem answer_resolved (result : Except ResolutionFault α) :
    (resolved result).answer options = settled result := by
  cases result <;> rfl

/-- The module of a file as a cache without entries makes it. -/
def freshModule (parser : Parser) (options : Options) (tree : Tree) (path : Text) :
    Except Module.Failure Module :=
  ((Module.Cache.new options).moduleAt parser tree path).1

/-- The module of a script is what its source is lowered to. -/
theorem freshModule_of_lower {tree : Tree} {path : Text} {dialect : Lowering.Dialect}
    {source : String} {lowered : Lowering.LoweredModule}
    (hread : tree.read path = .ok (.text source))
    (hscript : Module.ofContent parser options (Path.normalize path) (.text source)
      = Module.ofScript parser options (Path.normalize path) dialect source)
    (hlower : Lowering.lower parser dialect options source = .ok lowered) :
    freshModule parser options tree path
      = .ok ⟨Path.normalize path, .script, lowered.code, lowered.imports, lowered.sites⟩ := by
  unfold freshModule Module.Cache.moduleAt
  rw [hread]
  dsimp only
  rw [((Module.Cache.sound_new parser options).moduleOf _ _).1, hscript]
  unfold Module.ofScript
  rw [hlower]
  rfl

theorem start_transform (setting : Setting) (path : Text) (cache : Module.Cache) :
    (transform setting path).start cache
      = ((cache.moduleAt setting.parser setting.tree path).1.mapError .ofFailure,
          (cache.moduleAt setting.parser setting.tree path).2) := by
  have hget : (getThe Module.Cache : Walk Module.Cache).start cache = (.ok cache, cache) := rfl
  have hset : ∀ after, (set after : Walk PUnit).start cache = (.ok ⟨⟩, after) := fun _ => rfl
  unfold transform
  rw [start_bind, hget]
  dsimp only
  rcases cache.moduleAt setting.parser setting.tree path with ⟨result, after⟩
  rw [start_bind, hset]
  cases result <;> rfl

section Setting

variable {setting : Setting} (htexts : setting.tree.HoldsTexts)
include htexts

theorem steady_transform (path : Text) :
    (transform setting path).Steady setting.parser options := by
  intro cache hcache
  unfold Walk.answer
  rw [start_transform, start_transform]
  obtain ⟨hanswer, hsound⟩ := hcache.moduleAt htexts path
  exact ⟨by rw [hanswer], hsound⟩

omit htexts in
theorem answer_transform (path : Text) :
    (transform setting path).answer options
      = (freshModule setting.parser options setting.tree path).mapError .ofFailure := by
  unfold Walk.answer freshModule
  rw [start_transform]

theorem steady_reach (graph : Graph) (path : Text) :
    (reach setting graph path).Steady setting.parser options :=
  (steady_transform htexts path).bind fun _ => (steady_resolved _).bind fun _ => steady_pure _

theorem steady_search (unreached : List Text) (stack : List Frame) (graph : Graph) :
    (search setting unreached stack graph).Steady setting.parser options := by
  induction unreached, stack, graph using search.induct with
  | case1 unreached graph =>
    rw [search]
    exact steady_pure graph
  | case2 unreached graph path rest ih =>
    rw [search]
    exact ih
  | case3 unreached graph path target pending rest hmem ih =>
    rw [search, dif_pos hmem]
    exact (steady_reach htexts graph target).bind fun reached => ih reached.1 reached.2
  | case4 unreached graph path target pending rest hmem ih =>
    rw [search, dif_neg hmem]
    exact ih

theorem steady_collect (entry : Text) :
    (collect setting entry).Steady setting.parser options :=
  (steady_resolved _).bind fun _ =>
    (steady_reach htexts _ entry).bind fun _ => steady_search htexts _ _ _

/-- Selecting the entry and collecting its modules does not depend on what the cache holds. -/
theorem steady_plan (wanted? : Option Text) :
    (plan setting wanted?).Steady setting.parser options :=
  (steady_resolved _).bind fun entry => (steady_collect htexts entry).bind fun _ => steady_pure _

end Setting

end LivePreview.Preview
