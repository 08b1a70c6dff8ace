/-
  LivePreview.Proofs.Preview.Incremental
  ──────────────────────────────────────
  **Incremental builds agree with builds from scratch.**

  What a build answers depends on the tree and the configuration alone, apart from the
  revision it is stamped with: not on what the module cache holds, as long as it is
  sound, and not on the references that are live (`answer_buildTree`).  So behind every
  run of a project a build answers what it answers for a new project with the tree that
  is read back from the snapshot (`build_run_eq_build_snapshot`).
-/
import LivePreview.Lowering.Parsed
import LivePreview.Proofs.Project.Run

namespace LivePreview.Preview

open LivePreview.Lowering (Options Parser)
open LivePreview.Module (Registry)

/-! ## §1. Results without their revision -/

/-- A document without the revision it was made from. -/
def Document.unstamped (document : Document) : Document :=
  { document with revision := 0 }

/-- A result without the revision it was made from. -/
def BuildResult.unstamped (result : BuildResult) : BuildResult :=
  ⟨result.outcome.map Document.unstamped, 0⟩

/-! ## §2. What an answer depends on -/

/-- The references that are given out do not depend on those that are live. -/
theorem answer_publish (graph : Graph) (paths : List Text) (references : Table String)
    (registry other : Registry) :
    (publish graph paths (references, registry)).1 = (publish graph paths (references, other)).1 := by
  induction paths generalizing references registry other with
  | nil => rfl
  | cons path paths ih =>
    unfold publish
    split
    · exact ih _ _ _
    · rfl

/-- A document depends on the revision only by its stamp. -/
theorem unstamped_documentWith (config : Config) (entry : Text) (revision other : Nat)
    (graph : Graph) (references : Table String) :
    (documentWith config entry revision graph references).map Document.unstamped
      = (documentWith config entry other graph references).map Document.unstamped := by
  unfold documentWith
  split <;> rfl

theorem unstamped_documentOf (config : Config) (entry : Text) (revision other : Nat)
    (graph : Graph) (registry : Registry) :
    (documentOf config entry revision graph registry).1.map Document.unstamped
      = (documentOf config entry other graph .empty).1.map Document.unstamped := by
  have hpublish := answer_publish graph graph.order [] registry .empty
  unfold documentOf
  dsimp only
  rw [hpublish]
  cases (publish graph graph.order ([], Registry.empty)).1 with
  | error breakdown => rfl
  | ok references => exact unstamped_documentWith config entry revision other graph references

/-- What becomes of a plan. -/
def conclude (config : Config) (revision : Nat) (registry : Registry) :
    Except Stop (Text × Graph) → Except Breakdown BuildResult
  | .error (.breakdown breakdown) => .error breakdown
  | .error (.error error) => .ok ⟨.error error, revision⟩
  | .ok (entry, graph) =>
    (documentOf config entry revision graph registry).1.map fun document =>
      ⟨.ok document, revision⟩

/-- A build follows its plan. -/
theorem answer_buildTree (setting : Setting) (revision : Nat) (registry : Registry)
    (cache : Module.Cache) (wanted? : Option Text) :
    (buildTree setting revision registry cache wanted?).answer
      = conclude setting.config revision registry ((plan setting wanted?).start cache).1 := by
  unfold Walk.start buildTree
  rcases (plan setting wanted?).run.run cache with ⟨stop | ⟨entry, graph⟩, after⟩
  · cases stop <;> rfl
  · dsimp only [conclude]
    rcases documentOf setting.config entry revision graph registry with ⟨breakdown | document, live⟩
    · rfl
    · rfl

theorem unstamped_conclude (config : Config) (revision other : Nat) (registry : Registry)
    (planned : Except Stop (Text × Graph)) :
    (conclude config revision registry planned).map BuildResult.unstamped
      = (conclude config other .empty planned).map BuildResult.unstamped := by
  rcases planned with (error | breakdown) | ⟨entry, graph⟩
  · rfl
  · rfl
  · have hmap : ∀ (made : Except Breakdown Document) (stamp : Nat),
        (made.map fun document => (⟨.ok document, stamp⟩ : BuildResult)).map BuildResult.unstamped
          = (made.map Document.unstamped).map fun document => ⟨.ok document, 0⟩ := by
      intro made stamp
      cases made <;> rfl
    unfold conclude
    rw [hmap, hmap, unstamped_documentOf config entry revision other graph registry]

/-- By way of a sound cache a build answers what it answers by way of a new one. -/
theorem unstamped_buildTree {setting : Setting} {options : Options}
    (htexts : setting.tree.HoldsTexts) {cache : Module.Cache}
    (hcache : cache.Sound setting.parser options) (revision other : Nat) (registry : Registry)
    (wanted? : Option Text) :
    (buildTree setting revision registry cache wanted?).answer.map BuildResult.unstamped
      = (buildTree setting other .empty (.new options) wanted?).answer.map BuildResult.unstamped := by
  rw [answer_buildTree, answer_buildTree, (steady_plan htexts wanted? cache hcache).1]
  exact unstamped_conclude setting.config revision other registry _

/-! ## §3. Behind every run -/

theorem cacheAt_newCache (project : Project) (options : Options) :
    (project.newCache options).2.cacheAt (project.newCache options).1 = .new options := by
  show ((project.caches ++ [Module.Cache.new options])[project.caches.length]?).getD _ = _
  rw [List.getElem?_concat_length, Option.getD_some]

/-- Behind every run of edits, requests, invalidations and builds, by way of a cache that may be
closed, a build answers what it answers for a new project with the tree of the snapshot and a new
cache, the revision apart. -/
theorem build_run_eq_build_snapshot (parser : Parser) (options : Options) {start : Project}
    (hstart : start.tree.IsInitial) (actions : List Project.Action) (config : Config)
    (registry : Registry) (wanted? : Option Text) :
    let number := (start.newCache options).1
    let project := (start.newCache options).2.run parser number actions
    ∃ tree, Tree.ofSnapshot (.ofFields project.tree.serialize) = .ok tree ∧
      let fresh := ({ tree } : Project).newCache options
      (build parser config number project registry wanted?).1.map BuildResult.unstamped
        = (build parser config fresh.1 fresh.2 .empty wanted?).1.map BuildResult.unstamped := by
  intro number project
  have hproject : project.Consistent parser options number :=
    (Project.consistent_newCache parser options hstart).run actions
  refine ⟨project.tree, hproject.wellFormed.ofSnapshot_serialize hproject.holdsTexts, ?_⟩
  intro fresh
  have hfresh : fresh.2.cacheAt fresh.1 = .new options := cacheAt_newCache _ options
  have htree : fresh.2.tree = project.tree := rfl
  unfold build
  dsimp only
  rw [hfresh, htree]
  let setting : Setting := ⟨parser, project.tree, config⟩
  have htexts : setting.tree.HoldsTexts := hproject.holdsTexts
  exact unstamped_buildTree htexts hproject.hasSound.cacheAt project.revision fresh.2.revision
    registry wanted?

/-- A run in which a built file is moved, its cache is closed, and another file takes its place. -/
theorem build_run_eq_build_snapshot_moved :
    let number := (({} : Project).newCache {}).1
    let project := (({} : Project).newCache {}).2.run (Lowering.parserOf []) number
      [.edit (.createFile "/App.jsx" "const a = 1;"), .build {} .empty none,
        .edit (.rename "/App.jsx" "/src/App.jsx"), .close, .transform "src/App.jsx",
        .edit (.writeFile "/App.jsx" "const b = 2;"), .invalidate (some "/src")]
    ∃ tree, Tree.ofSnapshot (.ofFields project.tree.serialize) = .ok tree ∧
      let fresh := ({ tree } : Project).newCache {}
      (build (Lowering.parserOf []) {} number project .empty none).1.map BuildResult.unstamped
        = (build (Lowering.parserOf []) {} fresh.1 fresh.2 .empty none).1.map
            BuildResult.unstamped :=
  build_run_eq_build_snapshot (Lowering.parserOf []) {}
    (.inl rfl : ({} : Project).tree.IsInitial) _ {} .empty none

end LivePreview.Preview
