/-
  LivePreview.Proofs.Project.Run
  ──────────────────────────────
  **Runs of a project with one module cache.**

  An action edits the tree, asks the cache for a module, drops entries, closes the
  cache, or builds a page.  A run keeps the tree well-formed and a tree of texts, and
  the cache sound (`Consistent.run`): what the listeners do when a change is announced
  only takes entries away, and what a request or a build does only adds entries that
  hold what their contents become.
-/
import LivePreview.Proofs.Preview.Walk
import LivePreview.Proofs.Tree.Reachable

namespace LivePreview.Project

open LivePreview.Lowering (Options Parser)
open LivePreview.Preview (Config Setting)

/-! ## §1. Actions -/

/-- What may be done with a project and one of its module caches. -/
inductive Action where
  | edit (edit : Tree.Edit)
  | transform (path : Text)
  | invalidate (path? : Option Text)
  | close
  /-- A build, with whatever references are live at that time. -/
  | build (config : Config) (registry : Module.Registry) (wanted? : Option Text)

/-- The project behind an edit. -/
def performEdit (project : Project) : Tree.Edit → Project
  | .createFile path content => (project.edit (·.createFile path (.text content))).2
  | .createDirectory path => (project.edit (·.createDirectory path)).2
  | .writeFile path content => (project.edit (·.writeFile path (.text content))).2
  | .delete path => (project.edit (·.delete path)).2
  | .rename oldPath newPath => (project.edit (·.rename oldPath newPath)).2
  | .replace snapshot => (project.edit (·.replace snapshot)).2

/-- The project behind an action. -/
def perform (parser : Parser) (number : Nat) (project : Project) : Action → Project
  | .edit edit => project.performEdit edit
  | .transform path => (project.moduleAt parser number path).2
  | .invalidate path? => project.invalidate number path?
  | .close => project.closeCache number
  | .build config registry wanted? =>
    (Preview.build parser config number project registry wanted?).2.1

/-- The project behind a run of actions. -/
def run (parser : Parser) (number : Nat) (project : Project) (actions : List Action) : Project :=
  actions.foldl (perform parser number) project

/-- What is announced does not depend on the answer. -/
theorem performEdit_eq (project : Project) (edit : Tree.Edit) :
    project.performEdit edit = (project.edit (·.attempt edit)).2 := by
  have hquiet : ∀ {α : Type} (operation : Tree → Except Tree.Error (Tree.Outcome α)),
      (project.edit operation).2 = (project.edit fun tree => (operation tree).map .quiet).2 := by
    intro α operation
    unfold Project.edit
    dsimp only
    cases operation project.tree <;> rfl
  cases edit with
  | replace snapshot => rfl
  | _ => exact hquiet _

/-- An accepted edit puts the new tree in place and announces the changes. -/
theorem performEdit_eq_announce (project : Project) (edit : Tree.Edit) :
    project.performEdit edit =
      match project.tree.attempt edit with
      | .ok outcome => { project with tree := outcome.tree }.announce outcome.changes?
      | .error _ => project := by
  rw [performEdit_eq]
  unfold Project.edit
  dsimp only
  cases project.tree.attempt edit <;> rfl

/-! ## §2. Announcements -/

section Announcements

variable {P : Project → Prop}
  (htell : ∀ project change listener, P project → P (tell change project listener))
include htell

/-- What is preserved whoever is told of a change is preserved when it is delivered. -/
theorem deliver_preserves {project : Project} (h : P project) (change : Tree.Change) :
    P (project.deliver change) := by
  unfold deliver
  generalize project.listeners = listeners
  induction listeners generalizing project with
  | nil => exact h
  | cons listener listeners ih => exact ih (htell project change listener h)

theorem announce_preserves
    (hraise : ∀ project, P project → P { project with revision := project.revision + 1 })
    {project : Project} (h : P project) (changes? : Option (List Tree.Change)) :
    P (project.announce changes?) := by
  cases changes? with
  | none => exact h
  | some changes =>
    show P (changes.foldl deliver { project with revision := project.revision + 1 })
    have h := hraise project h
    generalize { project with revision := project.revision + 1 } = raised at h ⊢
    induction changes generalizing raised with
    | nil => exact h
    | cons change changes ih => exact ih _ (deliver_preserves htell h change)

end Announcements

/-! ## §3. The cache -/

/-- The project has a cache with the number, and it is sound. -/
def HasSound (parser : Parser) (options : Options) (number : Nat) (project : Project) : Prop :=
  ∃ cache, project.caches[number]? = some cache ∧ cache.Sound parser options

section HasSound

variable {parser : Parser} {options : Options} {number : Nat} {project : Project}

theorem hasSound_newCache (project : Project) (options : Options) :
    (project.newCache options).2.HasSound parser options (project.newCache options).1 :=
  ⟨.new options, List.getElem?_concat_length, Module.Cache.sound_new parser options⟩

/-- What is done to one of the caches, whichever it is, and keeps it sound. -/
theorem HasSound.modify (h : project.HasSound parser options number) {f : Module.Cache → Module.Cache}
    (hf : ∀ cache, Module.Cache.Sound parser options cache → (f cache).Sound parser options)
    (other : Nat) :
    HasSound parser options number { project with caches := project.caches.modify other f } := by
  obtain ⟨cache, hcache, hsound⟩ := h
  refine ⟨if other = number then f cache else cache, ?_, ?_⟩
  · show (project.caches.modify other f)[number]? = _
    rw [List.getElem?_modify, hcache]
    split <;> rfl
  · split
    · exact hf cache hsound
    · exact hsound

theorem HasSound.cacheAt (h : project.HasSound parser options number) :
    (project.cacheAt number).Sound parser options := by
  obtain ⟨cache, hcache, hsound⟩ := h
  rw [Project.cacheAt, hcache]
  exact hsound

theorem HasSound.setCache (h : project.HasSound parser options number) {cache : Module.Cache}
    (hcache : cache.Sound parser options) : (project.setCache number cache).HasSound parser options number := by
  obtain ⟨before, hbefore, -⟩ := h
  have hlt : number < project.caches.length := (List.getElem?_eq_some_iff.mp hbefore).1
  exact ⟨cache, by rw [Project.setCache, List.getElem?_set_self hlt], hcache⟩

theorem HasSound.tell (h : project.HasSound parser options number) (change : Tree.Change)
    (listener : Listener) : (project.tell change listener).HasSound parser options number := by
  cases listener with
  | observer name => exact h
  | cache other => exact h.modify (fun _ hsound => hsound.hear change) other

theorem HasSound.announce (h : project.HasSound parser options number)
    (changes? : Option (List Tree.Change)) :
    (project.announce changes?).HasSound parser options number :=
  announce_preserves (fun _ change listener hsound => hsound.tell change listener)
    (fun _ hsound => hsound) h changes?

theorem HasSound.edit {α : Type} (h : project.HasSound parser options number)
    (operation : Tree → Except Tree.Error (Tree.Outcome α)) :
    (project.edit operation).2.HasSound parser options number := by
  unfold Project.edit
  split
  · next outcome _ =>
    have h : HasSound parser options number { project with tree := outcome.tree } := h
    exact h.announce outcome.changes?
  · exact h

end HasSound

/-! ## §4. The tree -/

section Tree

variable (project : Project)

theorem tree_tell (change : Tree.Change) (listener : Listener) :
    (project.tell change listener).tree = project.tree := by
  cases listener <;> rfl

theorem tree_announce (changes? : Option (List Tree.Change)) :
    (project.announce changes?).tree = project.tree :=
  announce_preserves (P := fun told => told.tree = project.tree)
    (fun told change listener h => (tree_tell told change listener).trans h) (fun _ h => h) rfl changes?

theorem tree_edit {α : Type} (operation : Tree → Except Tree.Error (Tree.Outcome α)) :
    (project.edit operation).2.tree = project.tree.behind (operation project.tree) := by
  unfold edit
  split
  · next outcome hok =>
    rw [hok]
    exact tree_announce _ _
  · next e herror =>
    rw [herror]
    rfl

/-- An edit does to the tree of a project what it does to the tree alone. -/
theorem tree_performEdit (edit : Tree.Edit) :
    (project.performEdit edit).tree = project.tree.perform edit := by
  cases edit <;> exact tree_edit project _

/-- The edit that an action is, if it is one. -/
def Action.edit? : Action → Option Tree.Edit
  | .edit change => some change
  | _ => none

/-- Nothing but the edits of a run changes the tree. -/
theorem tree_run (parser : Parser) (number : Nat) (actions : List Action) :
    (project.run parser number actions).tree = project.tree.run (actions.filterMap Action.edit?) := by
  unfold run
  induction actions generalizing project with
  | nil => rfl
  | cons action actions ih =>
    rw [List.foldl_cons, ih, List.filterMap_cons]
    cases action with
    | edit edit =>
      show (project.performEdit edit).tree.run _ = _
      rw [tree_performEdit]
      rfl
    | _ => rfl

end Tree

/-! ## §5. What every run preserves -/

/-- The tree is a well-formed tree of texts, and the cache with the number is sound. -/
structure Consistent (parser : Parser) (options : Options) (number : Nat) (project : Project) :
    Prop where
  wellFormed : project.tree.WellFormed
  holdsTexts : project.tree.HoldsTexts
  hasSound : project.HasSound parser options number

variable {parser : Parser} {options : Options} {number : Nat} {project : Project}

theorem consistent_newCache (parser : Parser) (options : Options) {start : Project}
    (hstart : start.tree.IsInitial) :
    (start.newCache options).2.Consistent parser options (start.newCache options).1 :=
  ⟨hstart.wellFormed, hstart.holdsTexts, hasSound_newCache start options⟩

theorem Consistent.performEdit (h : project.Consistent parser options number) (edit : Tree.Edit) :
    (project.performEdit edit).Consistent parser options number := by
  refine ⟨?_, ?_, ?_⟩
  · rw [tree_performEdit]
    exact h.wellFormed.perform edit
  · rw [tree_performEdit]
    exact h.holdsTexts.perform edit
  · cases edit <;> exact h.hasSound.edit _

/-- Building leaves a sound cache behind. -/
theorem sound_buildTree {setting : Setting} (htexts : setting.tree.HoldsTexts)
    {cache : Module.Cache} (hcache : cache.Sound setting.parser options) (revision : Nat)
    (registry : Module.Registry) (wanted? : Option Text) :
    (Preview.buildTree setting revision registry cache wanted?).cache.Sound setting.parser options := by
  have hsteady := (Preview.steady_plan htexts wanted? cache hcache).2
  unfold Preview.Walk.start at hsteady
  unfold Preview.buildTree
  split
  · next hplan => rwa [hplan] at hsteady
  · next hplan => rwa [hplan] at hsteady
  · next hplan =>
    rw [hplan] at hsteady
    split <;> exact hsteady

theorem Consistent.perform (h : project.Consistent parser options number) (action : Action) :
    (project.perform parser number action).Consistent parser options number := by
  cases action with
  | edit edit => exact h.performEdit edit
  | transform path =>
    exact ⟨h.wellFormed, h.holdsTexts,
      h.hasSound.setCache (h.hasSound.cacheAt.moduleAt h.holdsTexts path).2⟩
  | invalidate path? =>
    exact ⟨h.wellFormed, h.holdsTexts,
      h.hasSound.modify (fun _ hsound => hsound.invalidate path?) number⟩
  | close =>
    exact ⟨h.wellFormed, h.holdsTexts, h.hasSound.modify (fun _ hsound => hsound.clear) number⟩
  | build config registry wanted? =>
    let setting : Setting := ⟨parser, project.tree, config⟩
    have htexts : setting.tree.HoldsTexts := h.holdsTexts
    have hcache := sound_buildTree htexts h.hasSound.cacheAt project.revision registry wanted?
    exact ⟨h.wellFormed, h.holdsTexts, h.hasSound.setCache hcache⟩

theorem Consistent.run (h : project.Consistent parser options number) (actions : List Action) :
    (project.run parser number actions).Consistent parser options number := by
  unfold Project.run
  induction actions generalizing project with
  | nil => exact h
  | cons action actions ih => exact ih (h.perform action)

end LivePreview.Project
