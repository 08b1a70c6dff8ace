/-
  LivePreview.Proofs.Project.Freshness
  ────────────────────────────────────
  **A subscribed cache holds nothing but what stands in the tree.**

  Each entry of a cache that listens to every change was made from the file that stands
  at its path (`Cache.Fresh`).  What a cache drops when it hears a change is what the
  change is about (`entries_hear`), however often it is told, and so an edit takes just
  the entries away that its announcement is about (`held?_performEdit`): on a
  well-formed tree, those of the files that it disturbs.
-/
import LivePreview.Lowering.Parsed
import LivePreview.Proofs.Project.Run
import LivePreview.Proofs.Tree.Disturbance

namespace LivePreview

open LivePreview.Lowering (Options Parser)

/-! ## §1. Fresh caches -/

namespace Module.Cache

variable {cache : Cache} {tree : Tree}

/-- Every entry was made from the file that stands at its path. -/
def Fresh (tree : Tree) (cache : Cache) : Prop :=
  ∀ (path : Text) entry, cache.entries[path]? = some entry →
    tree.get? path = some (.file entry.content)

/-- A cache drops what a change is about, and keeps everything else. -/
theorem entries_hear (cache : Cache) (change : Tree.Change) (path : Text) :
    (cache.hear change).entries[path]?
      = if change.concerns path then none else cache.entries[path]? := by
  have hdrop : ∀ other, (cache.drop other).entries[path]?
      = if path == other then none else cache.entries[path]? := by
    intro other
    rw [drop, Std.ExtTreeMap.getElem?_erase]
    simp only [Std.LawfulEqCmp.compare_eq_iff_eq, beq_iff_eq, eq_comm (a := other)]
  have hwithin : ∀ directory, (cache.dropWithin directory).entries[path]?
      = if Path.isWithin path directory then none else cache.entries[path]? := by
    intro directory
    rw [dropWithin, Std.ExtTreeMap.getElem?_filter']
    cases Path.isWithin path directory <;> cases cache.entries[path]? <;> rfl
  cases change with
  | created other kind =>
    cases kind with
    | file => exact hdrop other
    | directory => rfl
  | modified other => exact hdrop other
  | deleted other kind =>
    cases kind with
    | file => exact hdrop other
    | directory => exact hwithin other
  | renamed other kind newPath => exact hwithin other

theorem fresh_new (tree : Tree) (options : Options) : (new options).Fresh tree := by
  intro path entry hentry
  have hnone : (new options).entries[path]? = none := Std.ExtTreeMap.getElem?_empty
  rw [hnone] at hentry
  cases hentry

theorem Fresh.invalidate (h : cache.Fresh tree) (path? : Option Text) :
    (cache.invalidate path?).Fresh tree := by
  intro path entry hentry
  cases path? with
  | none =>
    have hnone : cache.clear.entries[path]? = none := Std.ExtTreeMap.getElem?_empty
    rw [Cache.invalidate, hnone] at hentry
    cases hentry
  | some directory =>
    rw [Cache.invalidate, dropWithin, Std.ExtTreeMap.getElem?_filter'] at hentry
    exact h path entry (Option.filter_eq_some_iff.mp hentry).1

/-- A request keeps at most one new entry, which was made from the file that was asked for. -/
theorem Fresh.moduleAt (h : cache.Fresh tree) (parser : Parser) (path : Text) :
    (cache.moduleAt parser tree path).2.Fresh tree := by
  unfold Cache.moduleAt
  cases hread : tree.read path with
  | error error => exact h
  | ok content =>
    have hfile := Tree.get?_of_read hread
    unfold Cache.moduleOf
    dsimp only
    split
    · exact h
    · split
      · intro q entry hentry
        rw [keep, Std.ExtTreeMap.getElem?_insert] at hentry
        split at hentry
        · next heq =>
          cases hentry
          rw [← Std.LawfulEqCmp.compare_eq_iff_eq.mp heq]
          exact hfile
        · exact h q entry hentry
      · exact h

end Module.Cache

/-! ## §2. Announcements -/

namespace Project

/-- What a cache holds for a path. -/
def held? (project : Project) (number : Nat) (path : Text) : Option Module.Entry :=
  (project.cacheAt number).entries[path]?

section Announcements

variable (project : Project) (number : Nat) (path : Text)

/-- Whatever is done to a cache, nothing is done to the others. -/
theorem held?_modify {f : Module.Cache → Module.Cache} {dropped : Bool}
    (hf : ∀ cache, (f cache).entries[path]? = if dropped then none else cache.entries[path]?)
    (other : Nat) :
    held? { project with caches := project.caches.modify other f } number path
      = if other = number ∧ dropped = true then none else project.held? number path := by
  have hnew : (Module.Cache.new {}).entries[path]? = none := Std.ExtTreeMap.getElem?_empty
  unfold held? cacheAt
  dsimp only
  rw [List.getElem?_modify]
  cases project.caches[number]? with
  | none =>
    -- a number without a cache has no entries
    show (Module.Cache.new {}).entries[path]? = ite _ none (Module.Cache.new {}).entries[path]?
    rw [hnew, ite_self]
  | some cache =>
    show (if other = number then f cache else cache).entries[path]? = ite _ none cache.entries[path]?
    by_cases hother : other = number
    · rw [if_pos hother, hf]
      simp only [hother, true_and]
    · rw [if_neg hother, if_neg fun h => hother h.1]

theorem held?_tell (change : Tree.Change) (listener : Listener) :
    (project.tell change listener).held? number path
      = if listener = .cache number ∧ change.concerns path = true then none
        else project.held? number path := by
  cases listener with
  | observer name => rfl
  | cache other =>
    simp only [Listener.cache.injEq]
    exact held?_modify project number path (fun cache => cache.entries_hear change path) other

theorem listeners_tell (change : Tree.Change) (listener : Listener) :
    (project.tell change listener).listeners = project.listeners := by
  cases listener <;> rfl

/-- A cache that is told a change drops what it is about, however often it is told. -/
theorem held?_foldl_tell (change : Tree.Change) (listeners : List Listener) :
    (listeners.foldl (tell change) project).held? number path
      = if .cache number ∈ listeners ∧ change.concerns path = true then none
        else project.held? number path := by
  induction listeners generalizing project with
  | nil => simp
  | cons listener listeners ih =>
    rw [List.foldl_cons, ih, held?_tell]
    simp only [List.mem_cons, eq_comm (a := Listener.cache number)]
    cases change.concerns path with
    | false => simp
    | true => by_cases hfirst : listener = .cache number <;> simp [hfirst]

theorem listeners_announce (changes? : Option (List Tree.Change)) :
    (project.announce changes?).listeners = project.listeners :=
  announce_preserves (P := fun told => told.listeners = project.listeners)
    (fun told change listener h => (listeners_tell told change listener).trans h) (fun _ h => h) rfl
    changes?

theorem listeners_performEdit (edit : Tree.Edit) :
    (project.performEdit edit).listeners = project.listeners := by
  rw [performEdit_eq_announce]
  cases project.tree.attempt edit with
  | error error => rfl
  | ok outcome => exact listeners_announce _ _

variable {project} (hlistens : .cache number ∈ project.listeners)
include hlistens

/-- A subscribed cache drops what the announced changes are about, and keeps everything else. -/
theorem held?_announce (changes? : Option (List Tree.Change)) :
    (project.announce changes?).held? number path
      = if (changes?.getD []).any (Tree.Change.concerns path) then none
        else project.held? number path := by
  cases changes? with
  | none => rfl
  | some changes =>
    show (changes.foldl deliver { project with revision := project.revision + 1 }).held? number path
      = if changes.any (Tree.Change.concerns path) then none
        else held? { project with revision := project.revision + 1 } number path
    have hlistens : .cache number ∈ ({ project with revision := project.revision + 1 } : Project).listeners :=
      hlistens
    generalize { project with revision := project.revision + 1 } = raised at hlistens ⊢
    induction changes generalizing raised with
    | nil => rfl
    | cons change changes ih =>
      have hdeliver : (raised.deliver change).held? number path
          = if change.concerns path then none else raised.held? number path := by
        unfold deliver
        rw [held?_foldl_tell]
        simp only [hlistens, true_and]
      have hstill : .cache number ∈ (raised.deliver change).listeners :=
        deliver_preserves (P := fun told => .cache number ∈ told.listeners)
          (fun told change listener h => by rwa [listeners_tell]) hlistens change
      rw [List.foldl_cons, ih _ hstill, hdeliver, List.any_cons]
      cases change.concerns path <;> simp

/-- An edit takes away what its announcement is about. -/
theorem held?_performEdit (edit : Tree.Edit) :
    (project.performEdit edit).held? number path
      = if project.tree.announces edit path then none else project.held? number path := by
  rw [performEdit_eq_announce]
  unfold Tree.announces
  cases project.tree.attempt edit with
  | error error => rfl
  | ok outcome =>
    have hlistens : .cache number ∈ ({ project with tree := outcome.tree } : Project).listeners := hlistens
    exact held?_announce number path hlistens outcome.changes?

end Announcements

/-! ## §3. Behind every run -/

/-- The action is an edit, a request for a module, or an invalidation. -/
def Action.IsOrdinary : Action → Prop
  | .edit _ | .transform _ | .invalidate _ => True
  | .close | .build .. => False

/-- The tree is well-formed, and the cache with the number is subscribed and fresh. -/
structure Attended (number : Nat) (project : Project) : Prop where
  wellFormed : project.tree.WellFormed
  listens : .cache number ∈ project.listeners
  fresh : (project.cacheAt number).Fresh project.tree

variable {parser : Parser} {number : Nat} {project : Project}

/-- A fresh cache in place of the one with its number. -/
theorem fresh_cacheAt_setCache {cache : Module.Cache} {tree : Tree} (hcache : cache.Fresh tree) :
    ((project.setCache number cache).cacheAt number).Fresh tree := by
  unfold setCache cacheAt
  dsimp only
  rw [List.getElem?_set_self']
  cases project.caches[number]? with
  | none => exact Module.Cache.fresh_new tree {}
  | some before => exact hcache

/-- What keeps every cache fresh keeps the one with the number fresh. -/
theorem fresh_cacheAt_modify {f : Module.Cache → Module.Cache} {tree : Tree}
    (hf : ∀ cache, Module.Cache.Fresh tree cache → (f cache).Fresh tree)
    (hcache : (project.cacheAt number).Fresh tree) :
    (cacheAt { project with caches := project.caches.modify number f } number).Fresh tree := by
  unfold cacheAt at hcache ⊢
  dsimp only
  rw [List.getElem?_modify]
  cases hbefore : project.caches[number]? with
  | none => exact Module.Cache.fresh_new tree {}
  | some before =>
    rw [hbefore] at hcache
    show (if number = number then f before else before).Fresh tree
    rw [if_pos rfl]
    exact hf before hcache

theorem attended_newCache {start : Project} (hstart : start.tree.WellFormed) (options : Options) :
    (start.newCache options).2.Attended (start.newCache options).1 := by
  refine ⟨hstart, List.mem_append_right _ List.mem_cons_self, ?_⟩
  show ((start.caches ++ [Module.Cache.new options])[start.caches.length]?.getD _).Fresh start.tree
  rw [List.getElem?_concat_length]
  exact Module.Cache.fresh_new start.tree options

theorem Attended.performEdit (h : project.Attended number) (edit : Tree.Edit) :
    (project.performEdit edit).Attended number := by
  refine ⟨?_, ?_, fun path entry hentry => ?_⟩
  · rw [tree_performEdit]
    exact h.wellFormed.perform edit
  · rw [listeners_performEdit]
    exact h.listens
  · -- of the file of a kept entry nothing was announced
    have hkept : (project.performEdit edit).held? number path = some entry := hentry
    rw [held?_performEdit number path h.listens] at hkept
    split at hkept
    · cases hkept
    · next hquiet =>
      rw [tree_performEdit]
      exact Tree.get?_perform_of_announces_eq_false h.wellFormed (h.fresh path entry hkept)
        (Bool.eq_false_iff.mpr hquiet)

theorem Attended.perform (h : project.Attended number) {action : Action} (haction : action.IsOrdinary) :
    (project.perform parser number action).Attended number := by
  cases action with
  | edit edit => exact h.performEdit edit
  | transform path =>
    exact ⟨h.wellFormed, h.listens, fresh_cacheAt_setCache (h.fresh.moduleAt parser path)⟩
  | invalidate path? =>
    exact ⟨h.wellFormed, h.listens, fresh_cacheAt_modify (fun _ hcache => hcache.invalidate path?) h.fresh⟩
  | close => exact haction.elim
  | build config registry wanted? => exact haction.elim

theorem Attended.run (h : project.Attended number) {actions : List Action}
    (hactions : ∀ action ∈ actions, action.IsOrdinary) :
    (project.run parser number actions).Attended number := by
  unfold Project.run
  induction actions generalizing project with
  | nil => exact h
  | cons action actions ih =>
    rw [List.forall_mem_cons] at hactions
    exact ih (h.perform hactions.1) hactions.2

/-- Behind every run of edits, requests and invalidations on a subscribed cache: each entry was made
from the file that stands at its path, and an edit other than one that puts a snapshot in place of the
tree takes away just the entries of the files that it deletes, moves or gives another content. -/
theorem fresh_and_exact_of_run (parser : Parser) (options : Options) {start : Project}
    (hstart : start.tree.WellFormed) {actions : List Action}
    (hactions : ∀ action ∈ actions, action.IsOrdinary) :
    let number := (start.newCache options).1
    let project := (start.newCache options).2.run parser number actions
    (∀ path entry, project.held? number path = some entry →
      project.tree.get? path = some (.file entry.content)) ∧
    ∀ edit, (∀ snapshot, edit ≠ .replace snapshot) → ∀ path entry,
      (project.performEdit edit).held? number path = some entry
        ↔ project.held? number path = some entry ∧ ¬ project.tree.Disturbs path edit := by
  intro number project
  have hattended : project.Attended number := (attended_newCache hstart options).run hactions
  refine ⟨hattended.fresh, fun edit hedit path entry => ?_⟩
  rw [held?_performEdit number path hattended.listens]
  cases hentry : project.held? number path with
  | none => simp
  | some found =>
    have hfile := hattended.fresh path found hentry
    rw [← Tree.announces_iff_disturbs hattended.wellFormed hfile hedit]
    cases project.tree.announces edit path <;> simp

/-- Two style sheets are asked for, the directory of one is moved, and that one is asked for again. -/
def styledActions : List Action :=
  [.edit (.createFile "/src/a.css" "p{}"), .edit (.createFile "/b.css" "q{}"), .transform "src/a.css",
    .transform "/b.css", .edit (.rename "/src" "/lib"), .transform "/lib/a.css", .invalidate (some "/src")]

def styledProject : Project :=
  (({} : Project).newCache {}).2.run (Lowering.parserOf []) 0 styledActions

/-- With its directory the entry of a style sheet goes, and the other one stays. -/
theorem fresh_and_exact_of_run_styled :
    (styledProject.held? 0 "/lib/a.css").isSome = true ∧
    (∀ entry, (styledProject.performEdit (.delete "/lib")).held? 0 "/lib/a.css" ≠ some entry) ∧
    ((styledProject.performEdit (.delete "/lib")).held? 0 "/b.css").isSome = true := by
  have hactions : ∀ action ∈ styledActions, action.IsOrdinary := by
    simp [styledActions, Action.IsOrdinary]
  have hstart : ({} : Project).tree.WellFormed := Tree.wellFormed_empty
  have hexact := (fresh_and_exact_of_run (Lowering.parserOf []) {} hstart hactions).2 (.delete "/lib") nofun
  have hdisturbs : styledProject.tree.Disturbs "/lib/a.css" (.delete "/lib") := .deleted rfl (by decide)
  exact ⟨by decide +kernel, fun entry hentry => ((hexact _ entry).mp hentry).2 hdisturbs, by decide +kernel⟩

end Project

end LivePreview
