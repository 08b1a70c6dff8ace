/-
  LivePreview.Proofs.Project.Feed
  ───────────────────────────────
  **An observer can follow the tree by what it is told.**

  An observer that is subscribed once hears each announced change once and in order
  (`heardBy_announce`), whoever else listens.  So the changes of an edit come to it as
  they are announced, and of a listing of the tree they make one of the tree behind the
  edit (`Tree.Listing.Shows.leads_attempt`).  What else is done with a project tells the
  observer nothing and leaves the tree alone, and so the observer keeps up with every
  run (`Followed.run`).
-/
import LivePreview.Proofs.Project.Freshness
import LivePreview.Proofs.Tree.Listing

namespace LivePreview.Project

open LivePreview.Lowering (Parser)

/-! ## §1. What an observer hears -/

/-- What an observer has been told, in order. -/
def heardBy (project : Project) (name : Nat) : List Tree.Change :=
  (project.heard.filter (·.1 == name)).map Prod.snd

variable {project : Project} {name : Nat}

/-- An observer is told a change as often as it is subscribed. -/
theorem heardBy_foldl_tell (change : Tree.Change) (listeners : List Listener) :
    (listeners.foldl (tell change) project).heardBy name
      = project.heardBy name ++ List.replicate (listeners.count (.observer name)) change := by
  induction listeners generalizing project with
  | nil => exact (List.append_nil _).symm
  | cons listener listeners ih =>
    rw [List.foldl_cons, ih]
    cases listener with
    | cache number =>
      have hother : Listener.cache number ≠ .observer name := nofun
      rw [List.count_cons_of_ne hother]
      rfl
    | observer other =>
      by_cases hother : other = name
      · subst hother
        have htold : (project.tell change (.observer other)).heardBy other
            = project.heardBy other ++ [change] := by
          simp [tell, heardBy]
        rw [htold, List.count_cons_self, List.append_assoc, List.replicate_succ, List.singleton_append]
      · have hquiet : (project.tell change (.observer other)).heardBy name = project.heardBy name := by
          simp [tell, heardBy, hother]
        rw [hquiet, List.count_cons_of_ne fun heq => hother (Listener.observer.inj heq)]

theorem listeners_deliver (change : Tree.Change) :
    (project.deliver change).listeners = project.listeners :=
  deliver_preserves (P := fun told => told.listeners = project.listeners)
    (fun told change listener h => (listeners_tell told change listener).trans h) rfl change

/-- An observer that is subscribed once is told every announced change once. -/
theorem heardBy_announce (honce : project.listeners.count (.observer name) = 1)
    (changes? : Option (List Tree.Change)) :
    (project.announce changes?).heardBy name = project.heardBy name ++ changes?.getD [] := by
  cases changes? with
  | none => exact (List.append_nil _).symm
  | some changes =>
    show (changes.foldl deliver { project with revision := project.revision + 1 }).heardBy name
      = ({ project with revision := project.revision + 1 } : Project).heardBy name ++ changes
    have honce : ({ project with revision := project.revision + 1 } : Project).listeners.count
      (.observer name) = 1 := honce
    -- from here on only the listeners of the project matter, and telling does not change them
    generalize { project with revision := project.revision + 1 } = raised at honce ⊢
    induction changes generalizing raised with
    | nil => exact (List.append_nil _).symm
    | cons change changes ih =>
      have htold : (raised.deliver change).heardBy name = raised.heardBy name ++ [change] := by
        rw [deliver, heardBy_foldl_tell, honce]
        rfl
      rw [List.foldl_cons, ih _ (by rw [listeners_deliver, honce]), htold, List.append_assoc,
        List.singleton_append]

/-! ## §2. Observers that follow the tree -/

/-- The observer is subscribed once, and of a listing of the tree at its subscription what it has heard
since then makes one of the tree. -/
structure Followed (name : Nat) (start project : Project) : Prop where
  wellFormed : project.tree.WellFormed
  once : project.listeners.count (.observer name) = 1
  leads : ∃ changes, project.heardBy name = start.heardBy name ++ changes ∧
    start.tree.listing.Leads changes project.tree

theorem followed_subscribe {start : Project} (hstart : start.tree.WellFormed)
    (hnew : .observer name ∉ start.listeners) :
    Followed name start (start.subscribe (.observer name)) := by
  refine ⟨hstart, ?_, [], (List.append_nil _).symm, Tree.Listing.leads_nil start.tree.shows_listing⟩
  show (start.listeners ++ [Listener.observer name]).count (.observer name) = 1
  rw [List.count_append, List.count_eq_zero_of_not_mem hnew, Nat.zero_add]
  exact List.count_cons_self

variable {start : Project}

theorem Followed.performEdit (h : Followed name start project) (edit : Tree.Edit) :
    Followed name start (project.performEdit edit) := by
  refine ⟨?_, ?_, ?_⟩
  · rw [tree_performEdit]
    exact h.wellFormed.perform edit
  · rw [listeners_performEdit]
    exact h.once
  obtain ⟨changes, hheard, hleads⟩ := h.leads
  rw [performEdit_eq_announce]
  cases hattempt : project.tree.attempt edit with
  | error e => exact ⟨changes, hheard, hleads⟩
  | ok outcome =>
    -- what the edit announces is heard behind the rest, and leads on from the tree before it
    refine ⟨changes ++ outcome.changes?.getD [], ?_, ?_⟩
    · show (announce { project with tree := outcome.tree } outcome.changes?).heardBy name = _
      have honce : ({ project with tree := outcome.tree } : Project).listeners.count (.observer name) = 1 :=
        h.once
      rw [heardBy_announce honce, ← List.append_assoc, ← hheard]
      rfl
    · show start.tree.listing.Leads _ (announce { project with tree := outcome.tree } outcome.changes?).tree
      rw [tree_announce]
      exact hleads.append fun after hafter => hafter.leads_attempt h.wellFormed hattempt

theorem Followed.perform (h : Followed name start project) (parser : Parser) (number : Nat)
    (action : Action) : Followed name start (project.perform parser number action) := by
  cases action with
  | edit edit => exact h.performEdit edit
  | close =>
    -- closing takes a cache off the list of listeners, and no observer
    refine ⟨h.wellFormed, ?_, h.leads⟩
    have hother : Listener.observer name ≠ .cache number := nofun
    show (project.listeners.erase (.cache number)).count (.observer name) = 1
    rw [List.count_erase_of_ne hother, h.once]
  | transform path => exact ⟨h.wellFormed, h.once, h.leads⟩
  | invalidate path? => exact ⟨h.wellFormed, h.once, h.leads⟩
  | build config registry wanted? => exact ⟨h.wellFormed, h.once, h.leads⟩

theorem Followed.run (h : Followed name start project) (parser : Parser) (number : Nat)
    (actions : List Action) : Followed name start (project.run parser number actions) := by
  unfold Project.run
  induction actions generalizing project with
  | nil => exact h
  | cons action actions ih => exact ih (h.perform parser number action)

/-- Behind every run: whoever enters what it has heard since its subscription, one change after the
other, into a listing of the tree at that time can enter each change when it comes, and has in the end
the paths of the tree, each once and with its kind. -/
theorem feed_complete_of_run (parser : Parser) (number : Nat) {start : Project}
    (hstart : start.tree.WellFormed) {name : Nat} (hnew : .observer name ∉ start.listeners)
    (actions : List Action) :
    let project := (start.subscribe (.observer name)).run parser number actions
    ∃ changes listing, project.heardBy name = start.heardBy name ++ changes ∧
      start.tree.listing.follow? changes = some listing ∧ (Table.keys listing).Nodup ∧
        ∀ path kind, (path, kind) ∈ listing ↔ project.tree.kind? path = some kind := by
  intro project
  have hfollowed : Followed name start project :=
    (followed_subscribe hstart hnew).run parser number actions
  obtain ⟨changes, hheard, listing, hlisting, hshows⟩ := hfollowed.leads
  exact ⟨changes, listing, hheard, hlisting, hshows.nodup, hshows.mem_iff⟩

/-- A file is made, its directory moved, which makes two others, and a snapshot put in place of all;
two edits are rejected. -/
def movingActions : List Action :=
  [.edit (.createFile "src\\a.ts" "x"), .edit (.rename "/src" "lib/new/src"), .edit (.delete "/"),
    .edit (.rename "/lib" "/lib/new/src"), .edit (.writeFile "/lib/new/src/a.ts" "y"),
    .edit (.replace (.mapping Tree.shuffledEntries))]

def movedProject : Project :=
  (({} : Project).subscribe (.observer 7)).run (Lowering.parserOf []) 0 movingActions

/-- What the observer hears of that run, and that it can follow it. -/
theorem feed_complete_of_run_moving :
    movedProject.heardBy 7 =
      [.created "/src" .directory, .created "/src/a.ts" .file, .created "/lib" .directory,
        .created "/lib/new" .directory, .renamed "/src" .directory "/lib/new/src",
        .modified "/lib/new/src/a.ts", .deleted "/lib" .directory, .deleted "/lib/new" .directory,
        .deleted "/lib/new/src" .directory, .deleted "/lib/new/src/a.ts" .file,
        .created "/src" .directory, .created "/src/a.ts" .file] ∧
    ∃ listing, Tree.empty.listing.follow? (movedProject.heardBy 7) = some listing ∧
      ∀ path kind, (path, kind) ∈ listing ↔ movedProject.tree.kind? path = some kind := by
  have hstart : ({} : Project).tree.WellFormed := Tree.wellFormed_empty
  have hnew : Listener.observer 7 ∉ ({} : Project).listeners := List.not_mem_nil
  obtain ⟨changes, listing, hheard, hfollow, -, hmem⟩ :=
    feed_complete_of_run (Lowering.parserOf []) 0 hstart hnew movingActions
  have hchanges : movedProject.heardBy 7 = changes := hheard
  exact ⟨by decide +kernel, listing, hchanges ▸ hfollow, hmem⟩

end LivePreview.Project
