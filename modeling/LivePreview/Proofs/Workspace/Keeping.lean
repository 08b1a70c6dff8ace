/-
  LivePreview.Proofs.Workspace.Keeping
  ────────────────────────────────────
  **A workspace that is kept in order can be closed without a trace.**

  In a workspace of a server nobody listens to the project but the module cache of the
  workspace, and every live reference belongs to the document on screen (`IsKept`).
  That is so when a workspace starts, and it stays so whatever edits, commands, calls of
  tools and builds do to it, as long as no build breaks down.  When such a workspace is
  closed, nothing is live and its module cache listens no more (`IsKept.isClosed`).
-/
import LivePreview.Proofs.Tool.Contents
import LivePreview.Proofs.Workspace.Accounting

namespace LivePreview

open LivePreview.Lowering (Options Parser)
open LivePreview.Preview (Accounts BuildResult Config Document Session allReferences)

/-! ## §1. Listeners -/

/-- A command subscribes nobody. -/
theorem Command.listeners_run (project : Project) (command : Command) :
    (run project command).2.listeners = project.listeners :=
  (editedTo_run project fun _ _ => Tree.Edit.coversAt_true _ _).listeners

/-- A call of a tool subscribes nobody. -/
theorem Tool.listeners_behind (project : Project) (name : String) (arguments : Json) :
    (behind project name arguments).listeners = project.listeners := by
  rcases behind_cases project name (covers_true arguments) with hedited | ⟨-, path, -, heq⟩
  · exact hedited.listeners
  · rw [heq]
    exact project.listeners_edit _

namespace Workspace

theorem eq_of_edit {workspace after : Workspace} {α : Type} {answer : Except Tree.Error α}
    {operation : Tree → Except Tree.Error (Tree.Outcome α)} (hedit : workspace.edit operation = (answer, after)) :
    after = { workspace with project := (workspace.project.edit operation).2 } :=
  (congrArg Prod.snd hedit).symm

/-! ## §2. What is kept -/

/-- Only the module cache listens to the project, and the registry accounts for the document on
screen. -/
structure IsKept (workspace : Workspace) : Prop where
  listeners_eq : workspace.project.listeners = [.cache workspace.cache]
  accounts : Accounts workspace.registry workspace.session.document?.toList

variable {workspace : Workspace}

theorem isKept_start {project : Project} (hquiet : project.listeners = []) (options : Options)
    (config : Config) : (start project options config).IsKept := by
  refine ⟨?_, Preview.accounts_empty⟩
  show project.listeners ++ [Listener.cache project.caches.length] = _
  rw [hquiet]
  rfl

/-- A project with the same listeners may take the place of the one of a workspace. -/
theorem IsKept.withProject (h : workspace.IsKept) {project : Project}
    (hlisteners : project.listeners = workspace.project.listeners) :
    IsKept { workspace with project } :=
  ⟨hlisteners.trans h.listeners_eq, h.accounts⟩

/-- Showing the page of a workspace does nothing to its project but to fill its module cache. -/
theorem project_refresh (parser : Parser) (workspace : Workspace) (wanted? : Option Text) :
    ∃ cache, (workspace.refresh parser wanted?).2.project = workspace.project.setCache workspace.cache cache
      ∧ (workspace.refresh parser wanted?).2.cache = workspace.cache
      ∧ (workspace.refresh parser wanted?).2.config = workspace.config := by
  unfold refresh
  dsimp only
  split
  · next result built hbuild =>
    have hbuilt : built = (workspace.begin.2.build parser wanted?).2 := by rw [hbuild]
    subst hbuilt
    exact ⟨_, rfl, rfl, rfl⟩
  · next breakdown built hbuild =>
    have hbuilt : built = (workspace.begin.2.build parser wanted?).2 := by rw [hbuild]
    subst hbuilt
    exact ⟨_, rfl, rfl, rfl⟩

/-- A build that ends with a result hands its document over to the screen. -/
theorem IsKept.refresh (h : workspace.IsKept) {parser : Parser} {wanted? : Option Text}
    {result : BuildResult} {after : Workspace}
    (hrefresh : workspace.refresh parser wanted? = (.ok result, after)) : after.IsKept := by
  have hproject := project_refresh parser workspace wanted?
  rw [hrefresh] at hproject
  obtain ⟨cache, hproject, hcache, -⟩ := hproject
  refine ⟨?_, ?_⟩
  · rw [hproject, hcache]
    exact h.listeners_eq
  · unfold Workspace.refresh at hrefresh
    dsimp only at hrefresh
    split at hrefresh
    · next built hbuild =>
      cases hrefresh
      have hanswer : (workspace.begin.2.build parser wanted?).1 = .ok result := by rw [hbuild]
      have hbuilt : built = (workspace.begin.2.build parser wanted?).2 := by rw [hbuild]
      subst hbuilt
      have hpending : Accounts (workspace.begin.2.build parser wanted?).2.registry
          (workspace.begin.2.session.document?.toList ++ (result.document?.toList ++ [])) := by
        rw [List.append_nil]
        exact (Accounts.build h.accounts hanswer).perm List.perm_append_comm
      have haccepted := hpending.accept workspace.begin.1
      rw [List.append_nil] at haccepted
      exact haccepted
    · cases hrefresh

/-- A document that is built is put on screen. -/
theorem refresh_of_build {parser : Parser} {wanted? : Option Text} {document : Document} {stamp : Nat}
    (hbuild : (workspace.build parser wanted?).1 = .ok ⟨.ok document, stamp⟩) :
    ∃ shown, workspace.refresh parser wanted? = (.ok ⟨.ok document, stamp⟩, shown)
      ∧ shown.session.document? = some document := by
  have hbegun : workspace.begin.2.build parser wanted?
      = (.ok ⟨.ok document, stamp⟩, (workspace.begin.2.build parser wanted?).2) := Prod.ext hbuild rfl
  have hcurrent : ∀ registry, workspace.begin.2.session.accept registry workspace.begin.1
        ⟨.ok document, stamp⟩
      = (true, { workspace.begin.2.session with document? := some document, lastError? := none },
        Preview.releaseIfAny registry workspace.session.document?) := by
    intro registry
    unfold Session.accept
    exact if_neg fun hne => hne rfl
  refine ⟨((workspace.begin.2.build parser wanted?).2.accept workspace.begin.1 ⟨.ok document, stamp⟩).2,
    ?_, ?_⟩
  · unfold refresh
    dsimp only
    rw [hbegun]
  · exact congrArg (fun taken => taken.2.1.document?) (hcurrent (workspace.begin.2.build parser wanted?).2.registry)

/-- The references of the document on screen are live. -/
theorem IsKept.isLive (h : workspace.IsKept) {document : Document}
    (hshown : workspace.session.document? = some document) {reference : String}
    (hmem : reference ∈ document.references.values) : workspace.registry.isLive reference = true := by
  unfold Module.Registry.isLive
  rw [h.accounts.count_eq, hshown, Option.toList_some, allReferences, List.flatMap_singleton]
  exact decide_eq_true (List.count_pos_iff.mpr hmem)

/-- Nothing is live, and the module cache does not listen. -/
structure IsClosed (workspace : Workspace) : Prop where
  liveCount_eq : workspace.registry.liveCount = 0
  not_mem : .cache workspace.cache ∉ workspace.project.listeners

/-- **What is kept in order leaves no trace when it is closed.** -/
theorem IsKept.isClosed (h : workspace.IsKept) : workspace.close.IsClosed := by
  refine ⟨?_, ?_⟩
  · have hshown : Accounts workspace.registry (workspace.session.document?.toList ++ []) := by
      rw [List.append_nil]
      exact h.accounts
    have hreleased := hshown.releaseIfAny
    exact hreleased.tidy.liveCount_eq_zero hreleased.count_eq
  · show Listener.cache workspace.cache ∉ workspace.project.listeners.erase (.cache workspace.cache)
    rw [h.listeners_eq, List.erase_cons_head]
    exact List.not_mem_nil

end Workspace

end LivePreview
