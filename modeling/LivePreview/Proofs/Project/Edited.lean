/-
  LivePreview.Proofs.Project.Edited
  ─────────────────────────────────
  **At most one edit.**

  A command performs at most one edit (`Command.editedTo_run`), and so do most calls of
  tools.  What such a thing may do to a project is told by a kind to which its edit
  belongs (`Project.EditedTo`): it is an edit at the path that is given, or a move from
  there to the new path (`Tree.Edit.CoversAt`).
-/
import LivePreview.Command
import LivePreview.Proofs.Project.Freshness

namespace LivePreview

/-! ## §1. Kinds of edits -/

/-- All edits at a path are of the kind, and so are moves from there to some destinations. -/
structure Tree.Edit.CoversAt (P : Tree.Edit → Prop) (path : Text) (destination : Text → Prop) :
    Prop where
  createFile : ∀ content, P (.createFile path content)
  createDirectory : P (.createDirectory path)
  writeFile : ∀ content, P (.writeFile path content)
  delete : P (.delete path)
  rename : ∀ newPath, destination newPath → P (.rename path newPath)

/-- Every edit is an edit. -/
theorem Tree.Edit.coversAt_true (path : Text) (destination : Text → Prop) :
    CoversAt (fun _ => True) path destination :=
  ⟨fun _ => trivial, trivial, fun _ => trivial, trivial, fun _ _ => trivial⟩

namespace Project

variable {P : Tree.Edit → Prop} {project after : Project}

/-- What a project has become by at most one edit, which is of a kind. -/
def EditedTo (P : Tree.Edit → Prop) (project after : Project) : Prop :=
  after = project ∨ ∃ edit, P edit ∧ after = project.performEdit edit

/-- What every edit of the kind makes of a tree holds of the tree behind at most one of them. -/
theorem EditedTo.tree {Q : Tree → Prop} (h : project.EditedTo P after) (hbefore : Q project.tree)
    (hperform : ∀ edit, P edit → Q (project.tree.perform edit)) : Q after.tree := by
  rcases h with rfl | ⟨edit, hedit, rfl⟩
  · exact hbefore
  · rw [tree_performEdit]
    exact hperform edit hedit

theorem listeners_edit {α : Type} (project : Project)
    (operation : Tree → Except Tree.Error (Tree.Outcome α)) :
    (project.edit operation).2.listeners = project.listeners := by
  unfold edit
  split
  · exact listeners_announce _ _
  · rfl

/-- An edit subscribes nobody. -/
theorem EditedTo.listeners (h : project.EditedTo P after) : after.listeners = project.listeners := by
  rcases h with rfl | ⟨edit, -, rfl⟩
  · rfl
  · exact project.listeners_performEdit edit

end Project

/-! ## §2. Commands -/

namespace Command

variable {project : Project} {α : Type} {f : α → Answer}

theorem snd_replyOf (result : Except Tree.Error α × Project) : (replyOf f result).2 = result.2 := by
  rcases result with ⟨_ | _, after⟩ <;> rfl

theorem snd_replyTo (result : Except Tree.Error α) : (replyTo project f result).2 = project :=
  snd_replyOf _

/-- **A command performs at most one edit.** -/
theorem editedTo_run {P : Tree.Edit → Prop} (project : Project) {command : Command}
    (hcovers : ∀ path, command.path = .text path →
      Tree.Edit.CoversAt P path fun newPath => command.newPath? = some newPath) :
    project.EditedTo P (run project command).2 := by
  unfold run
  split
  · exact .inl rfl
  · next operation path _ hpath =>
    have hcovers := hcovers path hpath
    cases operation with
    | createFile => exact .inr ⟨_, hcovers.createFile (command.content?.getD ""), snd_replyOf _⟩
    | createDirectory => exact .inr ⟨_, hcovers.createDirectory, snd_replyOf _⟩
    | readFile => exact .inl (snd_replyTo _)
    | writeFile =>
      unfold runAt
      cases command.content? with
      | none => exact .inl rfl
      | some content => exact .inr ⟨_, hcovers.writeFile content, snd_replyOf _⟩
    | deleteNode => exact .inr ⟨_, hcovers.delete, snd_replyOf _⟩
    | renameNode =>
      unfold runAt
      cases hnew : command.newPath?.filter (!·.isEmpty) with
      | none => exact .inl rfl
      | some newPath =>
        have hgiven := Option.eq_some_of_filter_eq_some hnew
        exact .inr ⟨_, hcovers.rename newPath hgiven, snd_replyOf _⟩
    | «exists» => exact .inl rfl
    | listDirectory => exact .inl (snd_replyTo _)
  · exact .inl rfl

end Command

end LivePreview
