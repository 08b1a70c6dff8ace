/-
  LivePreview.Proofs.Project.Revision
  ───────────────────────────────────
  **The revision is a version stamp of the tree.**

  Whatever is done with a project, whether by an edit, a command, a call of a tool or a
  build, either leaves its tree and its revision as they are or raises the revision by
  one (`Stamped`); an operation that announces nothing has not touched the tree.  So of
  two moments of a run the later one has a higher revision or the same tree (`Follows`),
  and the revision tells the trees of a run apart (`versioned_of_run`).  A build is
  stamped with the revision of the tree that it was made from, so that it is up to date
  if that is the current revision.

  A question to a tree has no project to change.  Where one is asked by way of a project,
  as a command or by a tool, the project is the same behind it.
-/
import LivePreview.Proofs.Project.Edited
import LivePreview.Proofs.Tool.Contents

namespace LivePreview

open LivePreview.Lowering (Options Parser)

/-! ## §1. Operations that announce nothing -/

namespace Tree

variable {tree : Tree} {path : Text}

/-- What is done without an announcement leaves the tree as it is. -/
def IsTold {α : Type} (tree : Tree) (result : Except Error (Outcome α)) : Prop :=
  ∀ outcome, result = .ok outcome → outcome.changes? = none → outcome.tree = tree

theorem isTold_map {α β : Type} {result : Except Error α} {f : α → Outcome β}
    (htold : ∀ a, (f a).changes? ≠ none) : tree.IsTold (result.map f) := by
  intro outcome hok hquiet
  obtain ⟨a, -, rfl⟩ := Result.map_eq_ok_iff.mp hok
  exact absurd hquiet (htold a)

theorem isTold_createFile (tree : Tree) (path : Text) (content : Json) :
    tree.IsTold (tree.createFile path content) := by
  intro outcome hok hquiet
  obtain ⟨-, missing, -, rfl⟩ := createFileAt_eq_ok hok
  cases hquiet

theorem isTold_createDirectory (tree : Tree) (path : Text) :
    tree.IsTold (tree.createDirectory path) := by
  intro outcome hok hquiet
  rcases createDirectory_eq_ok hok with ⟨children, -, rfl⟩ | ⟨-, missing, -, rfl⟩
  · rfl
  · cases hquiet

theorem isTold_writeFile (tree : Tree) (path : Text) (content : Json) :
    tree.IsTold (tree.writeFile path content) := by
  intro outcome hok hquiet
  rcases writeFile_eq_ok hok with hcreate | ⟨current, -, ⟨-, rfl⟩ | ⟨-, rfl⟩⟩
  · exact isTold_createFile tree _ content outcome hcreate hquiet
  · rfl
  · cases hquiet

theorem isTold_rename (tree : Tree) (oldPath newPath : Text) :
    tree.IsTold (tree.rename oldPath newPath) := by
  intro outcome hok hquiet
  obtain ⟨source, missing, -, -, rfl⟩ := rename_eq_ok hok
  cases hquiet

theorem isTold_delete (tree : Tree) (path : Text) : tree.IsTold (tree.delete path) := by
  intro outcome hok hquiet
  obtain ⟨-, -, rfl⟩ := delete_eq_ok hok
  cases hquiet

theorem isTold_attempt (tree : Tree) (edit : Edit) : tree.IsTold (tree.attempt edit) := by
  have hsilent : ∀ {α : Type} {result : Except Error (Outcome α)}, tree.IsTold result →
      tree.IsTold (result.map .quiet) := by
    intro α result htold outcome hok hquiet
    obtain ⟨loud, hloud, rfl⟩ := Result.map_eq_ok_iff.mp hok
    exact htold loud hloud hquiet
  cases edit with
  | createFile path content => exact hsilent (isTold_createFile tree path _)
  | createDirectory path => exact hsilent (isTold_createDirectory tree path)
  | writeFile path content => exact hsilent (isTold_writeFile tree path _)
  | delete path => exact hsilent (isTold_delete tree path)
  | rename oldPath newPath => exact hsilent (isTold_rename tree oldPath newPath)
  | replace snapshot => exact isTold_map fun _ => nofun

/-- A directory that is there is not made again. -/
theorem createDirectory_of_isDirectory (h : tree.isDirectory path = true) :
    tree.createDirectory path = .ok ⟨Path.normalize path, tree, none⟩ := by
  unfold isDirectory isDirectoryAt at h
  unfold createDirectory
  dsimp only
  cases hnode : tree.get? (Path.normalize path) with
  | none =>
    rw [hnode] at h
    cases h
  | some node =>
    rw [hnode] at h
    cases node with
    | file content => cases h
    | directory children => rfl

/-- A file that holds a text is not written again with this text. -/
theorem writeFile_of_read {content : Text} (h : tree.read path = .ok (.text content)) :
    tree.writeFile path (.text content) = .ok ⟨Path.normalize path, tree, none⟩ := by
  unfold writeFile
  dsimp only
  rw [get?_of_read h]
  have hagrees : (Json.text content).agrees (.text content) = true := by
    unfold Json.agrees
    exact beq_self_eq_true content
  exact if_pos hagrees

end Tree

/-! ## §2. Questions -/

/-- The operation asks for something and does nothing else. -/
def Operation.IsQuestion : Operation → Prop
  | .readFile | .exists | .listDirectory => True
  | .createFile | .createDirectory | .writeFile | .deleteNode | .renameNode => False

theorem Command.run_of_isQuestion (project : Project) {command : Command} {operation : Operation}
    (hname : Operation.ofName? command.operation = some operation) (hquestion : operation.IsQuestion) :
    (run project command).2 = project := by
  unfold run
  rw [hname]
  cases command.path with
  | text path =>
    cases operation with
    | readFile => exact snd_replyTo _
    | «exists» => rfl
    | listDirectory => exact snd_replyTo _
    | _ => exact hquestion.elim
  | _ => rfl

theorem Tool.behind_of_view (project : Project) (name : String) {arguments : Json}
    (hview : argument arguments "command" = .text "view") : behind project name arguments = project := by
  unfold behind
  split
  · next reply after hok =>
    obtain ⟨tool, command, path, -, hcommand, -, hfield, hrun⟩ := call_eq_ok hok
    obtain rfl := Json.text.inj (hview.symm.trans hcommand)
    unfold runOn at hrun
    rw [hfield, if_neg nofun] at hrun
    cases tool with
    | editor =>
      obtain ⟨result, hresult, heq⟩ := Result.map_eq_ok_iff.mp hrun
      obtain ⟨seen, -, rfl⟩ := Result.map_eq_ok_iff.mp hresult
      cases heq
      rfl
    | manager =>
      obtain ⟨result, hresult, heq⟩ := Result.map_eq_ok_iff.mp hrun
      cases hresult
      cases heq
      rfl
  · rfl

namespace Project

/-! ## §3. Stamps -/

/-- Tree and revision are as they were, or the revision has been raised by one. -/
def Stamped (project after : Project) : Prop :=
  after.tree = project.tree ∧ after.revision = project.revision
    ∨ after.revision = project.revision + 1

variable {project between after : Project} {parser : Parser}

theorem revision_announce (changes? : Option (List Tree.Change)) :
    (project.announce changes?).revision
      = if changes?.isSome then project.revision + 1 else project.revision := by
  have htell : ∀ (told : Project) change listener, (tell change told listener).revision = told.revision := by
    intro told change listener
    cases listener <;> rfl
  cases changes? with
  | none => rfl
  | some changes =>
    show (changes.foldl deliver { project with revision := project.revision + 1 }).revision = _
    have hraised : ({ project with revision := project.revision + 1 } : Project).revision
      = project.revision + 1 := rfl
    generalize { project with revision := project.revision + 1 } = raised at hraised ⊢
    induction changes generalizing raised with
    | nil => exact hraised
    | cons change changes ih =>
      refine ih _ ?_
      exact deliver_preserves (P := fun told => told.revision = project.revision + 1)
        (fun told change listener h => (htell told change listener).trans h) hraised change

theorem stamped_edit {α : Type} {operation : Tree → Except Tree.Error (Tree.Outcome α)}
    (htold : project.tree.IsTold (operation project.tree)) :
    project.Stamped (project.edit operation).2 := by
  unfold edit
  split
  · next outcome hok =>
    unfold Stamped
    rw [tree_announce, revision_announce]
    cases hchanges : outcome.changes? with
    | none => exact .inl ⟨htold outcome hok hchanges, rfl⟩
    | some changes => exact .inr rfl
  · exact .inl ⟨rfl, rfl⟩

theorem stamped_performEdit (project : Project) (edit : Tree.Edit) :
    project.Stamped (project.performEdit edit) := by
  rw [performEdit_eq]
  exact stamped_edit (project.tree.isTold_attempt edit)

theorem EditedTo.stamped {P : Tree.Edit → Prop} (h : project.EditedTo P after) :
    project.Stamped after := by
  rcases h with rfl | ⟨edit, -, rfl⟩
  · exact .inl ⟨rfl, rfl⟩
  · exact project.stamped_performEdit edit

theorem stamped_behind (project : Project) (name : String) (arguments : Json) :
    project.Stamped (Tool.behind project name arguments) := by
  rcases Tool.behind_cases project name (Tool.covers_true arguments) with
    hedited | ⟨-, path, -, heq⟩
  · exact hedited.stamped
  · rw [heq]
    exact stamped_edit (project.tree.isTold_createFile path _)

/-! ## §4. Uses -/

/-- What may be done with a project. -/
inductive Use where
  /-- An edit, or something that is done by way of the cache with a number. -/
  | act (number : Nat) (action : Action)
  | command (command : Command)
  | tool (name : String) (arguments : Json)
  | subscribe (listener : Listener)
  | unsubscribe (listener : Listener)
  /-- A cache is asked for. -/
  | attach (options : Options)

/-- The project behind a use. -/
def use (parser : Parser) (project : Project) : Use → Project
  | .act number action => project.perform parser number action
  | .command command => (Command.run project command).2
  | .tool name arguments => Tool.behind project name arguments
  | .subscribe listener => project.subscribe listener
  | .unsubscribe listener => project.unsubscribe listener
  | .attach options => (project.attachedCache options).2

theorem stamped_use (parser : Parser) (project : Project) (use : Use) :
    project.Stamped (project.use parser use) := by
  cases use with
  | act number action =>
    cases action with
    | edit edit => exact project.stamped_performEdit edit
    | _ => exact .inl ⟨rfl, rfl⟩
  | command command =>
    exact (Command.editedTo_run project fun path _ => Tree.Edit.coversAt_true path _).stamped
  | tool name arguments => exact project.stamped_behind name arguments
  | attach options =>
    show project.Stamped (project.attachedCache options).2
    unfold attachedCache
    split <;> exact .inl ⟨rfl, rfl⟩
  | _ => exact .inl ⟨rfl, rfl⟩

/-! ## §5. Moments of a run -/

/-- The project behind the first uses of a run. -/
def moment (parser : Parser) (start : Project) (uses : List Use) (i : Nat) : Project :=
  (uses.take i).foldl (use parser) start

/-- The revision is not lower than it was, and if it is the same, so is the tree. -/
structure Follows (project after : Project) : Prop where
  revision_le : project.revision ≤ after.revision
  tree_eq : after.revision = project.revision → after.tree = project.tree

theorem Stamped.follows (h : project.Stamped after) : project.Follows after := by
  rcases h with ⟨htree, hrevision⟩ | hraised
  · exact ⟨hrevision.ge, fun _ => htree⟩
  · exact ⟨by omega, fun heq => by omega⟩

theorem Follows.trans (h : project.Follows between) (h' : between.Follows after) :
    project.Follows after := by
  have hfirst := h.revision_le
  have hsecond := h'.revision_le
  refine ⟨Nat.le_trans hfirst hsecond, fun heq => ?_⟩
  -- a revision that is the same at both ends is the same in between
  rw [h'.tree_eq (by omega), h.tree_eq (by omega)]

theorem follows_foldl (parser : Parser) (project : Project) (uses : List Use) :
    project.Follows (uses.foldl (use parser) project) := by
  induction uses generalizing project with
  | nil => exact ⟨Nat.le_refl _, fun _ => rfl⟩
  | cons use uses ih => exact (project.stamped_use parser use).follows.trans (ih _)

variable {start : Project} {uses : List Use}

/-- A later moment of a run follows an earlier one. -/
theorem follows_moment {i j : Nat} (hle : i ≤ j) :
    (start.moment parser uses i).Follows (start.moment parser uses j) := by
  have htake : uses.take j = uses.take i ++ (uses.drop i).take (j - i) := by
    obtain ⟨k, rfl⟩ := Nat.exists_eq_add_of_le hle
    rw [Nat.add_sub_cancel_left, List.take_add]
  unfold moment
  rw [htake, List.foldl_append]
  exact follows_foldl parser _ _

theorem stamped_moment (i : Nat) :
    (start.moment parser uses i).Stamped (start.moment parser uses (i + 1)) := by
  unfold moment
  rw [List.take_add_one, List.foldl_append]
  cases uses[i]? with
  | none => exact .inl ⟨rfl, rfl⟩
  | some use => exact stamped_use parser _ use

/-- Two moments with one revision have one tree. -/
theorem tree_moment_eq {i j : Nat}
    (heq : (start.moment parser uses i).revision = (start.moment parser uses j).revision) :
    (start.moment parser uses i).tree = (start.moment parser uses j).tree := by
  rcases Nat.le_total i j with hle | hle
  · exact ((follows_moment hle).tree_eq heq.symm).symm
  · exact (follows_moment hle).tree_eq heq

/-! ## §6. Builds -/

/-- A document has the revision of the result that it belongs to. -/
theorem revision_of_documentOf {config : Preview.Config} {entry : Text} {revision : Nat}
    {graph : Preview.Graph} {registry : Module.Registry} {document : Preview.Document}
    (hok : (Preview.documentOf config entry revision graph registry).1 = .ok document) :
    document.revision = revision := by
  obtain ⟨references, -, hdocument⟩ := Result.bind_eq_ok_iff.mp hok
  unfold Preview.documentWith at hdocument
  split at hdocument
  · cases hdocument
    rfl
  · cases hdocument

/-- What a build answers has the revision that the build was given. -/
theorem revision_of_buildTree {setting : Preview.Setting} {revision : Nat} {registry : Module.Registry}
    {cache : Module.Cache} {wanted? : Option Text} {result : Preview.BuildResult}
    (hok : (Preview.buildTree setting revision registry cache wanted?).answer = .ok result) :
    result.revision = revision ∧
      ∀ document, result.outcome = .ok document → document.revision = revision := by
  unfold Preview.buildTree at hok
  split at hok
  · cases hok
  · cases hok
    exact ⟨rfl, nofun⟩
  · split at hok
    · next document registry hmade =>
      cases hok
      refine ⟨rfl, fun other hother => ?_⟩
      cases hother
      exact revision_of_documentOf (congrArg Prod.fst hmade)
    · cases hok

/-! ## §7. Along every run -/

/-- Nothing that is done without effect on the tree changes a project at all. -/
structure Idles (project : Project) : Prop where
  /-- An edit that is rejected. -/
  edit : ∀ edit error, project.tree.attempt edit = .error error → project.performEdit edit = project
  /-- A command that fails. -/
  command : ∀ command failure, (Command.run project command).1 = .error failure →
    (Command.run project command).2 = project
  /-- A call of a tool that cannot be run, or whose reply tells of a failure. -/
  tool : ∀ name arguments, (∀ reply after, Tool.call project name arguments = .ok (reply, after) →
    reply.TellsFailure) → Tool.behind project name arguments = project
  /-- A command that only asks. -/
  question : ∀ command operation, Operation.ofName? command.operation = some operation →
    operation.IsQuestion → (Command.run project command).2 = project
  /-- A tool that shows a file or a directory. -/
  view : ∀ name arguments, Tool.argument arguments "command" = .text "view" →
    Tool.behind project name arguments = project
  /-- A directory that is there is to be created. -/
  createDirectory : ∀ path, project.tree.isDirectory path = true →
    project.performEdit (.createDirectory path) = project
  /-- A file is to be given the content that it has. -/
  writeFile : ∀ path content, project.tree.read path = .ok (.text content) →
    project.performEdit (.writeFile path content) = project

/-- An accepted operation that finds nothing to do leaves the project as it is. -/
theorem edit_of_idle {α : Type} {operation : Tree → Except Tree.Error (Tree.Outcome α)} {answer : α}
    (hok : operation project.tree = .ok ⟨answer, project.tree, none⟩) :
    (project.edit operation).2 = project := by
  unfold Project.edit
  rw [hok]
  rfl

theorem idles (project : Project) : project.Idles where
  edit edit error hrejected := by rw [performEdit_eq_announce, hrejected]
  command command failure := fun hfailure => (Command.run_of_error hfailure).1
  tool name arguments hfails := by
    unfold Tool.behind
    split
    · next reply after hok => exact Tool.call_of_tellsFailure hok (hfails reply after hok)
    · rfl
  question command operation := Command.run_of_isQuestion project
  view name arguments := Tool.behind_of_view project name
  createDirectory path hthere := edit_of_idle (Tree.createDirectory_of_isDirectory hthere)
  writeFile path content hsame := edit_of_idle (Tree.writeFile_of_read hsame)

/-- The revision is a version stamp along a run. -/
structure Versioned (parser : Parser) (start : Project) (uses : List Use) : Prop where
  revision_le : ∀ i j, i ≤ j → (start.moment parser uses i).revision ≤ (start.moment parser uses j).revision
  revision_succ_le : ∀ i,
    (start.moment parser uses (i + 1)).revision ≤ (start.moment parser uses i).revision + 1
  idles : ∀ i, (start.moment parser uses i).Idles
  tree_eq : ∀ i j, (start.moment parser uses i).revision = (start.moment parser uses j).revision →
    (start.moment parser uses i).tree = (start.moment parser uses j).tree
  /-- What is built at one moment, and has the revision of another one, is what a build makes of the
  tree of that one, and its document has this revision too. -/
  build : ∀ i j config number registry wanted? result,
    (Preview.build parser config number (start.moment parser uses i) registry wanted?).1 = .ok result →
    result.revision = (start.moment parser uses j).revision →
      (Preview.buildTree ⟨parser, (start.moment parser uses j).tree, config⟩
          (start.moment parser uses j).revision registry
          ((start.moment parser uses i).cacheAt number) wanted?).answer = .ok result ∧
        ∀ document, result.outcome = .ok document →
          document.revision = (start.moment parser uses j).revision

/-- Along every run the revision never falls, and no use raises it by more than one; what is rejected,
asks, or finds nothing to do leaves the project as it is; at two moments with one revision the tree is
the same; and a build with the current revision is made from the current tree. -/
theorem versioned_of_run (parser : Parser) (start : Project) (uses : List Use) :
    Versioned parser start uses := by
  refine ⟨fun i j hle => (follows_moment hle).revision_le, fun i => ?_, fun i => idles _,
    fun i j => tree_moment_eq, fun i j config number registry wanted? result hok hrevision => ?_⟩
  · have hstamped : (start.moment parser uses i).Stamped (start.moment parser uses (i + 1)) :=
      stamped_moment i
    rcases hstamped with ⟨-, hsame⟩ | hraised
    · exact hsame.le.trans (Nat.le_succ _)
    · exact hraised.le
  · obtain ⟨hstamp, hdocument⟩ := revision_of_buildTree hok
    have heq := hstamp.symm.trans hrevision
    refine ⟨?_, fun document hmade => (hdocument document hmade).trans heq⟩
    rw [← tree_moment_eq heq, ← heq]
    exact hok

/-- A file is created; four uses have no effect, one of them because it is rejected; then the file is
moved below a new directory. -/
def idleUses : List Use :=
  [.act 0 (.edit (.createFile "/a.css" "p\x7b\x7d")), .act 0 (.edit (.createDirectory "/")),
    .act 0 (.edit (.writeFile "a.css" "p\x7b\x7d")), .command ⟨"read_file", .text "/a.css", none, none⟩,
    .tool "file_manager" (.object [("command", .text "delete"), ("path", .text "/")]),
    .act 0 (.edit (.rename "/a.css" "/b/a.css"))]

/-- Four uses leave the revision as it is. -/
example : ((List.range 7).map fun i => (moment (Lowering.parserOf []) {} idleUses i).revision)
    = [0, 1, 1, 1, 1, 1, 2] := by
  decide +kernel

end Project

end LivePreview
