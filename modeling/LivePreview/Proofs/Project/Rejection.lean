/-
  LivePreview.Proofs.Project.Rejection
  ────────────────────────────────────
  **What fails changes nothing.**

  An edit that writes as it goes (`execute`) leaves a reachable project exactly as it was
  when it fails: the nodes, the revision, the listeners, the caches, and what observers
  have heard.  So does a command whose reply is a failure, and the kind of the failure
  is one that a response has a status for.  A call of a tool changes the project only if
  its reply tells of a success.
-/
import LivePreview.Http.Handler
import LivePreview.Lowering.Parsed
import LivePreview.Proofs.Project.Run
import LivePreview.Proofs.Tree.InPlace
import LivePreview.Tool.Call

namespace LivePreview

open LivePreview.Lowering (Parser)
open LivePreview.Tree (Edit Error Halt Outcome Program)

/-! ## §1. Edits -/

namespace Project

/-- Run the program of an edit on the tree of a project, and announce what it tells.  What the program
has written stays written if it ends early. -/
def execute (project : Project) (edit : Edit) : Except Halt Unit × Project :=
  match (Program.ofEdit edit).after project.tree with
  | (.ok told, tree) => (.ok (), { project with tree }.announce told.2)
  | (.error halt, tree) => (.error halt, { project with tree })

/-- On a well-formed tree the program of an edit has the effect of the edit, and fails where the edit
is rejected. -/
theorem execute_eq {project : Project} (h : project.tree.WellFormed) (edit : Edit) :
    project.execute edit
      = ((project.edit (·.attempt edit)).1.mapError .rejected, project.performEdit edit) := by
  rw [performEdit_eq]
  unfold execute Project.edit
  rw [Program.after_ofEdit h]
  dsimp only
  cases project.tree.attempt edit <;> rfl

/-- An operation is accepted, or it is rejected and the project is what it was. -/
theorem edit_cases {α : Type} (project : Project) (operation : Tree → Except Error (Outcome α)) :
    (∃ answer after, project.edit operation = (.ok answer, after))
      ∨ ∃ error, operation project.tree = .error error ∧ project.edit operation = (.error error, project) := by
  unfold Project.edit
  cases operation project.tree with
  | ok outcome => exact .inl ⟨_, _, rfl⟩
  | error error => exact .inr ⟨error, rfl, rfl⟩

end Project

/-! ## §2. Kinds of errors -/

namespace Tree

variable {tree : Tree} {error : Error} {path : Text}

/-- The error is about an operation, and not about a snapshot. -/
def Error.IsOperational (error : Error) : Prop :=
  error.kind ≠ .invalidSnapshot

theorem isOperational_of_missingAncestors (h : tree.missingAncestors path = .error error) :
    error.IsOperational := by
  unfold missingAncestors at h
  split at h <;> cases h
  exact nofun

theorem isOperational_of_require (h : tree.require path = .error error) : error.IsOperational := by
  unfold require at h
  split at h <;> cases h
  exact nofun

theorem isOperational_of_createFile {content : Json} (h : tree.createFile path content = .error error) :
    error.IsOperational := by
  unfold createFile createFileAt at h
  split at h
  · cases h
    exact nofun
  · exact isOperational_of_missingAncestors (Result.map_eq_error_iff.mp h)

theorem isOperational_of_createDirectory (h : tree.createDirectory path = .error error) :
    error.IsOperational := by
  unfold createDirectory at h
  dsimp only at h
  split at h
  · cases h
    exact nofun
  · cases h
  · exact isOperational_of_missingAncestors (Result.map_eq_error_iff.mp h)

theorem isOperational_of_writeFile {content : Json} (h : tree.writeFile path content = .error error) :
    error.IsOperational := by
  unfold writeFile at h
  dsimp only at h
  split at h
  · exact isOperational_of_createFile h
  · cases h
    exact nofun
  · split at h <;> cases h

theorem isOperational_of_delete (h : tree.delete path = .error error) : error.IsOperational := by
  unfold delete at h
  dsimp only at h
  split at h
  · cases h
    exact nofun
  · exact isOperational_of_require (Result.map_eq_error_iff.mp h)

theorem isOperational_of_rename {newPath : Text} (h : tree.rename path newPath = .error error) :
    error.IsOperational := by
  unfold rename at h
  dsimp only at h
  split at h
  · cases h
    exact nofun
  · split at h
    · next cause hsource =>
      cases h
      exact isOperational_of_require hsource
    · split at h
      · cases h
        exact nofun
      · split at h
        · cases h
          exact nofun
        · exact isOperational_of_missingAncestors (Result.map_eq_error_iff.mp h)

theorem isOperational_of_read (h : tree.read path = .error error) : error.IsOperational := by
  unfold read at h
  split at h
  · cases h
  · cases h
    exact nofun
  · next hrequire =>
    cases h
    exact isOperational_of_require hrequire

theorem isOperational_of_list (h : tree.list path = .error error) : error.IsOperational := by
  unfold list at h
  split at h
  · cases h
  · cases h
    exact nofun
  · next hrequire =>
    cases h
    exact isOperational_of_require hrequire

end Tree

/-! ## §3. Commands -/

namespace Command

/-- There is a status for the failure. -/
def Failure.HasStatus (failure : Failure) : Prop :=
  ∃ status, Http.failureStatus? failure.kind = some status

theorem hasStatus_flawed (flaw : Flaw) : (Failure.flawed flaw).HasStatus :=
  ⟨422, rfl⟩

theorem hasStatus_rejected {error : Error} (h : error.IsOperational) :
    (Failure.rejected error).HasStatus := by
  show ∃ status, Http.failureStatus? (.rejected error.kind) = some status
  cases hkind : error.kind with
  | invalidSnapshot => exact absurd hkind h
  | _ => exact ⟨_, rfl⟩

variable {project : Project} {α : Type} {f : α → Answer} {failure : Failure}

/-- An operation that fails leaves the project as it is. -/
theorem replyOf_edit {operation : Tree → Except Error (Outcome α)}
    (hkind : ∀ error, operation project.tree = .error error → error.IsOperational)
    (h : (replyOf f (project.edit operation)).1 = .error failure) :
    (replyOf f (project.edit operation)).2 = project ∧ failure.HasStatus := by
  rcases project.edit_cases operation with ⟨answer, after, hedit⟩ | ⟨error, hresult, hedit⟩
  · rw [hedit] at h
    cases h
  · rw [hedit] at h ⊢
    cases h
    exact ⟨rfl, hasStatus_rejected (hkind error hresult)⟩

theorem replyTo_of_error {result : Except Error α}
    (hkind : ∀ error, result = .error error → error.IsOperational)
    (h : (replyTo project f result).1 = .error failure) :
    (replyTo project f result).2 = project ∧ failure.HasStatus := by
  cases result with
  | ok answer => cases h
  | error error =>
    cases h
    exact ⟨rfl, hasStatus_rejected (hkind error rfl)⟩

theorem runAt_of_error {command : Command} {path : Text} {operation : Operation}
    (h : (runAt project command path operation).1 = .error failure) :
    (runAt project command path operation).2 = project ∧ failure.HasStatus := by
  cases operation with
  | createFile => exact replyOf_edit (fun _ => Tree.isOperational_of_createFile) h
  | createDirectory => exact replyOf_edit (fun _ => Tree.isOperational_of_createDirectory) h
  | readFile => exact replyTo_of_error (fun _ => Tree.isOperational_of_read) h
  | writeFile =>
    unfold runAt at h ⊢
    cases hcontent : command.content? with
    | none =>
      rw [hcontent] at h
      cases h
      exact ⟨rfl, hasStatus_flawed _⟩
    | some content =>
      rw [hcontent] at h
      exact replyOf_edit (fun _ => Tree.isOperational_of_writeFile) h
  | deleteNode => exact replyOf_edit (fun _ => Tree.isOperational_of_delete) h
  | renameNode =>
    unfold runAt at h ⊢
    cases hpath : command.newPath?.filter (!·.isEmpty) with
    | none =>
      rw [hpath] at h
      cases h
      exact ⟨rfl, hasStatus_flawed _⟩
    | some newPath =>
      rw [hpath] at h
      exact replyOf_edit (fun _ => Tree.isOperational_of_rename) h
  | «exists» => cases h
  | listDirectory => exact replyTo_of_error (fun _ => Tree.isOperational_of_list) h

/-- A command whose reply is a failure leaves the project as it is, and there is a status for it. -/
theorem run_of_error {command : Command} (h : (run project command).1 = .error failure) :
    (run project command).2 = project ∧ failure.HasStatus := by
  unfold run at h ⊢
  cases hname : Operation.ofName? command.operation with
  | none =>
    rw [hname] at h
    cases h
    exact ⟨rfl, hasStatus_flawed _⟩
  | some operation =>
    rw [hname] at h
    cases hpath : command.path with
    | text path =>
      rw [hpath] at h
      exact runAt_of_error h
    | _ =>
      rw [hpath] at h
      cases h
      exact ⟨rfl, hasStatus_flawed _⟩

end Command

/-! ## §4. Tools -/

namespace Tool

namespace Editor

/-- The reply tells of a change. -/
def Reply.IsDone : Reply → Prop
  | .created _ | .replaced _ _ | .inserted _ _ => True
  | .viewed _ | .nothingToView _ | .failed _ => False

variable {project : Project} {path : Text} {result : Reply × Project}

/-- The reply tells of a change, or there has been none. -/
def Honest (project : Project) (result : Reply × Project) : Prop :=
  result.1.IsDone ∨ result.2 = project

theorem honest_create (project : Project) (path : Text) (content : Json) :
    Honest project (create project path content) := by
  unfold create
  split
  · exact .inr rfl
  · rcases project.edit_cases (·.createFile path content) with ⟨answer, after, hedit⟩ | ⟨error, -, hedit⟩
    · rw [hedit]
      exact .inl trivial
    · rw [hedit]
      exact .inr rfl

theorem honest_overwrite (project : Project) (path content : Text) {reply : Reply} (hdone : reply.IsDone) :
    Honest project (overwrite project path content reply) := by
  unfold overwrite
  rcases project.edit_cases (·.writeFile path (.text content)) with
    ⟨answer, after, hedit⟩ | ⟨error, -, hedit⟩
  · rw [hedit]
    exact .inl hdone
  · rw [hedit]
    exact .inr rfl

theorem honest_replaceIn {content old new : Json}
    (hok : replaceIn project path content old new = .ok result) : Honest project result := by
  unfold replaceIn at hok
  split at hok
  · cases hok
    exact .inr rfl
  · split at hok
    · unfold replaceInText at hok
      obtain ⟨pattern, -, hok⟩ := Result.bind_eq_ok_iff.mp hok
      dsimp only at hok
      split at hok
      · cases hok
        exact .inr rfl
      · obtain ⟨replacement, -, hok⟩ := Result.bind_eq_ok_iff.mp hok
        obtain rfl := Except.ok.inj hok
        exact honest_overwrite project path _ trivial
    · split at hok <;> cases hok
      exact .inr rfl
    · cases hok

theorem honest_insertIn {content line new : Json}
    (hok : insertIn project path content line new = .ok result) : Honest project result := by
  unfold insertIn at hok
  obtain ⟨text, -, hok⟩ := Result.bind_eq_ok_iff.mp hok
  dsimp only at hok
  split at hok
  · obtain ⟨k, -, hok⟩ := Result.bind_eq_ok_iff.mp hok
    obtain ⟨inserted, -, hok⟩ := Result.bind_eq_ok_iff.mp hok
    obtain rfl := Except.ok.inj hok
    exact honest_overwrite project path _ trivial
  · cases hok
    exact .inr rfl
  · cases hok

theorem honest_editContent {f : Json → Except Misfit (Reply × Project)}
    (hf : ∀ content, f content = .ok result → Honest project result)
    (hok : editContent project path f = .ok result) : Honest project result := by
  unfold editContent at hok
  split at hok
  · cases hok
    exact .inr rfl
  · exact hf _ hok

theorem honest_run {command : Text} {arguments : Json}
    (hok : run project command path arguments = .ok result) : Honest project result := by
  unfold run at hok
  split at hok
  · obtain ⟨reply, -, rfl⟩ := Result.map_eq_ok_iff.mp hok
    exact .inr rfl
  · obtain rfl := Except.ok.inj hok
    exact honest_create project path _
  · exact honest_editContent (fun _ => honest_replaceIn) hok
  · exact honest_editContent (fun _ => honest_insertIn) hok
  · cases hok
    exact .inr rfl
  · cases hok
    exact .inr rfl

/-- The words of a reply that tells of a change are not those of a failure. -/
theorem startsWith_of_isDone {reply : Reply} (hdone : reply.IsDone) :
    reply.text.startsWith "Error:" = false ∧ reply.text.startsWith "File not found:" = false := by
  cases reply with
  | created path => exact ⟨rfl, rfl⟩
  | replaced count path => exact ⟨rfl, rfl⟩
  | inserted line path => exact ⟨rfl, rfl⟩
  | _ => exact absurd hdone id

end Editor

namespace Manager

variable {project : Project}

/-- The reply tells of a success, or there has been no change. -/
def Honest (project : Project) (result : Reply × Project) : Prop :=
  result.1.toJson.field? "success" = some (.bool true) ∨ result.2 = project

theorem honest_rename (project : Project) (path newPath : Text) :
    Honest project (rename project path newPath) := by
  unfold rename
  rcases project.edit_cases (·.rename path newPath) with ⟨answer, after, hedit⟩ | ⟨error, -, hedit⟩
  · rw [hedit]
    exact .inl rfl
  · rw [hedit]
    exact .inr rfl

theorem honest_delete (project : Project) (path : Text) : Honest project (delete project path) := by
  unfold delete
  rcases project.edit_cases (·.delete path) with ⟨answer, after, hedit⟩ | ⟨error, -, hedit⟩
  · rw [hedit]
    exact .inl rfl
  · rw [hedit]
    exact .inr rfl

theorem honest_run {command path : Text} {arguments : Json} {result : Reply × Project}
    (hok : run project command path arguments = .ok result) : Honest project result := by
  unfold run at hok
  split at hok
  · obtain ⟨newPath, -, hok⟩ := Result.bind_eq_ok_iff.mp hok
    obtain rfl := Except.ok.inj hok
    split
    · exact .inr rfl
    · exact honest_rename project path newPath
  · obtain rfl := Except.ok.inj hok
    exact honest_delete project path
  · cases hok
    exact .inr rfl

end Manager

/-- The reply tells of a failure. -/
def Reply.TellsFailure : Reply → Prop
  | .editor reply =>
    reply.text.startsWith "Error:" = true ∨ reply.text.startsWith "File not found:" = true
  | .manager reply => reply.toJson.field? "success" = some (.bool false)

/-- A call of a tool whose reply tells of a failure leaves the project as it is. -/
theorem call_of_tellsFailure {project after : Project} {name : String} {arguments : Json} {reply : Reply}
    (hok : call project name arguments = .ok (reply, after)) (hfailure : reply.TellsFailure) :
    after = project := by
  unfold call at hok
  split at hok
  · cases hok
  · split at hok
    · have hok := Result.mapError_eq_ok_iff.mp hok
      unfold runOn at hok
      split at hok
      · cases hok
      · split at hok
        · obtain ⟨⟨told, behind⟩, hrun, heq⟩ := Result.map_eq_ok_iff.mp hok
          cases heq
          refine (Editor.honest_run hrun).resolve_left fun hdone => ?_
          obtain ⟨herror, hmissing⟩ := Editor.startsWith_of_isDone hdone
          rcases hfailure with h | h
          · rw [herror] at h
            cases h
          · rw [hmissing] at h
            cases h
        · obtain ⟨⟨told, behind⟩, hrun, heq⟩ := Result.map_eq_ok_iff.mp hok
          cases heq
          refine (Manager.honest_run hrun).resolve_left fun hdone => ?_
          have hfalse : told.toJson.field? "success" = some (.bool false) := hfailure
          rw [hdone] at hfalse
          cases hfalse
    · cases hok

end Tool

/-! ## §5. Behind every run -/

namespace Project

/-- Whatever fails leaves the project exactly as it is. -/
structure Steadfast (project : Project) : Prop where
  /-- An edit that writes as it goes has the effect of the edit. -/
  executes : ∀ edit, project.execute edit
    = ((project.edit (·.attempt edit)).1.mapError .rejected, project.performEdit edit)
  /-- An edit that ends early has been rejected, and has written nothing. -/
  edit : ∀ edit halt, (project.execute edit).1 = .error halt →
    (∃ error, halt = .rejected error ∧ project.tree.attempt edit = .error error)
      ∧ (project.execute edit).2 = project ∧ project.performEdit edit = project
  /-- A command that fails has changed nothing, and there is a status for its kind of failure. -/
  command : ∀ command failure, (Command.run project command).1 = .error failure →
    (Command.run project command).2 = project ∧ ∃ status, Http.failureStatus? failure.kind = some status
  /-- A call of a tool whose reply tells of a failure has changed nothing. -/
  tool : ∀ name arguments reply after, Tool.call project name arguments = .ok (reply, after) →
    reply.TellsFailure → after = project

/-- Behind every run: an edit, a command or a call of a tool that fails leaves the nodes, the
revision, the listeners and the caches as they are, and no listener is told anything. -/
theorem steadfast_of_run (parser : Parser) (number : Nat) {start : Project}
    (hstart : start.tree.IsInitial) (actions : List Action) :
    (start.run parser number actions).Steadfast := by
  have hformed : (start.run parser number actions).tree.WellFormed := by
    rw [tree_run]
    exact hstart.wellFormed.run _
  generalize start.run parser number actions = project at hformed
  refine ⟨execute_eq hformed, fun edit halt hhalt => ?_, fun command failure => Command.run_of_error,
    fun name arguments reply after => Tool.call_of_tellsFailure⟩
  rw [execute_eq hformed] at hhalt ⊢
  rcases project.edit_cases (·.attempt edit) with ⟨answer, after, hedit⟩ | ⟨error, hresult, hedit⟩
  · rw [hedit] at hhalt
    cases hhalt
  · rw [hedit] at hhalt
    cases hhalt
    have hunchanged : project.performEdit edit = project := by rw [performEdit_eq, hedit]
    exact ⟨⟨error, rfl, hresult⟩, hunchanged, hunchanged⟩

/-- A project that consists of a file. -/
def occupiedProject : Project :=
  ({} : Project).run (Lowering.parserOf []) 0 [.edit (.createFile "/a" "x")]

/-- Beneath a file nothing can be made, whether by an edit, by a command or by a tool. -/
theorem steadfast_of_run_occupied :
    occupiedProject.Steadfast
      ∧ (occupiedProject.execute (.createFile "/a/b/c" "y")).1 = .error (.rejected (.notADirectory "/a"))
      ∧ (Command.run occupiedProject ⟨"create_directory", .text "/a/b", none, none⟩).1
          = .error (.rejected (.notADirectory "/a"))
      ∧ ∃ reply after, Tool.call occupiedProject "file_manager"
            (.object [("command", .text "delete"), ("path", .text "/")]) = .ok (reply, after)
          ∧ reply.TellsFailure :=
  ⟨steadfast_of_run (Lowering.parserOf []) 0 (.inl rfl) [.edit (.createFile "/a" "x")], rfl, rfl,
    _, _, rfl, rfl⟩

end Project

end LivePreview
