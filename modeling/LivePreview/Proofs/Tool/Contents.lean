/-
  LivePreview.Proofs.Tool.Contents
  ────────────────────────────────
  **What calls of tools put into files.**

  A call of a tool performs at most one edit (`editedTo_behind`), and an edit writes nothing but
  texts.  There is one exception: the editor takes the content of a new file as it is
  given, and nobody asks whether it is a text (`GivesValue`).  Such a call leaves a file
  behind that holds no text, if the file can be created (`Deposits`), and then what is
  written of the tree is not read back.  No other call does so, whatever its arguments
  are (`holdsTexts_behind_iff`).
-/
import LivePreview.Proofs.Project.Edited
import LivePreview.Proofs.Project.Rejection
import LivePreview.Tool.Call

namespace LivePreview

open LivePreview.Tree (Edit)

/-! ## §1. What a tool does -/

namespace Tool

variable {P : Edit → Prop}

/-- The text is what the arguments of a call give as the new path. -/
def IsDestination (arguments : Json) (newPath : Text) : Prop :=
  textOr .path (argument arguments "new_path") = .ok newPath

namespace Editor

variable {project : Project} {path : Text} {result : Reply × Project}

/-- The reply tells of a change to the file at a path. -/
def Reply.TellsOf (path : Text) : Reply → Prop
  | .created told | .replaced _ told | .inserted _ told => told = path
  | .viewed _ | .nothingToView _ | .failed _ => False

/-- Nothing has changed, or an edit of a kind has been performed and the reply tells of it. -/
def Edits (P : Edit → Prop) (project : Project) (path : Text) (result : Reply × Project) : Prop :=
  result.2 = project ∨ result.1.TellsOf path ∧ ∃ edit, P edit ∧ result.2 = project.performEdit edit

theorem Edits.editedTo (h : Edits P project path result) : project.EditedTo P result.2 :=
  h.imp_right And.right

theorem snd_create {content : Json} :
    (create project path content).2
      = if project.tree.has path then project else (project.edit (·.createFile path content)).2 := by
  unfold create
  split
  · rfl
  · rcases project.edit (·.createFile path content) with ⟨_ | _, after⟩ <;> rfl

theorem tellsOf_create (project : Project) (path : Text) (content : Json) :
    (create project path content).2 = project ∨ (create project path content).1.TellsOf path := by
  unfold create
  split
  · exact .inl rfl
  · rcases project.edit_cases (·.createFile path content) with ⟨answer, after, hedit⟩ | ⟨error, -, hedit⟩
    · rw [hedit]
      exact .inr rfl
    · rw [hedit]
      exact .inl rfl

theorem edits_overwrite {content : Text} {reply : Reply} (hwrite : P (.writeFile path content))
    (htells : reply.TellsOf path) : Edits P project path (overwrite project path content reply) := by
  unfold overwrite
  rcases project.edit_cases (·.writeFile path (.text content)) with
    ⟨answer, after, hedit⟩ | ⟨error, -, hedit⟩
  · have hafter : project.performEdit (.writeFile path content) = after := congrArg Prod.snd hedit
    rw [hedit]
    exact .inr ⟨htells, _, hwrite, hafter.symm⟩
  · rw [hedit]
    exact .inl rfl

theorem edits_replaceIn (hwrite : ∀ content, P (.writeFile path content)) {content old new : Json}
    (hok : replaceIn project path content old new = .ok result) : Edits P project path result := by
  unfold replaceIn at hok
  split at hok
  · cases hok
    exact .inl rfl
  · split at hok
    · unfold replaceInText at hok
      obtain ⟨pattern, -, hok⟩ := Result.bind_eq_ok_iff.mp hok
      dsimp only at hok
      split at hok
      · cases hok
        exact .inl rfl
      · obtain ⟨replacement, -, hok⟩ := Result.bind_eq_ok_iff.mp hok
        obtain rfl := Except.ok.inj hok
        exact edits_overwrite (hwrite _) rfl
    · split at hok <;> cases hok
      exact .inl rfl
    · cases hok

theorem edits_insertIn (hwrite : ∀ content, P (.writeFile path content)) {content line new : Json}
    (hok : insertIn project path content line new = .ok result) : Edits P project path result := by
  unfold insertIn at hok
  obtain ⟨text, -, hok⟩ := Result.bind_eq_ok_iff.mp hok
  dsimp only at hok
  split at hok
  · obtain ⟨k, -, hok⟩ := Result.bind_eq_ok_iff.mp hok
    obtain ⟨inserted, -, hok⟩ := Result.bind_eq_ok_iff.mp hok
    obtain rfl := Except.ok.inj hok
    exact edits_overwrite (hwrite _) rfl
  · cases hok
    exact .inl rfl
  · cases hok

theorem edits_editContent {f : Json → Except Misfit (Reply × Project)}
    (hf : ∀ content, f content = .ok result → Edits P project path result)
    (hok : editContent project path f = .ok result) : Edits P project path result := by
  unfold editContent at hok
  split at hok
  · cases hok
    exact .inl rfl
  · exact hf _ hok

/-- Every command but `create` performs at most one edit. -/
theorem edits_run (hwrite : ∀ content, P (.writeFile path content)) {command : Text} {arguments : Json}
    (hcommand : command.string? ≠ some "create")
    (hok : run project command path arguments = .ok result) : Edits P project path result := by
  unfold run at hok
  split at hok
  · obtain ⟨reply, -, rfl⟩ := Result.map_eq_ok_iff.mp hok
    exact .inl rfl
  · next hcreate => exact absurd hcreate hcommand
  · exact edits_editContent (fun _ => edits_replaceIn hwrite) hok
  · exact edits_editContent (fun _ => edits_insertIn hwrite) hok
  · cases hok
    exact .inl rfl
  · cases hok
    exact .inl rfl

theorem run_create {command : Text} {arguments : Json} (hcommand : command.string? = some "create") :
    run project command path arguments
      = .ok (create project path (givenContent (argument arguments "file_text"))) := by
  unfold run
  rw [hcommand]
  rfl

end Editor

namespace Manager

variable {project : Project} {path : Text} {destination : Text → Prop}

/-- The reply tells of the deletion of a path, or of a move from there to a destination. -/
def Reply.TellsOf (path : Text) (destination : Text → Prop) : Reply → Prop
  | .renamed told newPath => told = path ∧ destination newPath
  | .deleted told => told = path
  | .failed _ => False

/-- Nothing has changed, or an edit of a kind has been performed and the reply tells of it. -/
def Edits (P : Edit → Prop) (project : Project) (path : Text) (destination : Text → Prop)
    (result : Reply × Project) : Prop :=
  result.2 = project ∨
    result.1.TellsOf path destination ∧ ∃ edit, P edit ∧ result.2 = project.performEdit edit

theorem Edits.editedTo {result : Reply × Project} (h : Edits P project path destination result) :
    project.EditedTo P result.2 :=
  h.imp_right And.right

theorem edits_rename {newPath : Text} (hrename : P (.rename path newPath)) (hnew : destination newPath) :
    Edits P project path destination (rename project path newPath) := by
  unfold rename
  rcases project.edit_cases (·.rename path newPath) with ⟨answer, after, hedit⟩ | ⟨error, -, hedit⟩
  · have hafter : project.performEdit (.rename path newPath) = after := congrArg Prod.snd hedit
    rw [hedit]
    exact .inr ⟨⟨rfl, hnew⟩, _, hrename, hafter.symm⟩
  · rw [hedit]
    exact .inl rfl

theorem edits_delete (hdelete : P (.delete path)) :
    Edits P project path destination (delete project path) := by
  unfold delete
  rcases project.edit_cases (·.delete path) with ⟨answer, after, hedit⟩ | ⟨error, -, hedit⟩
  · have hafter : project.performEdit (.delete path) = after := congrArg Prod.snd hedit
    rw [hedit]
    exact .inr ⟨rfl, _, hdelete, hafter.symm⟩
  · rw [hedit]
    exact .inl rfl

theorem edits_run {command : Text} {arguments : Json} {result : Reply × Project}
    (hcovers : Edit.CoversAt P path (IsDestination arguments))
    (hok : run project command path arguments = .ok result) :
    Edits P project path (IsDestination arguments) result := by
  unfold run at hok
  split at hok
  · obtain ⟨newPath, hnew, hok⟩ := Result.bind_eq_ok_iff.mp hok
    obtain rfl := Except.ok.inj hok
    split
    · exact .inl rfl
    · exact edits_rename (hcovers.rename newPath hnew) hnew
  · obtain rfl := Except.ok.inj hok
    exact edits_delete hcovers.delete
  · cases hok
    exact .inl rfl

end Manager

/-! ## §2. What a call does -/

/-- The content that a call gives for a new file. -/
def contentGiven (arguments : Json) : Json :=
  Editor.givenContent (argument arguments "file_text")

/-- The call is one of the editor that creates a file. -/
def Creates (name : String) (arguments : Json) : Prop :=
  ofName? name = some .editor ∧ (argument arguments "command").string? = some "create"

/-- The call gives something else than a text as the content of a new file. -/
def GivesValue (name : String) (arguments : Json) : Prop :=
  Creates name arguments ∧ (contentGiven arguments).text? = none

instance (name : String) (arguments : Json) : Decidable (GivesValue name arguments) :=
  inferInstanceAs (Decidable ((_ ∧ _) ∧ _))

/-- The project behind a call, whether it replies or cannot be run. -/
def behind (project : Project) (name : String) (arguments : Json) : Project :=
  match call project name arguments with
  | .ok (_, after) => after
  | .error _ => project

variable {project : Project} {name : String} {arguments : Json}

theorem behind_of_call {reply : Reply} {after : Project}
    (hok : call project name arguments = .ok (reply, after)) : behind project name arguments = after := by
  unfold behind
  rw [hok]

/-- A call that replies has run its tool on a command and a path. -/
theorem call_eq_ok {reply : Reply} {after : Project} (hok : call project name arguments = .ok (reply, after)) :
    ∃ tool command path, ofName? name = some tool ∧ argument arguments "command" = .text command ∧
      argument arguments "path" = .text path ∧ arguments.field? "vfs" = none ∧
      runOn tool project command path arguments = .ok (reply, after) := by
  unfold call at hok
  split at hok
  · cases hok
  · next tool htool =>
    split at hok
    · next command path hcommand hpath =>
      have hrun := Result.mapError_eq_ok_iff.mp hok
      refine ⟨tool, command, path, htool, hcommand, hpath, ?_, hrun⟩
      unfold runOn at hrun
      split at hrun
      · cases hrun
      · next hfield => exact Option.not_isSome_iff_eq_none.mp hfield
    · cases hok

/-- The edits at the path that a call gives, as it is spelled or in normal form, are of a kind. -/
def Covers (P : Edit → Prop) (arguments : Json) : Prop :=
  ∀ path, argument arguments "path" = .text path →
    Edit.CoversAt P path (IsDestination arguments) ∧
      Edit.CoversAt P (Path.normalize path) (IsDestination arguments)

theorem covers_true (arguments : Json) : Covers (fun _ => True) arguments :=
  fun _ _ => ⟨Edit.coversAt_true _ _, Edit.coversAt_true _ _⟩

/-- Every call but one that creates a file performs at most one edit. -/
theorem editedTo_behind (hcreates : ¬Creates name arguments) (hcovers : Covers P arguments) :
    project.EditedTo P (behind project name arguments) := by
  unfold behind
  split
  · next reply after hok =>
    obtain ⟨tool, command, path, htool, hcommand, hpath, hfield, hrun⟩ := call_eq_ok hok
    obtain ⟨hspelled, hnormal⟩ := hcovers path hpath
    unfold runOn at hrun
    rw [hfield, if_neg nofun] at hrun
    cases tool with
    | editor =>
      obtain ⟨result, hresult, heq⟩ := Result.map_eq_ok_iff.mp hrun
      cases heq
      refine (Editor.edits_run hnormal.writeFile (fun hcreate => hcreates ⟨htool, ?_⟩) hresult).editedTo
      rw [hcommand]
      exact hcreate
    | manager =>
      obtain ⟨result, hresult, heq⟩ := Result.map_eq_ok_iff.mp hrun
      cases heq
      exact (Manager.edits_run hspelled hresult).editedTo
  · exact .inl rfl

/-- A call that creates a file does so with the content that it gives, if it has a path and none of
its fields has the name that the tool keeps for itself. -/
theorem behind_of_creates (hcreates : Creates name arguments) (hfield : arguments.field? "vfs" = none)
    {path : Text} (hpath : argument arguments "path" = .text path) :
    behind project name arguments = (project.edit (·.createFile path (contentGiven arguments))).2 := by
  obtain ⟨htool, hcommand⟩ := hcreates
  cases hargument : argument arguments "command" with
  | text command =>
    have hcommand : command.string? = some "create" := by rwa [hargument] at hcommand
    have hcall : call project name arguments
        = .ok (.editor (Editor.create project (Path.normalize path) (contentGiven arguments)).1,
          (Editor.create project (Path.normalize path) (contentGiven arguments)).2) := by
      unfold call runOn
      rw [htool, hargument, hpath, hfield]
      show ((Editor.run project command (Path.normalize path) arguments).map _).mapError _ = _
      rw [Editor.run_create hcommand]
      rfl
    have hnormal : ∀ tree : Tree, tree.createFile (Path.normalize path) (contentGiven arguments)
        = tree.createFile path (contentGiven arguments) := fun tree => by
      unfold Tree.createFile
      rw [Path.isNormal_normalize path]
    unfold behind
    rw [hcall]
    dsimp only
    rw [Editor.snd_create]
    unfold Project.edit
    dsimp only
    rw [hnormal]
    split
    · next hhas =>
      unfold Tree.createFile Tree.createFileAt
      rw [if_pos hhas]
    · rfl
  | _ =>
    rw [hargument] at hcommand
    cases hcommand

/-- A call that leaves another project behind has a path, and none of its fields has the name that
the tool keeps for itself. -/
theorem field?_of_behind_ne (h : behind project name arguments ≠ project) :
    arguments.field? "vfs" = none ∧ ∃ path, argument arguments "path" = .text path := by
  unfold behind at h
  split at h
  · next reply after hok =>
    obtain ⟨-, -, path, -, -, hpath, hfield, -⟩ := call_eq_ok hok
    exact ⟨hfield, path, hpath⟩
  · exact absurd rfl h

/-- A call performs at most one edit, or it creates a file with the content that it gives. -/
theorem behind_cases (project : Project) (name : String) (hcovers : Covers P arguments) :
    project.EditedTo P (behind project name arguments) ∨
      Creates name arguments ∧ ∃ path, argument arguments "path" = .text path ∧
        behind project name arguments = (project.edit (·.createFile path (contentGiven arguments))).2 := by
  by_cases hcreates : Creates name arguments
  · by_cases heq : behind project name arguments = project
    · exact .inl (.inl heq)
    · obtain ⟨hfield, path, hpath⟩ := field?_of_behind_ne heq
      exact .inr ⟨hcreates, path, hpath, behind_of_creates hcreates hfield hpath⟩
  · exact .inl (editedTo_behind hcreates hcovers)

/-- Every call that does not give something else than a text performs at most one edit. -/
theorem editedTo_behind_of_text (htext : ¬GivesValue name arguments) (hcovers : Covers P arguments) :
    project.EditedTo P (behind project name arguments) := by
  rcases behind_cases project name hcovers with hedited | ⟨hcreates, path, hpath, heq⟩
  · exact hedited
  · rw [heq]
    cases hcontent : contentGiven arguments with
    | text content => exact .inr ⟨_, (hcovers path hpath).1.createFile content, rfl⟩
    | _ => exact absurd ⟨hcreates, by rw [hcontent]; rfl⟩ htext

/-! ## §3. Texts and values -/

/-- The call leaves a file behind that holds no text: what it gives is no text, and the file can be
created. -/
def Deposits (project : Project) (name : String) (arguments : Json) : Prop :=
  GivesValue name arguments ∧ arguments.field? "vfs" = none ∧
    ∃ path outcome, argument arguments "path" = .text path ∧
      project.tree.createFile path (contentGiven arguments) = .ok outcome

/-- The tree is well-formed, and all its files hold texts. -/
structure Sound (project : Project) : Prop where
  wellFormed : project.tree.WellFormed
  holdsTexts : project.tree.HoldsTexts

theorem Sound.editedTo (h : Sound project) {after : Project} (hedited : project.EditedTo P after) :
    Sound after :=
  ⟨hedited.tree h.wellFormed fun edit _ => h.wellFormed.perform edit,
    hedited.tree h.holdsTexts fun edit _ => h.holdsTexts.perform edit⟩

/-- A file that is created with something else than a text holds no text. -/
theorem not_holdsTexts_of_createFile {tree : Tree} {path : Text} {content : Json}
    {outcome : Tree.Outcome Text} (hcontent : content.text? = none)
    (hok : tree.createFile path content = .ok outcome) : ¬outcome.tree.HoldsTexts := by
  obtain ⟨-, missing, -, rfl⟩ := Tree.createFileAt_eq_ok hok
  intro htexts
  have hbare : ((tree.attachDirectories missing).attach (Path.normalize path) (.file content)).bare
      (Path.normalize path) = some (.file content) := by
    rw [Tree.bare_attach, if_pos rfl]
    rfl
  obtain ⟨s, rfl⟩ := Tree.holdsTexts_iff.mp htexts _ _ hbare content rfl
  cases hcontent

/-- What a call leaves behind is a tree of texts, unless the call leaves a file behind that holds no
text; it is a well-formed tree in any case. -/
theorem Sound.behind (h : Sound project) (name : String) (arguments : Json) :
    (behind project name arguments).tree.WellFormed ∧
      ((behind project name arguments).tree.HoldsTexts ↔ ¬Deposits project name arguments) := by
  by_cases hvalue : GivesValue name arguments
  · by_cases hplace : arguments.field? "vfs" = none ∧ ∃ path, argument arguments "path" = .text path
    · obtain ⟨hfield, path, hpath⟩ := hplace
      have htree := Project.tree_edit project (·.createFile path (contentGiven arguments))
      rw [← behind_of_creates hvalue.1 hfield hpath] at htree
      rw [htree]
      cases hresult : project.tree.createFile path (contentGiven arguments) with
      | error error =>
        refine ⟨h.wellFormed, fun _ hdeposits => ?_, fun _ => h.holdsTexts⟩
        obtain ⟨-, -, other, outcome, hother, hok⟩ := hdeposits
        obtain rfl := Json.text.inj (hpath.symm.trans hother)
        rw [hok] at hresult
        cases hresult
      | ok outcome =>
        refine ⟨h.wellFormed.createFileAt (Path.isNormal_normalize path) hresult, fun htexts => ?_,
          fun hno => absurd ⟨hvalue, hfield, path, outcome, hpath, hresult⟩ hno⟩
        exact absurd htexts (not_holdsTexts_of_createFile hvalue.2 hresult)
    · have heq : Tool.behind project name arguments = project :=
        Classical.byContradiction fun hne => hplace (field?_of_behind_ne hne)
      rw [heq]
      refine ⟨h.wellFormed, fun _ hdeposits => ?_, fun _ => h.holdsTexts⟩
      obtain ⟨-, hfield, path, -, hpath, -⟩ := hdeposits
      exact hplace ⟨hfield, path, hpath⟩
  · have hedited : project.EditedTo (fun _ => True) (Tool.behind project name arguments) :=
      editedTo_behind_of_text hvalue (covers_true arguments)
    have hsound := h.editedTo hedited
    exact ⟨hsound.wellFormed, fun _ hdeposits => hvalue hdeposits.1, fun _ => hsound.holdsTexts⟩

/-! ## §4. Behind every run -/

/-- What may be done with a project. -/
inductive Action where
  | edit (edit : Tree.Edit)
  | call (name : String) (arguments : Json)

/-- The project behind an action. -/
def perform (project : Project) : Action → Project
  | .edit edit => project.performEdit edit
  | .call name arguments => behind project name arguments

/-- The project behind a run of actions. -/
def run (project : Project) (actions : List Action) : Project :=
  actions.foldl perform project

/-- The action is a call that gives something else than a text as the content of a new file. -/
def Action.GivesValue : Action → Prop
  | .edit _ => False
  | .call name arguments => Tool.GivesValue name arguments

theorem Sound.perform (h : Sound project) {action : Action} (htext : ¬action.GivesValue) :
    Sound (perform project action) := by
  cases action with
  | edit edit => exact h.editedTo (P := fun _ => True) (.inr ⟨edit, trivial, rfl⟩)
  | call name arguments => exact h.editedTo (editedTo_behind_of_text htext (covers_true arguments))

theorem Sound.run (h : Sound project) {actions : List Action}
    (htexts : ∀ action ∈ actions, ¬action.GivesValue) : Sound (run project actions) := by
  unfold Tool.run
  induction actions generalizing project with
  | nil => exact h
  | cons action actions ih =>
    rw [List.forall_mem_cons] at htexts
    exact ih (h.perform htexts.1) htexts.2

/-- Behind every run in which no call gives something else than a text for a new file: whatever a call
is given, and whether it replies or not, the files hold texts after it, and what is written of the tree
is read back as the tree, unless the call itself leaves a file behind that holds no text. -/
theorem holdsTexts_behind_iff {start : Project} (hstart : start.tree.IsInitial) {actions : List Action}
    (htexts : ∀ action ∈ actions, ¬action.GivesValue) (name : String) (arguments : Json) :
    let project := run start actions
    let after := (behind project name arguments).tree
    (after.HoldsTexts ↔ ¬Deposits project name arguments) ∧
      (Tree.ofSnapshot (.ofFields after.serialize) = .ok after ↔ ¬Deposits project name arguments) := by
  intro project after
  have hsound : Sound project := Sound.run ⟨hstart.wellFormed, hstart.holdsTexts⟩ htexts
  obtain ⟨hformed, htext⟩ := hsound.behind name arguments
  refine ⟨htext, fun hread => htext.mp (Tree.holdsTexts_ofSnapshot hread), fun hno => ?_⟩
  exact hformed.ofSnapshot_serialize (htext.mpr hno)

/-- The arguments of a call that creates a file. -/
def creating (path : Text) (content : Json) : Json :=
  .object [("command", .text "create"), ("path", .text path), ("file_text", content)]

/-- A run that makes a directory and puts a file with a text into it. -/
def textActions : List Action :=
  [.edit (.createDirectory "/src"), .call "str_replace_editor" (creating "/src/a.txt" (.text "x"))]

/-- Behind this run a number for a file that exists already does no harm, and one for a new file
does. -/
theorem holdsTexts_behind_iff_number :
    (behind (run {} textActions) "str_replace_editor" (creating "/src/a.txt" (.int 5))).tree.HoldsTexts ∧
      ¬(behind (run {} textActions) "str_replace_editor" (creating "/b.txt" (.int 5))).tree.HoldsTexts := by
  have hcall : ¬GivesValue "str_replace_editor" (creating "/src/a.txt" (.text "x")) := by decide
  have htexts : ∀ action ∈ textActions, ¬action.GivesValue :=
    List.forall_mem_cons.mpr ⟨id, List.forall_mem_cons.mpr ⟨hcall, nofun⟩⟩
  refine ⟨?_, ?_⟩
  · refine (holdsTexts_behind_iff (.inl rfl) htexts _ _).1.mpr fun hdeposits => ?_
    obtain ⟨-, -, path, outcome, hpath, hok⟩ := hdeposits
    obtain rfl := Json.text.inj hpath
    cases hok
  · refine fun hholds => (holdsTexts_behind_iff (.inl rfl) htexts _ _).1.mp hholds ?_
    exact ⟨by decide, rfl, "/b.txt", _, rfl, rfl⟩

/-- A number that the editor is given for a new file becomes its content, and what is written of the
tree is not read back. -/
theorem get?_behind_number :
    let after := (behind {} "str_replace_editor" (creating "/a.txt" (.int 5))).tree
    after.get? "/a.txt" = some (.file (.int 5)) ∧
      Tree.ofSnapshot (.ofFields after.serialize) = .error (.snapshot (.contentNotText "/a.txt")) :=
  ⟨rfl, rfl⟩

end Tool

end LivePreview
