/-
  LivePreview.Proofs.Tool.Telling
  ───────────────────────────────
  **What is told of a command or a call can be written down.**

  An error names no paths but the ones that an operation was given, in normal form, and
  directories above them.  So what is told of a failure can be expressed in bytes if the
  paths of the command can (`isEncodable_toJson_error`).  An accepted command has changed
  nothing, or it answers with paths of its own or of the tree
  (`tellsPaths_or_unchanged`).

  A call of a tool that has changed something tells of its path, of its new path, and of
  numbers.  So its reply and its label can be expressed in bytes if its arguments can
  (`isTold_or_unchanged`, `isEncodable_label`), and the same holds of the paths that it
  leaves behind (`isTellable_behind`).
-/
import LivePreview.Json.Encodable
import LivePreview.Proofs.Project.Edited
import LivePreview.Proofs.Project.Rejection
import LivePreview.Proofs.Tool.Contents
import LivePreview.Proofs.Tree.Telling

namespace LivePreview

open LivePreview.Tree (Error Outcome)

/-! ## §1. Errors -/

namespace Tree

variable {tree : Tree} {error : Error} {path : Text}

/-- The paths that an error about an operation names. -/
def Error.paths : Error → List Text
  | .notFound path | .fileExists path | .destinationExists path | .notADirectory path
  | .fileInTheWay path | .isADirectory path => [path]
  | .moveIntoItself source destination => [source, destination]
  | .deleteRoot | .renameRoot | .snapshot _ => []

/-- All paths that the error names can be expressed in bytes. -/
def Error.IsTellable (error : Error) : Prop :=
  ∀ path ∈ error.paths, path.isEncodable = true

theorem isTellable_of_missingAncestors (h : path.isEncodable = true)
    (hfailed : tree.missingAncestors (Path.normalize path) = .error error) : error.IsTellable := by
  unfold missingAncestors at hfailed
  split at hfailed <;> cases hfailed
  next file hfile =>
  have hwithin := (Path.isNormal_normalize path).isWithin_of_mem_ancestors (List.mem_of_find?_eq_some hfile)
  exact List.forall_mem_singleton.mpr
    (Path.isEncodable_of_isWithin (Path.isEncodable_normalize h) hwithin)

theorem isTellable_of_require (h : path.isEncodable = true)
    (hfailed : tree.require (Path.normalize path) = .error error) : error.IsTellable := by
  unfold require at hfailed
  split at hfailed <;> cases hfailed
  exact List.forall_mem_singleton.mpr (Path.isEncodable_normalize h)

theorem isTellable_of_createFile {content : Json} (h : path.isEncodable = true)
    (hfailed : tree.createFile path content = .error error) : error.IsTellable := by
  unfold createFile createFileAt at hfailed
  split at hfailed
  · cases hfailed
    exact List.forall_mem_singleton.mpr (Path.isEncodable_normalize h)
  · exact isTellable_of_missingAncestors h (Result.map_eq_error_iff.mp hfailed)

theorem isTellable_of_createDirectory (h : path.isEncodable = true)
    (hfailed : tree.createDirectory path = .error error) : error.IsTellable := by
  unfold createDirectory at hfailed
  dsimp only at hfailed
  split at hfailed
  · cases hfailed
    exact List.forall_mem_singleton.mpr (Path.isEncodable_normalize h)
  · cases hfailed
  · exact isTellable_of_missingAncestors h (Result.map_eq_error_iff.mp hfailed)

theorem isTellable_of_writeFile {content : Json} (h : path.isEncodable = true)
    (hfailed : tree.writeFile path content = .error error) : error.IsTellable := by
  unfold writeFile at hfailed
  dsimp only at hfailed
  split at hfailed
  · exact isTellable_of_createFile (Path.isEncodable_normalize h) hfailed
  · cases hfailed
    exact List.forall_mem_singleton.mpr (Path.isEncodable_normalize h)
  · split at hfailed <;> cases hfailed

theorem isTellable_of_delete (h : path.isEncodable = true)
    (hfailed : tree.delete path = .error error) : error.IsTellable := by
  unfold delete at hfailed
  dsimp only at hfailed
  split at hfailed
  · cases hfailed
    exact nofun
  · exact isTellable_of_require h (Result.map_eq_error_iff.mp hfailed)

theorem isTellable_of_rename {newPath : Text} (h : path.isEncodable = true)
    (hnew : newPath.isEncodable = true) (hfailed : tree.rename path newPath = .error error) :
    error.IsTellable := by
  have hnew' := Path.isEncodable_normalize hnew
  unfold rename at hfailed
  dsimp only at hfailed
  split at hfailed
  · cases hfailed
    exact nofun
  · split at hfailed
    · next cause hsource =>
      cases hfailed
      exact isTellable_of_require h hsource
    · split at hfailed
      · cases hfailed
        exact List.forall_mem_singleton.mpr hnew'
      · split at hfailed
        · cases hfailed
          exact List.forall_mem_cons.mpr
            ⟨Path.isEncodable_normalize h, List.forall_mem_singleton.mpr hnew'⟩
        · exact isTellable_of_missingAncestors hnew (Result.map_eq_error_iff.mp hfailed)

theorem isTellable_of_read (h : path.isEncodable = true) (hfailed : tree.read path = .error error) :
    error.IsTellable := by
  unfold read at hfailed
  split at hfailed
  · cases hfailed
  · cases hfailed
    exact List.forall_mem_singleton.mpr (Path.isEncodable_normalize h)
  · next hrequire =>
    cases hfailed
    exact isTellable_of_require h hrequire

theorem isTellable_of_list (h : path.isEncodable = true) (hfailed : tree.list path = .error error) :
    error.IsTellable := by
  unfold list at hfailed
  split at hfailed
  · cases hfailed
  · cases hfailed
    exact List.forall_mem_singleton.mpr (Path.isEncodable_normalize h)
  · next hrequire =>
    cases hfailed
    exact isTellable_of_require h hrequire

theorem Error.IsTellable.message (h : error.IsTellable) (hkind : error.IsOperational) :
    error.message.isEncodable = true := by
  cases error with
  | snapshot fault => exact absurd rfl hkind
  | deleteRoot => exact Text.isEncodable_ofString _
  | renameRoot => exact Text.isEncodable_ofString _
  | moveIntoItself source destination =>
    have hsource := h source List.mem_cons_self
    exact Text.isEncodable_append (Text.isEncodable_append (Text.isEncodable_ofString _) hsource)
      (Text.isEncodable_ofString _)
  | _ path => exact Text.isEncodable_append (Text.isEncodable_ofString _) (h path List.mem_cons_self)

theorem Error.IsTellable.path? (h : error.IsTellable) (hkind : error.IsOperational) :
    ∀ path, error.path? = some path → path.isEncodable = true := by
  intro path hpath
  cases error with
  | snapshot fault => exact absurd rfl hkind
  | deleteRoot =>
    cases hpath
    exact Text.isEncodable_ofString _
  | renameRoot =>
    cases hpath
    exact Text.isEncodable_ofString _
  | moveIntoItself source destination =>
    cases hpath
    exact h _ (List.mem_cons_of_mem _ List.mem_cons_self)
  | _ named =>
    cases hpath
    exact h _ List.mem_cons_self

end Tree

/-! ## §2. Failures of commands -/

namespace Command

/-- The paths of the command are texts that can be expressed in bytes. -/
structure IsTellable (command : Command) : Prop where
  path : ∀ path, command.path = .text path → path.isEncodable = true
  newPath : ∀ newPath, command.newPath? = some newPath → newPath.isEncodable = true

/-- What the failure names can be expressed in bytes. -/
def Failure.IsTellable : Failure → Prop
  | .flawed _ => True
  | .rejected error => error.IsTellable

variable {project : Project} {α : Type} {f : α → Answer} {failure : Failure} {command : Command}

theorem isTellable_of_replyOf {operation : Tree → Except Error (Outcome α)}
    (htell : ∀ error, operation project.tree = .error error → error.IsTellable)
    (h : (replyOf f (project.edit operation)).1 = .error failure) : failure.IsTellable := by
  rcases project.edit_cases operation with ⟨answer, after, hedit⟩ | ⟨error, hresult, hedit⟩
  · rw [hedit] at h
    cases h
  · rw [hedit] at h
    cases h
    exact htell error hresult

theorem isTellable_of_replyTo {result : Except Error α}
    (htell : ∀ error, result = .error error → error.IsTellable)
    (h : (replyTo project f result).1 = .error failure) : failure.IsTellable := by
  cases result with
  | ok answer => cases h
  | error error =>
    cases h
    exact htell error rfl

theorem isTellable_of_runAt {path : Text} {operation : Operation} (hcommand : command.IsTellable)
    (hpath : path.isEncodable = true)
    (h : (runAt project command path operation).1 = .error failure) : failure.IsTellable := by
  cases operation with
  | createFile => exact isTellable_of_replyOf (fun _ => Tree.isTellable_of_createFile hpath) h
  | createDirectory => exact isTellable_of_replyOf (fun _ => Tree.isTellable_of_createDirectory hpath) h
  | readFile => exact isTellable_of_replyTo (fun _ => Tree.isTellable_of_read hpath) h
  | writeFile =>
    unfold runAt at h
    cases hcontent : command.content? with
    | none =>
      rw [hcontent] at h
      cases h
      trivial
    | some content =>
      rw [hcontent] at h
      exact isTellable_of_replyOf (fun _ => Tree.isTellable_of_writeFile hpath) h
  | deleteNode => exact isTellable_of_replyOf (fun _ => Tree.isTellable_of_delete hpath) h
  | renameNode =>
    unfold runAt at h
    cases hnew : command.newPath?.filter (!·.isEmpty) with
    | none =>
      rw [hnew] at h
      cases h
      trivial
    | some newPath =>
      rw [hnew] at h
      have hnewPath := hcommand.newPath newPath (Option.eq_some_of_filter_eq_some hnew)
      exact isTellable_of_replyOf (fun _ => Tree.isTellable_of_rename hpath hnewPath) h
  | «exists» => cases h
  | listDirectory => exact isTellable_of_replyTo (fun _ => Tree.isTellable_of_list hpath) h

theorem isTellable_of_run (hcommand : command.IsTellable)
    (h : (run project command).1 = .error failure) : failure.IsTellable := by
  unfold run at h
  split at h
  · cases h
    trivial
  · next operation path hname hpath =>
    exact isTellable_of_runAt hcommand (hcommand.path path hpath) h
  · cases h
    trivial

/-! ## §3. Replies -/

/-- A failure is told in a value that standard JSON can hold. -/
theorem isStandard_toJson_error (failure : Failure) : (Reply.toJson (.error failure)).isStandard = true := by
  unfold Reply.toJson Reply.toJson.fields
  dsimp only
  cases failure.path? <;> rfl

/-- A reply lies no deeper than its entries, if none of its other parts does. -/
theorem depth_fields_le (success : Bool) {kind message content present path : Json} (entries : List Text)
    (hparts : ∀ part ∈ [kind, message, content, present, path], part.depth ≤ 2) :
    (Reply.toJson.fields success kind message content entries present path).depth ≤ 3 := by
  have hentries : (Json.array (entries.map .text)).depth ≤ 1 + 1 :=
    Json.depth_array_le (List.forall_mem_map.mpr fun _ _ => Nat.le_refl 1)
  simp only [List.forall_mem_cons] at hparts
  obtain ⟨hkind, hmessage, hcontent, hpresent, hpath, -⟩ := hparts
  refine Json.depth_object_le ?_
  simp only [List.forall_mem_cons]
  exact ⟨Nat.le_succ 1, hkind, hmessage, hcontent, hentries, hpresent, hpath, nofun⟩

theorem depth_toJson_error (failure : Failure) : (Reply.toJson (.error failure)).depth ≤ 3 := by
  have hpath : ((failure.path?.map Json.text).getD .null).depth ≤ 2 := by
    cases failure.path? <;> exact Nat.le_succ 1
  refine depth_fields_le false [] ?_
  simp only [List.forall_mem_cons]
  exact ⟨Nat.le_succ 1, Nat.le_succ 1, Nat.le_succ 1, Nat.le_succ 1, hpath, nofun⟩

/-- A failure whose paths can be expressed in bytes is told in a value that can be, too. -/
theorem isEncodable_toJson_error (htell : failure.IsTellable) (hstatus : failure.HasStatus) :
    (Reply.toJson (.error failure)).isEncodable = true := by
  have hmessage : failure.message.isEncodable = true ∧
      ∀ path, failure.path? = some path → path.isEncodable = true := by
    cases failure with
    | flawed flaw => exact ⟨Text.isEncodable_ofString _, nofun⟩
    | rejected error =>
      have hkind : error.IsOperational := by
        intro hkind
        obtain ⟨status, hsome⟩ := hstatus
        have hnone : Http.failureStatus? (.rejected error.kind) = none := by rw [hkind]; rfl
        exact nomatch hnone.symm.trans hsome
      have htell : error.IsTellable := htell
      exact ⟨htell.message hkind, htell.path? hkind⟩
  have hpath : ((failure.path?.map Json.text).getD .null).isEncodable = true := by
    cases hpath : failure.path? with
    | none => rfl
    | some path => exact hmessage.2 path hpath
  simp [Reply.toJson, Reply.toJson.fields, Json.isEncodable, Json.areEncodableFields,
    Json.areEncodableItems, Text.isEncodable_ofString, hmessage.1, hpath]

/-! ## §4. Answers -/

/-- The paths that an answer consists of, if it consists of paths. -/
def Answer.paths? : Answer → Option (List Text)
  | .path told => some [told]
  | .entries told => some told
  | .content _ | .exists _ => none

variable {answer : Answer} {paths : List Text}

theorem areStandardItems_texts (paths : List Text) : Json.areStandardItems (paths.map .text) = true := by
  induction paths with
  | nil => rfl
  | cons path paths ih =>
    rw [List.map_cons, Json.areStandardItems, ih]
    rfl

/-- Paths are told in a value that standard JSON can hold. -/
theorem isStandard_toJson_of_paths? (h : answer.paths? = some paths) :
    (Reply.toJson (.ok answer)).isStandard = true := by
  cases answer with
  | path path => rfl
  | entries paths =>
    simp [Reply.toJson, Reply.toJson.fields, Json.isStandard, Json.areStandardFields, areStandardItems_texts]
  | content content => cases h
  | «exists» holds => cases h

theorem depth_toJson_of_paths? (h : answer.paths? = some paths) :
    (Reply.toJson (.ok answer)).depth ≤ 3 := by
  have hparts : ∀ told : Json, told.depth = 1 →
      ∀ part ∈ [Json.null, Json.null, Json.null, Json.null, told], part.depth ≤ 2 := by
    intro told htold
    simp only [List.forall_mem_cons]
    exact ⟨Nat.le_succ 1, Nat.le_succ 1, Nat.le_succ 1, Nat.le_succ 1, htold ▸ Nat.le_succ 1, nofun⟩
  cases answer with
  | path path => exact depth_fields_le true [] (hparts (.text path) rfl)
  | entries entries => exact depth_fields_le true entries (hparts .null rfl)
  | content content => cases h
  | «exists» holds => cases h

/-- Paths that can be expressed in bytes are told in a value that can be, too. -/
theorem isEncodable_toJson_of_paths? (h : answer.paths? = some paths)
    (hpaths : ∀ path ∈ paths, path.isEncodable = true) :
    (Reply.toJson (.ok answer)).isEncodable = true := by
  cases answer with
  | path path =>
    cases h
    have hpath := List.forall_mem_singleton.mp hpaths
    simp [Reply.toJson, Reply.toJson.fields, Json.isEncodable, Json.areEncodableFields,
      Json.areEncodableItems, hpath]
  | entries entries =>
    cases h
    have hentries : Json.areEncodableItems (paths.map .text) = true := by
      refine Json.areEncodableItems_iff.mpr fun item hitem => ?_
      obtain ⟨path, hpath, rfl⟩ := List.mem_map.mp hitem
      exact hpaths path hpath
    simp [Reply.toJson, Reply.toJson.fields, Json.isEncodable, Json.areEncodableFields, hentries]
  | content content => cases h
  | «exists» holds => cases h

theorem exists_of_replyOf {operation : Tree → Except Error (Outcome α)}
    (h : (replyOf f (project.edit operation)).1 = .ok answer) :
    ∃ outcome, operation project.tree = .ok outcome ∧ answer = f outcome.answer := by
  unfold Project.edit at h
  cases hresult : operation project.tree with
  | error error =>
    rw [hresult] at h
    cases h
  | ok outcome =>
    rw [hresult] at h
    exact ⟨outcome, rfl, (Except.ok.inj h).symm⟩

/-- The answer consists of paths, which can be expressed in bytes if those of the command and of the
tree can. -/
def TellsPaths (project : Project) (command : Command) (answer : Answer) : Prop :=
  ∃ paths, answer.paths? = some paths ∧
    (command.IsTellable → project.tree.IsTellable → ∀ path ∈ paths, path.isEncodable = true)

/-- An operation on a tree that answers with a path which the command gives, in normal form. -/
theorem tellsPaths_of_replyOf {operation : Tree → Except Error (Outcome Text)} {given : Text}
    (hgiven : command.IsTellable → given.isEncodable = true)
    (hanswer : ∀ outcome, operation project.tree = .ok outcome → outcome.answer = Path.normalize given)
    (h : (replyOf .path (project.edit operation)).1 = .ok answer) : TellsPaths project command answer := by
  obtain ⟨outcome, hok, rfl⟩ := exists_of_replyOf h
  refine ⟨[outcome.answer], rfl, fun hcommand _ => List.forall_mem_singleton.mpr ?_⟩
  rw [hanswer outcome hok]
  exact Path.isEncodable_normalize (hgiven hcommand)

theorem answer_createFile {tree : Tree} {path : Text} {content : Json} {outcome : Outcome Text}
    (hok : tree.createFile path content = .ok outcome) : outcome.answer = Path.normalize path := by
  obtain ⟨-, missing, -, rfl⟩ := Tree.createFileAt_eq_ok hok
  rfl

theorem answer_createDirectory {tree : Tree} {path : Text} {outcome : Outcome Text}
    (hok : tree.createDirectory path = .ok outcome) : outcome.answer = Path.normalize path := by
  rcases Tree.createDirectory_eq_ok hok with ⟨children, -, rfl⟩ | ⟨-, missing, -, rfl⟩
  · rfl
  · rfl

theorem answer_writeFile {tree : Tree} {path : Text} {content : Json} {outcome : Outcome Text}
    (hok : tree.writeFile path content = .ok outcome) : outcome.answer = Path.normalize path := by
  rcases Tree.writeFile_eq_ok hok with hcreate | ⟨current, -, ⟨-, rfl⟩ | ⟨-, rfl⟩⟩
  · rw [answer_createFile hcreate, Path.isNormal_normalize path]
  · rfl
  · rfl

theorem tellsPaths_or_unchanged_of_runAt {path : Text} {operation : Operation}
    (hpath : command.path = .text path) (h : (runAt project command path operation).1 = .ok answer) :
    TellsPaths project command answer ∨ (runAt project command path operation).2 = project := by
  have hgiven : command.IsTellable → path.isEncodable = true := fun hcommand => hcommand.path path hpath
  cases operation with
  | createFile => exact .inl (tellsPaths_of_replyOf hgiven (fun _ => answer_createFile) h)
  | createDirectory => exact .inl (tellsPaths_of_replyOf hgiven (fun _ => answer_createDirectory) h)
  | readFile => exact .inr (snd_replyTo _)
  | writeFile =>
    unfold runAt at h
    cases hcontent : command.content? with
    | none =>
      rw [hcontent] at h
      cases h
    | some content =>
      rw [hcontent] at h
      exact .inl (tellsPaths_of_replyOf hgiven (fun _ => answer_writeFile) h)
  | deleteNode =>
    -- everything that is deleted has been in the tree
    obtain ⟨outcome, hok, rfl⟩ := exists_of_replyOf h
    obtain ⟨-, hhas, rfl⟩ := Tree.delete_eq_ok hok
    refine .inl ⟨_, rfl, fun _ htree removed hmem => ?_⟩
    exact htree.isEncodable removed ((htree.wellFormed.mem_subtree_iff hhas).mp hmem).1
  | renameNode =>
    unfold runAt at h
    cases hnew : command.newPath?.filter (!·.isEmpty) with
    | none =>
      rw [hnew] at h
      cases h
    | some newPath =>
      rw [hnew] at h
      have hnewPath := Option.eq_some_of_filter_eq_some hnew
      refine .inl (tellsPaths_of_replyOf (fun hcommand => hcommand.newPath newPath hnewPath) ?_ h)
      intro outcome hok
      obtain ⟨source, missing, -, -, rfl⟩ := Tree.rename_eq_ok hok
      rfl
  | «exists» => exact .inr rfl
  | listDirectory => exact .inr (snd_replyTo _)

/-- A command that is accepted has changed nothing, or its answer consists of paths. -/
theorem tellsPaths_or_unchanged (h : (run project command).1 = .ok answer) :
    TellsPaths project command answer ∨ (run project command).2 = project := by
  unfold run at h ⊢
  split at h
  · cases h
  · next operation path _ hpath => exact tellsPaths_or_unchanged_of_runAt hpath h
  · cases h

/-- Edits at a path that can be expressed in bytes name such paths. -/
theorem coversAt_isTellable {path : Text} (h : path.isEncodable = true) {destination : Text → Prop}
    (hnew : ∀ newPath, destination newPath → newPath.isEncodable = true) :
    Tree.Edit.CoversAt Tree.Edit.IsTellable path destination :=
  ⟨fun _ => h, h, fun _ => h, h, fun newPath hdestination => ⟨h, hnew newPath hdestination⟩⟩

/-- The edits of a command whose paths can be expressed in bytes name such paths. -/
theorem IsTellable.covers (h : command.IsTellable) {path : Text} (hpath : command.path = .text path) :
    Tree.Edit.CoversAt Tree.Edit.IsTellable path fun newPath => command.newPath? = some newPath :=
  coversAt_isTellable (h.path path hpath) h.newPath

end Command

end LivePreview

namespace LivePreview.Tool

open LivePreview.Tree (Edit)
open LivePreview.Text (isEncodable_append isEncodable_ofString)

variable {arguments : Json} {name : String}

/-! ## §5. Arguments -/

theorem isEncodable_argument (h : arguments.isEncodable = true) (field : Text) :
    (argument arguments field).isEncodable = true := by
  unfold argument
  cases hfield : arguments.field? field with
  | none => rfl
  | some value => exact Json.isEncodable_of_field? h hfield

theorem isEncodable_textOr {misfit : Json → Misfit} {value : Json} {text : Text}
    (h : value.isEncodable = true) (hok : textOr misfit value = .ok text) : text.isEncodable = true := by
  unfold textOr at hok
  split at hok
  · cases hok
    exact h
  · split at hok <;> cases hok
    exact isEncodable_ofString _

theorem isEncodable_path (h : arguments.isEncodable = true) {path : Text}
    (hpath : argument arguments "path" = .text path) : path.isEncodable = true := by
  have hargument := isEncodable_argument h "path"
  rwa [hpath] at hargument

theorem isEncodable_of_isDestination (h : arguments.isEncodable = true) {newPath : Text}
    (hnew : IsDestination arguments newPath) : newPath.isEncodable = true :=
  isEncodable_textOr (isEncodable_argument h _) hnew

/-- The edits of a call whose arguments can be expressed in bytes name paths that can be, too. -/
theorem covers_isTellable (h : arguments.isEncodable = true) : Covers Edit.IsTellable arguments := by
  intro path hpath
  have hspelled := isEncodable_path h hpath
  have hnew : ∀ newPath, IsDestination arguments newPath → newPath.isEncodable = true :=
    fun _ => isEncodable_of_isDestination h
  exact ⟨Command.coversAt_isTellable hspelled hnew,
    Command.coversAt_isTellable (Path.isEncodable_normalize hspelled) hnew⟩

theorem isTellable_behind {project : Project} (htree : project.tree.IsTellable)
    (h : arguments.isEncodable = true) : (behind project name arguments).tree.IsTellable := by
  rcases behind_cases project name (covers_isTellable h) with hedited | ⟨-, path, hpath, heq⟩
  · exact hedited.tree htree fun edit => htree.perform
  · rw [heq, Project.tree_edit]
    exact Tree.behind_preserves htree fun outcome hok => htree.createFileAt
      (Path.isNormal_normalize path) (Path.isEncodable_normalize (isEncodable_path h hpath)) hok

/-! ## §6. Labels -/

theorem isEncodable_shortName {value : Json} {substitute target : Text} (h : value.isEncodable = true)
    (hsubstitute : substitute.isEncodable = true) (hok : shortName value substitute = .ok target) :
    target.isEncodable = true := by
  unfold shortName at hok
  split at hok
  · next path =>
    cases hok
    split
    · exact hsubstitute
    · exact Path.isEncodable_baseName h
  · split at hok <;> cases hok
    exact hsubstitute

theorem isEncodable_editorLabel (command : Text) {target : Text} (h : target.isEncodable = true) :
    (editorLabel command target).isEncodable = true := by
  unfold editorLabel
  split <;> exact isEncodable_append (isEncodable_ofString _) h

theorem isEncodable_managerLabel {command target text : Text} (htarget : target.isEncodable = true)
    (h : arguments.isEncodable = true) (hok : managerLabel command target arguments = .ok text) :
    text.isEncodable = true := by
  unfold managerLabel at hok
  split at hok
  · obtain ⟨destination, hdestination, hok⟩ := Result.bind_eq_ok_iff.mp hok
    obtain rfl := Except.ok.inj hok
    have hnew := isEncodable_shortName (isEncodable_argument h _) (isEncodable_ofString _) hdestination
    exact isEncodable_append (isEncodable_append (isEncodable_append (isEncodable_ofString _) htarget)
      (isEncodable_ofString _)) hnew
  · obtain rfl := Except.ok.inj hok
    exact isEncodable_append (isEncodable_ofString _) htarget
  · obtain rfl := Except.ok.inj hok
    exact isEncodable_append (isEncodable_ofString _) htarget

theorem isEncodable_label (h : arguments.isEncodable = true) {text : Text}
    (hok : label name arguments = .ok text) : text.isEncodable = true := by
  unfold label at hok
  obtain ⟨target, htarget, hok⟩ := Result.bind_eq_ok_iff.mp hok
  have htarget := isEncodable_shortName (isEncodable_argument h _) (isEncodable_ofString _) htarget
  dsimp only at hok
  split at hok
  · obtain rfl := Except.ok.inj hok
    exact isEncodable_editorLabel _ htarget
  · exact isEncodable_managerLabel htarget h hok
  · obtain rfl := Except.ok.inj hok
    exact isEncodable_ofString _

/-! ## §7. Replies -/

theorem Editor.Reply.TellsOf.isEncodable {reply : Editor.Reply} {path : Text} (htells : reply.TellsOf path)
    (hpath : path.isEncodable = true) : reply.text.isEncodable = true := by
  cases reply with
  | created told =>
    cases htells
    exact isEncodable_append (isEncodable_ofString _) hpath
  | replaced count told =>
    cases htells
    exact isEncodable_append (isEncodable_append (isEncodable_append (isEncodable_ofString _)
      (isEncodable_ofString _)) (isEncodable_ofString _)) hpath
  | inserted line told =>
    cases htells
    exact isEncodable_append (isEncodable_append (isEncodable_append (isEncodable_ofString _)
      (isEncodable_ofString _)) (isEncodable_ofString _)) hpath
  | _ => cases htells

theorem Manager.Reply.TellsOf.isEncodable {reply : Manager.Reply} {path : Text}
    {destination : Text → Prop} (htells : reply.TellsOf path destination)
    (hpath : path.isEncodable = true) (hnew : ∀ newPath, destination newPath → newPath.isEncodable = true) :
    reply.toJson.isEncodable = true ∧ reply.toJson.depth ≤ 2 := by
  have hobject : ∀ message : Text, message.isEncodable = true →
      (Json.object [("success", .bool true), ("message", .text message)]).isEncodable = true := by
    intro message hmessage
    simp [Json.isEncodable, Json.areEncodableFields, hmessage]
  cases reply with
  | renamed told newPath =>
    obtain ⟨rfl, hdestination⟩ := htells
    refine ⟨hobject _ ?_, Nat.le_refl 2⟩
    exact isEncodable_append (isEncodable_append (isEncodable_append (isEncodable_ofString _) hpath)
      (isEncodable_ofString _)) (hnew newPath hdestination)
  | deleted told =>
    obtain rfl : told = path := htells
    exact ⟨hobject _ (isEncodable_append (isEncodable_ofString _) hpath), Nat.le_refl 2⟩
  | failed failure => cases htells

/-- A call that replies has changed nothing, or its reply can be expressed in bytes if its arguments
can, and is not deep. -/
theorem isTold_or_unchanged {project after : Project} {reply : Reply} (h : arguments.isEncodable = true)
    (hcall : call project name arguments = .ok (reply, after)) :
    reply.toJson.isEncodable = true ∧ reply.toJson.depth ≤ 2 ∨ after = project := by
  obtain ⟨tool, command, path, htool, hcommand, hpath, hfield, hrun⟩ := call_eq_ok hcall
  have hspelled := isEncodable_path h hpath
  obtain ⟨hcovers, hnormal⟩ := covers_isTellable h path hpath
  unfold runOn at hrun
  rw [hfield, if_neg nofun] at hrun
  cases tool with
  | editor =>
    obtain ⟨result, hresult, heq⟩ := Result.map_eq_ok_iff.mp hrun
    cases heq
    have htold : result.2 = project ∨ result.1.TellsOf (Path.normalize path) := by
      by_cases hcreate : command.string? = some "create"
      · rw [Editor.run_create hcreate] at hresult
        obtain rfl := Except.ok.inj hresult
        exact Editor.tellsOf_create project _ _
      · exact (Editor.edits_run hnormal.writeFile hcreate hresult).imp_right And.left
    rcases htold with heq | htells
    · exact .inr heq
    · exact .inl ⟨htells.isEncodable (Path.isEncodable_normalize hspelled), Nat.le_succ 1⟩
  | manager =>
    obtain ⟨result, hresult, heq⟩ := Result.map_eq_ok_iff.mp hrun
    cases heq
    rcases Manager.edits_run hcovers hresult with heq | ⟨htells, -⟩
    · exact .inr heq
    · exact .inl (htells.isEncodable hspelled fun _ => isEncodable_of_isDestination h)

end LivePreview.Tool
