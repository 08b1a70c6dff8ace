/-
  LivePreview.Proofs.Tree.Disturbance
  ───────────────────────────────────
  **The files that an edit disturbs are those that its announcement is about.**

  An edit disturbs a file if it deletes it, moves it, or gives it another content
  (`Disturbs`).  What it deletes or moves it finds by walking along the children of
  directories; what it announces is read by comparing paths (`Change.concerns`), and of
  a moved directory nothing but the path is announced.  On a well-formed tree both agree
  about every file (`Settled`): a file that is disturbed is announced and stands no
  longer as it was, and of all others nothing is announced and nothing changes.
-/
import LivePreview.Proofs.Module.Cache
import LivePreview.Proofs.Tree.Reachable

namespace LivePreview.Tree

open LivePreview.Path (ancestors)

/-! ## §1. Changes and files -/

/-- The change is about the file at a path, or about a directory above it that was deleted or
moved. -/
def Change.concerns (path : Text) : Change → Bool
  | .created _ .directory => false
  | .created other .file | .modified other | .deleted other .file => path == other
  | .deleted other .directory | .renamed other _ _ => Path.isWithin path other

/-- What is announced is about the file at a path. -/
def Outcome.concerns {α : Type} (outcome : Outcome α) (path : Text) : Bool :=
  (outcome.changes?.getD []).any (Change.concerns path)

/-- The edit deletes the file at a path, moves it, or gives it another content. -/
inductive Disturbs (tree : Tree) (path : Text) : Edit → Prop
  | deleted {target : Text} {outcome : Outcome (List Text)} (hok : tree.delete target = .ok outcome)
      (hmem : path ∈ outcome.answer) : Disturbs tree path (.delete target)
  | moved {oldPath newPath : Text} {outcome : Outcome Text}
      (hok : tree.rename oldPath newPath = .ok outcome)
      (hmem : path ∈ tree.subtree (Path.normalize oldPath)) : Disturbs tree path (.rename oldPath newPath)
  | rewritten {target content : Text} {current : Json} (hpath : Path.normalize target = path)
      (hfile : tree.get? path = some (.file current)) (hnew : current ≠ .text content) :
      Disturbs tree path (.writeFile target content)

/-- The edit is accepted, and what it announces is about the file at a path. -/
def announces (tree : Tree) (edit : Edit) (path : Text) : Bool :=
  match tree.attempt edit with
  | .ok outcome => outcome.concerns path
  | .error _ => false

/-- What an accepted edit does to a file, and what is announced about it. -/
inductive Settled (tree : Tree) (path : Text) (content : Json) (edit : Edit) {α : Type}
    (outcome : Outcome α) : Prop
  | spared (hspared : ¬ tree.Disturbs path edit) (hquiet : outcome.concerns path = false)
      (hfile : outcome.tree.get? path = some (.file content))
  | struck (hdisturbs : tree.Disturbs path edit) (htold : outcome.concerns path = true)
      (hgone : outcome.tree.get? path ≠ some (.file content))

/-! ## §2. Accepted edits -/

section Accepted

variable {tree : Tree} (h : tree.WellFormed) {path : Text} {file : Json}
  (hfile : tree.get? path = some (.file file))

theorem any_concerns_createdDirectories (path : Text) (directories : List Text) :
    (createdDirectories directories).any (Change.concerns path) = false := by
  unfold createdDirectories
  rw [List.any_map]
  exact List.any_eq_false.mpr fun _ _ => Bool.false_ne_true

include hfile

theorem has_of_file : tree.has path = true :=
  has_eq_true_iff.mpr ⟨_, hfile⟩

/-- A file is none of the directories above a path whose missing ancestors can be made. -/
theorem not_mem_ancestors_of_file {new : Text} {missing : List Text}
    (hmissing : tree.missingAncestors new = .ok missing) : path ∉ ancestors new := by
  intro hmem
  have hnofile := (missingAncestors_eq_ok_iff.mp hmissing).1 path hmem
  rw [isFileAt, hfile] at hnofile
  cases hnofile

/-- A file stays what it is when directories and a node below them are made elsewhere. -/
theorem get?_attach_missing {new : Text} {missing : List Text}
    (hmissing : tree.missingAncestors new = .ok missing) (hfree : tree.has new = false) (node : Node) :
    ((tree.attachDirectories missing).attach new node).get? path = some (.file file) := by
  have hne : path ≠ new := by
    rintro rfl
    rw [has_of_file hfile] at hfree
    cases hfree
  rw [← bare_eq_file_iff, bare_attach, if_neg hne, bare_attachDirectories_missing hmissing,
    if_neg (not_mem_ancestors_of_file hfile hmissing), bare_eq_file_iff]
  exact hfile

/-- Whatever creates a file leaves the others alone. -/
theorem settled_createFileAt {new content : Text} {outcome : Outcome Text} {edit : Edit}
    (hok : tree.createFileAt new (.text content) = .ok outcome) (hspared : ¬ tree.Disturbs path edit) :
    Settled tree path file edit outcome := by
  obtain ⟨hfree, missing, hmissing, rfl⟩ := createFileAt_eq_ok hok
  refine .spared hspared ?_ (get?_attach_missing hfile hmissing hfree _)
  have hne : (path == new) = false := by
    rw [beq_eq_false_iff_ne]
    rintro rfl
    rw [has_of_file hfile] at hfree
    cases hfree
  show (createdDirectories missing ++ [Change.created new .file]).any (Change.concerns path) = false
  rw [List.any_append, any_concerns_createdDirectories, List.any_cons, Change.concerns, hne]
  rfl

theorem settled_createDirectory {new : Text} {outcome : Outcome Text}
    (hok : tree.createDirectory new = .ok outcome) :
    Settled tree path file (.createDirectory new) outcome := by
  rcases createDirectory_eq_ok hok with ⟨children, -, rfl⟩ | ⟨hfree, missing, hmissing, rfl⟩
  · exact .spared nofun rfl hfile
  · refine .spared nofun (any_concerns_createdDirectories path _) ?_
    show (tree.attachDirectories _).get? path = _
    rw [attachDirectories_concat]
    exact get?_attach_missing hfile hmissing hfree _

theorem disturbs_writeFile_iff {target content : Text} :
    tree.Disturbs path (.writeFile target content)
      ↔ Path.normalize target = path ∧ file ≠ .text content := by
  constructor
  · intro hdisturbs
    cases hdisturbs with
    | rewritten hpath hstood hnew =>
      rw [hfile] at hstood
      cases hstood
      exact ⟨hpath, hnew⟩
  · rintro ⟨hpath, hnew⟩
    exact .rewritten hpath hfile hnew

/-- Writing disturbs the file that it gives another content. -/
theorem settled_writeFile {target content : Text} {outcome : Outcome Text}
    (hok : tree.writeFile target (.text content) = .ok outcome) :
    Settled tree path file (.writeFile target content) outcome := by
  rcases writeFile_eq_ok hok with hcreate | ⟨current, hcurrent, ⟨hagrees, rfl⟩ | ⟨hagrees, rfl⟩⟩
  · -- nothing stood at the target
    refine settled_createFileAt hfile hcreate fun hdisturbs => ?_
    obtain ⟨rfl, -⟩ := (disturbs_writeFile_iff hfile).mp hdisturbs
    have hfree := (createFileAt_eq_ok hcreate).1
    rw [Path.isNormal_normalize target, has_of_file hfile] at hfree
    cases hfree
  · -- the content is what it was
    refine .spared (fun hdisturbs => ?_) rfl hfile
    obtain ⟨rfl, hnew⟩ := (disturbs_writeFile_iff hfile).mp hdisturbs
    rw [hfile] at hcurrent
    cases hcurrent
    exact hnew (Module.agrees_text_iff.mp hagrees)
  · have hconcerns : [Change.modified (Path.normalize target)].any (Change.concerns path)
        = (path == Path.normalize target) := by
      rw [List.any_cons, List.any_nil, Bool.or_false, Change.concerns]
    by_cases hpath : path = Path.normalize target
    · subst hpath
      rw [hfile] at hcurrent
      cases hcurrent
      have hnew : file ≠ .text content := by
        intro heq
        rw [Module.agrees_text_iff.mpr heq] at hagrees
        cases hagrees
      refine .struck ((disturbs_writeFile_iff hfile).mpr ⟨rfl, hnew⟩)
        (hconcerns.trans (beq_self_eq_true _)) ?_
      rw [get?_insert, if_pos rfl]
      intro heq
      cases heq
      exact hnew rfl
    · refine .spared (fun hdisturbs => ?_) (hconcerns.trans (beq_eq_false_iff_ne.mpr hpath)) ?_
      · exact hpath ((disturbs_writeFile_iff hfile).mp hdisturbs).1.symm
      · rw [get?_insert, if_neg hpath]
        exact hfile

include h

/-- The changes announced by deleting are about the files within the path. -/
theorem concerns_deleteAt {top : Text} (hhas : tree.has top = true) :
    (tree.deleteAt top).concerns path = true ↔ Path.isWithin path top = true := by
  show ((tree.subtree top).map fun p => Change.deleted p (tree.kindAt p)).any (Change.concerns path)
    = true ↔ _
  rw [List.any_map, List.any_eq_true]
  constructor
  · rintro ⟨p, hp, hconcerns⟩
    obtain ⟨hpnormal, -, hpwithin⟩ := h.of_mem_subtree hhas hp
    rw [Function.comp_apply] at hconcerns
    cases hkind : tree.kindAt p with
    | file =>
      rw [hkind, Change.concerns, beq_iff_eq] at hconcerns
      rwa [hconcerns]
    | directory =>
      rw [hkind, Change.concerns] at hconcerns
      exact (h.isNormal path _ hfile).isWithin_trans hpnormal (h.grounded.isNormal top hhas) hconcerns
        hpwithin
  · intro hwithin
    refine ⟨path, (h.mem_subtree_iff hhas).mpr ⟨has_of_file hfile, hwithin⟩, ?_⟩
    rw [Function.comp_apply, kindAt, hfile]
    exact beq_self_eq_true path

/-- Deleting disturbs the files within the path. -/
theorem settled_delete {target : Text} {outcome : Outcome (List Text)}
    (hok : tree.delete target = .ok outcome) : Settled tree path file (.delete target) outcome := by
  obtain ⟨-, hhas, rfl⟩ := delete_eq_ok hok
  have hmem : path ∈ (tree.deleteAt (Path.normalize target)).answer
      ↔ Path.isWithin path (Path.normalize target) = true := by
    show path ∈ tree.subtree _ ↔ _
    rw [h.mem_subtree_iff hhas, and_iff_right (has_of_file hfile)]
  by_cases hwithin : Path.isWithin path (Path.normalize target) = true
  · refine .struck (.deleted hok (hmem.mpr hwithin)) ((concerns_deleteAt h hfile hhas).mpr hwithin) ?_
    rw [Ne, ← bare_eq_file_iff, h.bare_deleteAt hhas, if_pos hwithin]
    exact nofun
  · refine .spared (fun hdisturbs => ?_)
      (Bool.eq_false_iff.mpr (mt (concerns_deleteAt h hfile hhas).mp hwithin)) ?_
    · cases hdisturbs with
      | deleted hagain hanswer =>
        rw [hok] at hagain
        cases hagain
        exact hwithin (hmem.mp hanswer)
    · rw [← bare_eq_file_iff, h.bare_deleteAt hhas, if_neg hwithin, bare_eq_file_iff]
      exact hfile

/-- Renaming disturbs the files within the old path. -/
theorem settled_rename {oldPath newPath : Text} {outcome : Outcome Text}
    (hok : tree.rename oldPath newPath = .ok outcome) :
    Settled tree path file (.rename oldPath newPath) outcome := by
  obtain ⟨source, missing, -, hmove, rfl⟩ := rename_eq_ok hok
  have hnormal := h.isNormal path _ hfile
  -- nothing stands within the new path
  have houtside : Path.isWithin path (Path.normalize newPath) = false := by
    rw [Bool.eq_false_iff]
    intro hwithin
    have hnew := h.has_of_isWithin (has_of_file hfile) hmove.isNormal_new hwithin
    rw [hmove.free] at hnew
    cases hnew
  have hconcerns : (tree.renameAt (Path.normalize oldPath) (Path.normalize newPath) source.kind
      missing).concerns path = Path.isWithin path (Path.normalize oldPath) := by
    show (createdDirectories missing ++ [Change.renamed _ source.kind _]).any (Change.concerns path) = _
    rw [List.any_append, any_concerns_createdDirectories, List.any_cons, Change.concerns, List.any_nil,
      Bool.or_false, Bool.false_or]
  have hmem : path ∈ tree.subtree (Path.normalize oldPath)
      ↔ Path.isWithin path (Path.normalize oldPath) = true := by
    rw [h.mem_subtree_iff hmove.has_old, and_iff_right (has_of_file hfile)]
  by_cases hwithin : Path.isWithin path (Path.normalize oldPath) = true
  · refine .struck (.moved hok (hmem.mpr hwithin)) (hconcerns.trans hwithin) ?_
    rw [Ne, ← bare_eq_file_iff, h.bare_renameAt hmove source.kind hnormal, houtside,
      if_neg Bool.false_ne_true, if_pos hwithin]
    exact nofun
  · refine .spared (fun hdisturbs => ?_) (hconcerns.trans (Bool.eq_false_iff.mpr hwithin)) ?_
    · cases hdisturbs with
      | moved _ hsubtree => exact hwithin (hmem.mp hsubtree)
    · rw [← bare_eq_file_iff, h.bare_renameAt hmove source.kind hnormal, houtside,
        if_neg Bool.false_ne_true, if_neg hwithin,
        if_neg (not_mem_ancestors_of_file hfile hmove.missingAncestors), bare_eq_file_iff]
      exact hfile

/-- Whatever is put in place of a tree, all its files are announced. -/
theorem concerns_replace {snapshot : Snapshot} {outcome : Outcome Unit}
    (hok : tree.replace snapshot = .ok outcome) : outcome.concerns path = true := by
  obtain ⟨new, -, rfl⟩ := Result.map_eq_ok_iff.mp hok
  have hroot : path ≠ Path.root := by
    rintro rfl
    obtain ⟨children, hdir⟩ := h.root_isDirectory
    rw [hdir] at hfile
    cases hfile
  refine List.any_eq_true.mpr ⟨.deleted path .file, List.mem_append_left _ ?_, beq_self_eq_true path⟩
  refine List.mem_map.mpr ⟨(path, .file file), List.mem_filter.mpr ⟨mem_toList_iff.mpr hfile, ?_⟩, rfl⟩
  exact bne_iff_ne.mpr hroot

/-! ## §3. All edits -/

/-- **An accepted edit announces just the files that it disturbs, and changes no others.** -/
theorem settled_attempt {edit : Edit} (hedit : ∀ snapshot, edit ≠ .replace snapshot)
    {outcome : Outcome Unit} (hok : tree.attempt edit = .ok outcome) :
    Settled tree path file edit outcome := by
  have hquiet : ∀ {α : Type} {outcome : Outcome α}, Settled tree path file edit outcome →
      Settled tree path file edit outcome.quiet := by
    rintro α outcome (⟨hspared, hquiet, hstands⟩ | ⟨hdisturbs, htold, hgone⟩)
    · exact .spared hspared hquiet hstands
    · exact .struck hdisturbs htold hgone
  cases edit with
  | createFile new content =>
    obtain ⟨outcome, hcreate, rfl⟩ := Result.map_eq_ok_iff.mp hok
    exact hquiet (settled_createFileAt hfile hcreate nofun)
  | createDirectory new =>
    obtain ⟨outcome, hcreate, rfl⟩ := Result.map_eq_ok_iff.mp hok
    exact hquiet (settled_createDirectory hfile hcreate)
  | writeFile target content =>
    obtain ⟨outcome, hwrite, rfl⟩ := Result.map_eq_ok_iff.mp hok
    exact hquiet (settled_writeFile hfile hwrite)
  | delete target =>
    obtain ⟨outcome, hdelete, rfl⟩ := Result.map_eq_ok_iff.mp hok
    exact hquiet (settled_delete h hfile hdelete)
  | rename oldPath newPath =>
    obtain ⟨outcome, hrename, rfl⟩ := Result.map_eq_ok_iff.mp hok
    exact hquiet (settled_rename h hfile hrename)
  | replace snapshot => exact absurd rfl (hedit snapshot)

omit h hfile in
/-- A rejected edit disturbs nothing. -/
theorem not_disturbs_of_rejected {edit : Edit} {error : Error}
    (hrejected : tree.attempt edit = .error error) : ¬ tree.Disturbs path edit := by
  have haccepted : ∀ {outcome}, tree.attempt edit ≠ .ok outcome := by
    intro outcome hok
    rw [hok] at hrejected
    cases hrejected
  intro hdisturbs
  cases hdisturbs with
  | deleted hok hmem => exact haccepted (Result.map_eq_ok_iff.mpr ⟨_, hok, rfl⟩)
  | moved hok hmem => exact haccepted (Result.map_eq_ok_iff.mpr ⟨_, hok, rfl⟩)
  | @rewritten target content current hpath hfile hnew =>
    -- a file can be given any content
    have hok : ∃ outcome, tree.writeFile target (.text content) = .ok outcome := by
      unfold writeFile
      dsimp only
      rw [hpath, hfile]
      dsimp only
      split <;> exact ⟨_, rfl⟩
    obtain ⟨outcome, hok⟩ := hok
    exact haccepted (Result.map_eq_ok_iff.mpr ⟨outcome, hok, rfl⟩)

/-- What is announced is about the files that are disturbed. -/
theorem announces_iff_disturbs {edit : Edit} (hedit : ∀ snapshot, edit ≠ .replace snapshot) :
    tree.announces edit path = true ↔ tree.Disturbs path edit := by
  unfold announces
  cases hok : tree.attempt edit with
  | ok outcome =>
    cases settled_attempt h hfile hedit hok with
    | spared hspared hquiet hstands => simp [hspared, hquiet]
    | struck hdisturbs htold hgone => simp [hdisturbs, htold]
  | error error => exact ⟨nofun, fun hdisturbs => absurd hdisturbs (not_disturbs_of_rejected hok)⟩

/-- A file is disturbed if and only if it does not stand there any longer with the same content. -/
theorem disturbs_iff_get?_perform_ne {edit : Edit} (hedit : ∀ snapshot, edit ≠ .replace snapshot) :
    tree.Disturbs path edit ↔ (tree.perform edit).get? path ≠ some (.file file) := by
  rw [perform_eq]
  cases hok : tree.attempt edit with
  | ok outcome =>
    show _ ↔ outcome.tree.get? path ≠ _
    cases settled_attempt h hfile hedit hok with
    | spared hspared hquiet hstands => simp [hspared, hstands]
    | struck hdisturbs htold hgone => simp [hdisturbs, hgone]
  | error error =>
    exact ⟨fun hdisturbs => absurd hdisturbs (not_disturbs_of_rejected hok),
      fun hgone => absurd hfile hgone⟩

/-- A file about which nothing is announced stands there with the same content. -/
theorem get?_perform_of_announces_eq_false {edit : Edit} (hquiet : tree.announces edit path = false) :
    (tree.perform edit).get? path = some (.file file) := by
  by_cases hreplace : ∃ snapshot, edit = .replace snapshot
  · obtain ⟨snapshot, rfl⟩ := hreplace
    rw [perform_eq]
    unfold announces at hquiet
    cases hok : tree.attempt (.replace snapshot) with
    | ok outcome =>
      -- every file of the old tree is announced
      rw [hok] at hquiet
      dsimp only at hquiet
      rw [concerns_replace h hfile hok] at hquiet
      cases hquiet
    | error error => exact hfile
  · have hedit : ∀ snapshot, edit ≠ .replace snapshot := fun snapshot heq => hreplace ⟨snapshot, heq⟩
    rw [← Bool.not_eq_true, announces_iff_disturbs h hfile hedit,
      disturbs_iff_get?_perform_ne h hfile hedit, not_not] at hquiet
    exact hquiet

end Accepted

end LivePreview.Tree
