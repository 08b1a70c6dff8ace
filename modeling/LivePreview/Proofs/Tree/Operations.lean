/-
  LivePreview.Proofs.Tree.Operations
  ──────────────────────────────────
  **What an accepted operation does to a tree, and that it keeps the tree well-formed.**

  For every operation there is a statement of what it does if it is accepted
  (`createFileAt_eq_ok`, `createDirectory_eq_ok`, `writeFile_eq_ok`, `delete_eq_ok`,
  `rename_eq_ok`), guards included, and one that the new tree is well-formed.  The
  hard one is renaming: the directories above the new path are made first, then the
  whole subtree goes, and its nodes come back one by one under their new paths.
-/
import LivePreview.Proofs.Result
import LivePreview.Proofs.Tree.Attaching

namespace LivePreview.Tree

open LivePreview.Path (IsNormal names ancestors)

variable {tree : Tree}

/-! ## §1. Creating and writing -/

theorem createFileAt_eq_ok {path : Text} {content : Json} {outcome : Outcome Text}
    (hok : tree.createFileAt path content = .ok outcome) :
    tree.has path = false ∧ ∃ missing, tree.missingAncestors path = .ok missing ∧
      outcome = ⟨path, (tree.attachDirectories missing).attach path (.file content),
        some (createdDirectories missing ++ [.created path .file])⟩ := by
  unfold createFileAt at hok
  split at hok
  · cases hok
  · next hfree =>
    obtain ⟨missing, hmissing, rfl⟩ := Result.map_eq_ok_iff.mp hok
    exact ⟨Bool.eq_false_iff.mpr hfree, missing, hmissing, rfl⟩

theorem WellFormed.createFileAt (h : tree.WellFormed) {path : Text} (hpath : IsNormal path)
    {content : Json} {outcome : Outcome Text}
    (hok : tree.createFileAt path content = .ok outcome) : outcome.tree.WellFormed := by
  obtain ⟨hfree, missing, hmissing, rfl⟩ := createFileAt_eq_ok hok
  exact h.attach_missing hmissing hpath hfree rfl

theorem HoldsTexts.createFileAt (h : tree.HoldsTexts) {path s : Text} {outcome : Outcome Text}
    (hok : tree.createFileAt path (.text s) = .ok outcome) : outcome.tree.HoldsTexts := by
  obtain ⟨-, missing, -, rfl⟩ := createFileAt_eq_ok hok
  exact (h.attachDirectories missing).attach (Node.holdsText_file s)

/-- A directory is created with those above it, or it was there. -/
theorem createDirectory_eq_ok {path : Text} {outcome : Outcome Text}
    (hok : tree.createDirectory path = .ok outcome) :
    (∃ children, tree.get? (Path.normalize path) = some (.directory children) ∧
        outcome = ⟨Path.normalize path, tree, none⟩) ∨
      tree.has (Path.normalize path) = false ∧
        ∃ missing, tree.missingAncestors (Path.normalize path) = .ok missing ∧
          outcome = ⟨Path.normalize path, tree.attachDirectories (missing ++ [Path.normalize path]),
            some (createdDirectories (missing ++ [Path.normalize path]))⟩ := by
  unfold createDirectory at hok
  dsimp only at hok
  split at hok
  · cases hok
  · next children hdir =>
    cases hok
    exact .inl ⟨children, hdir, rfl⟩
  · next hnone =>
    obtain ⟨missing, hmissing, rfl⟩ := Result.map_eq_ok_iff.mp hok
    exact .inr ⟨by rw [has, hnone, Option.isSome_none], missing, hmissing, rfl⟩

theorem attachDirectories_concat (tree : Tree) (paths : List Text) (path : Text) :
    tree.attachDirectories (paths ++ [path])
      = (tree.attachDirectories paths).attach path Node.emptyDirectory := by
  unfold attachDirectories
  rw [List.foldl_concat]

theorem WellFormed.createDirectory (h : tree.WellFormed) {path : Text} {outcome : Outcome Text}
    (hok : tree.createDirectory path = .ok outcome) : outcome.tree.WellFormed := by
  rcases createDirectory_eq_ok hok with ⟨children, -, rfl⟩ | ⟨hfree, missing, hmissing, rfl⟩
  · exact h
  · show (tree.attachDirectories _).WellFormed
    rw [attachDirectories_concat]
    exact h.attach_missing hmissing (Path.isNormal_normalize path) hfree rfl

theorem HoldsTexts.createDirectory (h : tree.HoldsTexts) {path : Text} {outcome : Outcome Text}
    (hok : tree.createDirectory path = .ok outcome) : outcome.tree.HoldsTexts := by
  rcases createDirectory_eq_ok hok with ⟨children, -, rfl⟩ | ⟨-, missing, -, rfl⟩
  · exact h
  · exact h.attachDirectories _

/-- A file is created, keeps its content, or gets a new one. -/
theorem writeFile_eq_ok {path : Text} {content : Json} {outcome : Outcome Text}
    (hok : tree.writeFile path content = .ok outcome) :
    tree.createFileAt (Path.normalize (Path.normalize path)) content = .ok outcome ∨
      ∃ current, tree.get? (Path.normalize path) = some (.file current) ∧
        (current.agrees content = true ∧ outcome = ⟨Path.normalize path, tree, none⟩ ∨
          current.agrees content = false ∧
            outcome = ⟨Path.normalize path, ⟨tree.nodes.insert (Path.normalize path) (.file content)⟩,
              some [.modified (Path.normalize path)]⟩) := by
  unfold writeFile at hok
  dsimp only at hok
  split at hok
  · exact .inl hok
  · cases hok
  · next current hfile =>
    refine .inr ⟨current, hfile, ?_⟩
    split at hok
    · next hagrees =>
      cases hok
      exact .inl ⟨hagrees, rfl⟩
    · next hagrees =>
      cases hok
      exact .inr ⟨Bool.eq_false_iff.mpr hagrees, rfl⟩

/-- Another content of a file changes nothing else. -/
theorem WellFormed.insert_file (h : tree.WellFormed) {path : Text} {current : Json}
    (hfile : tree.get? path = some (.file current)) (content : Json) :
    (⟨tree.nodes.insert path (.file content)⟩ : Tree).WellFormed := by
  have hroot : path ≠ Path.root := by
    rintro rfl
    obtain ⟨children, hdir⟩ := h.root_isDirectory
    rw [hdir] at hfile
    cases hfile
  -- the directories are the same, and so are the paths at which something stands
  have hdirectory : ∀ q children,
      (⟨tree.nodes.insert path (.file content)⟩ : Tree).get? q = some (.directory children)
        ↔ tree.get? q = some (.directory children) := by
    intro q children
    rw [get?_insert]
    split
    · next heq =>
      rw [heq, hfile]
      simp
    · exact Iff.rfl
  have hhas : ∀ q, (⟨tree.nodes.insert path (.file content)⟩ : Tree).has q = tree.has q := by
    intro q
    unfold has
    rw [get?_insert]
    split
    · next heq => rw [heq, hfile, Option.isSome_some, Option.isSome_some]
    · rfl
  refine wellFormed_iff.mpr ⟨⟨?_, fun q hq => ?_, fun q hq hqroot => ?_⟩, fun q children hdir p => ?_⟩
  · rw [bare_insert, if_neg (Ne.symm hroot)]
    exact h.grounded.root_bare
  · exact h.grounded.isNormal q (by rwa [hhas] at hq)
  · rw [hhas] at hq
    obtain ⟨children, hdir⟩ := bare_eq_directory_iff.mp (h.grounded.parent_bare q hq hqroot)
    exact bare_eq_directory_iff.mpr ⟨children, (hdirectory _ _).mpr hdir⟩
  · rw [hhas]
    exact h.linked q children ((hdirectory q children).mp hdir) p

theorem WellFormed.writeFile (h : tree.WellFormed) {path : Text} {content : Json}
    {outcome : Outcome Text} (hok : tree.writeFile path content = .ok outcome) :
    outcome.tree.WellFormed := by
  rcases writeFile_eq_ok hok with hcreate | ⟨current, hfile, ⟨-, rfl⟩ | ⟨-, rfl⟩⟩
  · exact h.createFileAt (Path.isNormal_normalize _) hcreate
  · exact h
  · exact h.insert_file hfile content

theorem HoldsTexts.writeFile (h : tree.HoldsTexts) {path s : Text} {outcome : Outcome Text}
    (hok : tree.writeFile path (.text s) = .ok outcome) : outcome.tree.HoldsTexts := by
  rcases writeFile_eq_ok hok with hcreate | ⟨current, -, ⟨-, rfl⟩ | ⟨-, rfl⟩⟩
  · exact h.createFileAt hcreate
  · exact h
  · exact h.insert (Node.holdsText_file s)

/-! ## §2. Deleting -/

section Within

variable {paths : List Text} {top : Text}
  (hpaths : ∀ q, q ∈ paths ↔ tree.has q = true ∧ Path.isWithin q top = true)
include hpaths

/-- Behind the removal of what is within a path nothing else has changed. -/
theorem bare_detachAll_within (q : Text) :
    (tree.detachAll paths).bare q = if Path.isWithin q top then none else tree.bare q := by
  rw [bare_detachAll]
  by_cases hq : q ∈ paths
  · rw [if_pos hq, if_pos ((hpaths q).mp hq).2]
  · rw [if_neg hq]
    split
    · next hwithin =>
      -- nothing stands at a path within `top` that is not removed
      rw [bare_eq_none_iff, Bool.eq_false_iff]
      exact fun hhas => hq ((hpaths q).mpr ⟨hhas, hwithin⟩)
    · rfl

theorem WellFormed.detachAll_within (h : tree.WellFormed) (htop : IsNormal top)
    (hroot : top ≠ Path.root) : (tree.detachAll paths).WellFormed := by
  refine h.detachAll (fun hmem => ?_) fun q hhas hqroot hmem => ?_
  · have hwithin := ((hpaths _).mp hmem).2
    exact hroot (htop.eq_of_isWithin Path.isNormal_root (Path.isWithin_root top) hwithin)
  · -- with a directory everything in it is removed
    have hnormal := h.grounded.isNormal q hhas
    exact (hpaths q).mpr ⟨hhas, hnormal.isWithin_trans hnormal.parent htop
      hnormal.isWithin_parent_self ((hpaths _).mp hmem).2⟩

end Within

theorem delete_eq_ok {path : Text} {outcome : Outcome (List Text)}
    (hok : tree.delete path = .ok outcome) :
    Path.normalize path ≠ Path.root ∧ tree.has (Path.normalize path) = true ∧
      outcome = tree.deleteAt (Path.normalize path) := by
  unfold delete at hok
  dsimp only at hok
  split at hok
  · cases hok
  · next hroot =>
    obtain ⟨node, hnode, rfl⟩ := Result.map_eq_ok_iff.mp hok
    exact ⟨hroot, has_eq_true_iff.mpr ⟨node, require_eq_ok_iff.mp hnode⟩, rfl⟩

section Delete

variable {path : Text}

theorem WellFormed.mem_reverse_subtree_iff (h : tree.WellFormed) (hhas : tree.has path = true)
    (q : Text) :
    q ∈ (tree.subtree path).reverse ↔ tree.has q = true ∧ Path.isWithin q path = true := by
  rw [List.mem_reverse]
  exact h.mem_subtree_iff hhas

/-- Deleting takes away what is within the path and nothing else. -/
theorem WellFormed.bare_deleteAt (h : tree.WellFormed) (hhas : tree.has path = true) (q : Text) :
    (tree.deleteAt path).tree.bare q = if Path.isWithin q path then none else tree.bare q :=
  bare_detachAll_within (h.mem_reverse_subtree_iff hhas) q

theorem WellFormed.deleteAt (h : tree.WellFormed) (hhas : tree.has path = true)
    (hroot : path ≠ Path.root) : (tree.deleteAt path).tree.WellFormed :=
  h.detachAll_within (h.mem_reverse_subtree_iff hhas) (h.grounded.isNormal path hhas) hroot

end Delete

/-! ## §3. Renaming -/

/-- What stands at `old` can be moved to `new`, below the directories of `missing`. -/
structure Movable (tree : Tree) (old new : Text) (missing : List Text) : Prop where
  has_old : tree.has old = true
  old_ne_root : old ≠ Path.root
  isNormal_new : IsNormal new
  free : tree.has new = false
  not_within : Path.isWithin new old = false
  missingAncestors : tree.missingAncestors new = .ok missing

/-- A rename is accepted only where the node can be moved. -/
theorem rename_eq_ok {oldPath newPath : Text} {outcome : Outcome Text}
    (hok : tree.rename oldPath newPath = .ok outcome) :
    ∃ source missing, tree.get? (Path.normalize oldPath) = some source ∧
      tree.Movable (Path.normalize oldPath) (Path.normalize newPath) missing ∧
        outcome = tree.renameAt (Path.normalize oldPath) (Path.normalize newPath) source.kind
          missing := by
  unfold rename at hok
  dsimp only at hok
  split at hok
  · cases hok
  · next hroot =>
    split at hok
    · cases hok
    · next source hsource =>
      have hget : tree.get? (Path.normalize oldPath) = some source := require_eq_ok_iff.mp hsource
      have hhas : tree.has (Path.normalize oldPath) = true := has_eq_true_iff.mpr ⟨source, hget⟩
      split at hok
      · cases hok
      · next hfree =>
        split at hok
        · cases hok
        · next hinside =>
          obtain ⟨missing, hmissing, rfl⟩ := Result.map_eq_ok_iff.mp hok
          have hnew := Path.isNormal_normalize newPath
          have hfree := Bool.eq_false_iff.mpr hfree
          refine ⟨source, missing, hget, ⟨hhas, hroot, hnew, hfree, ?_, hmissing⟩, rfl⟩
          rw [Bool.eq_false_iff]
          intro hwithin
          -- a directory is not moved into itself, and beneath a file there is no place
          cases source with
          | directory children => exact hinside (by rw [hwithin]; rfl)
          | file content =>
            rcases (hnew.isWithin_iff_mem_ancestors (Path.isNormal_normalize oldPath)).mp hwithin with
              heq | hmem
            · rw [heq, hfree] at hhas
              cases hhas
            · have hnofile := (missingAncestors_eq_ok_iff.mp hmissing).1 _ hmem
              rw [isFileAt, hget] at hnofile
              cases hnofile

theorem relocated_keys (nodes : Text → Option Node) (old new : Text) (paths : List Text) :
    (paths.map fun p => (Path.rebase p old new, (nodes p).getD Node.emptyDirectory)).map Prod.fst
      = paths.map fun p => Path.rebase p old new := by
  rw [List.map_map]
  rfl

section Move

variable {old new : Text} {missing : List Text} (h : tree.WellFormed)
  (hmove : tree.Movable old new missing)
include h hmove

theorem WellFormed.isNormal_old : IsNormal old :=
  h.grounded.isNormal old hmove.has_old

omit hmove in
/-- What the walk from the old path comes by. -/
theorem WellFormed.of_mem_subtree (hhas : tree.has old = true) {p : Text}
    (hp : p ∈ tree.subtree old) :
    IsNormal p ∧ tree.has p = true ∧ Path.isWithin p old = true := by
  obtain ⟨hphas, hwithin⟩ := (h.mem_subtree_iff hhas).mp hp
  exact ⟨h.grounded.isNormal p hphas, hphas, hwithin⟩

theorem WellFormed.new_ne_root : new ≠ Path.root :=
  h.ne_root_of_free hmove.free

/-- Nothing above the new path is within the old one. -/
theorem WellFormed.not_within_of_mem_ancestors {q : Text} (hq : q ∈ ancestors new) :
    Path.isWithin q old = false := by
  rw [Bool.eq_false_iff]
  intro hwithin
  have hqnormal := (hmove.isNormal_new.mem_ancestors_iff.mp hq).1
  have htrans := hmove.isNormal_new.isWithin_trans hqnormal (h.isNormal_old hmove)
    (hmove.isNormal_new.isWithin_of_mem_ancestors hq) hwithin
  rw [hmove.not_within] at htrans
  cases htrans

/-- With the directories above the new path the walk from the old one is what it was. -/
theorem WellFormed.mem_subtree_iff_has_attachDirectories (q : Text) :
    q ∈ (tree.subtree old).reverse
      ↔ (tree.attachDirectories missing).has q = true ∧ Path.isWithin q old = true := by
  rw [h.mem_reverse_subtree_iff hmove.has_old, has_attachDirectories_missing hmove.missingAncestors,
    Bool.or_eq_true, decide_eq_true_eq]
  constructor
  · rintro ⟨hhas, hwithin⟩
    exact ⟨.inr hhas, hwithin⟩
  · rintro ⟨hmem | hhas, hwithin⟩
    · rw [h.not_within_of_mem_ancestors hmove hmem] at hwithin
      cases hwithin
    · exact ⟨hhas, hwithin⟩

/-- The tree between the removal of the old subtree and the return of its nodes. -/
theorem WellFormed.cleared :
    ((tree.attachDirectories missing).detachAll (tree.subtree old).reverse).WellFormed :=
  (h.attachDirectories_missing hmove.missingAncestors hmove.isNormal_new).detachAll_within
    (h.mem_subtree_iff_has_attachDirectories hmove) (h.isNormal_old hmove) hmove.old_ne_root

theorem WellFormed.bare_cleared (q : Text) :
    ((tree.attachDirectories missing).detachAll (tree.subtree old).reverse).bare q
      = if Path.isWithin q old then none
        else if q ∈ ancestors new then some Node.emptyDirectory
        else tree.bare q := by
  rw [bare_detachAll_within (h.mem_subtree_iff_has_attachDirectories hmove),
    bare_attachDirectories_missing hmove.missingAncestors]

/-- Nothing stands within the new path before the nodes come there. -/
theorem WellFormed.cleared_free {q : Text} (hwithin : Path.isWithin q new = true) :
    ((tree.attachDirectories missing).detachAll (tree.subtree old).reverse).has q = false := by
  rw [Bool.eq_false_iff]
  intro hhas
  have hnew := (h.cleared hmove).has_of_isWithin hhas hmove.isNormal_new hwithin
  rw [← isSome_bare, h.bare_cleared hmove, hmove.not_within, if_neg Bool.false_ne_true,
    if_neg fun hmem => (hmove.isNormal_new.mem_ancestors_iff.mp hmem).2.2 rfl, isSome_bare,
    hmove.free] at hnew
  cases hnew

omit hmove in
/-- The nodes of the walk, each with its new path and without its children. -/
theorem WellFormed.relocated_eq (hhas : tree.has old = true) :
    tree.relocated old new = (tree.subtree old).map fun p =>
      (Path.rebase p old new, (tree.bare p).getD Node.emptyDirectory) := by
  unfold relocated
  rw [← List.filterMap_eq_map]
  refine List.filterMap_congr fun p hp => ?_
  obtain ⟨node, hnode⟩ := has_eq_true_iff.mp ((h.mem_subtree_iff hhas).mp hp).1
  simp [bare, hnode]

/-- No two paths of the walk are moved to one place. -/
theorem WellFormed.nodup_moved :
    ((tree.subtree old).map fun p => Path.rebase p old new).Nodup := by
  refine (h.subtree_nodup hmove.has_old).map_on fun a ha b hb heq => ?_
  obtain ⟨hanormal, -, hawithin⟩ := h.of_mem_subtree hmove.has_old ha
  obtain ⟨hbnormal, -, hbwithin⟩ := h.of_mem_subtree hmove.has_old hb
  exact Path.rebase_injective (h.isNormal_old hmove) hmove.isNormal_new hmove.old_ne_root hanormal
    hbnormal hawithin hbwithin heq

/-- The nodes come to free places, each behind its directory. -/
theorem WellFormed.attachable_relocated :
    ((tree.attachDirectories missing).detachAll (tree.subtree old).reverse).Attachable
      (tree.relocated old new) := by
  have hold := h.isNormal_old hmove
  have hnew := hmove.isNormal_new
  rw [h.relocated_eq hmove.has_old]
  intro before path node behind hsplit
  obtain ⟨front, rest, hsubtree, rfl, hcons⟩ := List.map_eq_append_iff.mp hsplit
  obtain ⟨p, back, rfl, heq, rfl⟩ := List.map_eq_cons_iff.mp hcons
  obtain ⟨rfl, rfl⟩ := Prod.mk.inj heq
  have hpmem : p ∈ tree.subtree old := by
    rw [hsubtree]
    exact List.mem_append_right _ List.mem_cons_self
  obtain ⟨hp, hphas, hpwithin⟩ := h.of_mem_subtree hmove.has_old hpmem
  have hmoved := Path.isNormal_rebase hp hold hnew hmove.old_ne_root hpwithin
  refine ⟨hmoved, ?_, h.cleared_free hmove
    (Path.isWithin_rebase hp hold hnew hmove.old_ne_root hpwithin), ?_, ?_⟩
  · obtain ⟨original, horiginal⟩ := has_eq_true_iff.mp hphas
    rw [bare, horiginal]
    exact Node.emptied_emptied original
  · -- none of the nodes in front has been moved to the same place
    intro hmem
    have hnodup := h.nodup_moved hmove
    rw [hsubtree, List.map_append, List.map_cons, List.nodup_append] at hnodup
    rw [relocated_keys] at hmem
    exact hnodup.2.2 _ hmem _ List.mem_cons_self rfl
  · by_cases htop : p = old
    · -- the topmost node comes into the directory of the new path
      subst htop
      have hparent := hnew.parent_mem_ancestors (h.new_ne_root hmove)
      refine .inl ?_
      rw [Path.rebase, if_pos rfl, h.bare_cleared hmove,
        h.not_within_of_mem_ancestors hmove hparent, if_neg Bool.false_ne_true, if_pos hparent]
    · -- every other one comes into its old directory, which has been moved before it
      have hpfront := h.parent_mem_of_subtree_eq hmove.has_old hsubtree htop
      have hproot : p ≠ Path.root := by
        rintro rfl
        exact htop (hp.eq_of_isWithin hold hpwithin (Path.isWithin_root old))
      refine .inr (List.mem_map.mpr ⟨Path.parent p, hpfront, ?_⟩)
      rw [← Path.parent_rebase hp hold hnew hmove.old_ne_root hpwithin htop,
        h.grounded.parent_bare p hphas hproot, Option.getD_some]

theorem WellFormed.renameAt (kind : NodeKind) :
    (tree.renameAt old new kind missing).tree.WellFormed :=
  (h.cleared hmove).attachAll (h.attachable_relocated hmove)

/-- Renaming moves what is within the old path to the same place within the new one, makes the
directories above it, and touches nothing else. -/
theorem WellFormed.bare_renameAt (kind : NodeKind) {q : Text} (hq : IsNormal q) :
    (tree.renameAt old new kind missing).tree.bare q
      = if Path.isWithin q new then tree.bare (Path.rebase q new old)
        else if Path.isWithin q old then none
        else if q ∈ ancestors new then some Node.emptyDirectory
        else tree.bare q := by
  have hold := h.isNormal_old hmove
  have hnew := hmove.isNormal_new
  have hnewroot := h.new_ne_root hmove
  show (((tree.attachDirectories missing).detachAll (tree.subtree old).reverse).attachAll
    (tree.relocated old new)).bare q = _
  rw [h.relocated_eq hmove.has_old]
  by_cases hwithin : Path.isWithin q new = true
  · rw [if_pos hwithin]
    -- what comes to `q` is what stood at the path that is moved to `q`
    have hback := Path.isNormal_rebase hq hnew hold hnewroot hwithin
    have hbackwithin := Path.isWithin_rebase hq hnew hold hnewroot hwithin
    have hround := Path.rebase_rebase hq hnew hold hnewroot hwithin hmove.old_ne_root
    by_cases hhas : tree.has (Path.rebase q new old) = true
    · obtain ⟨node, hnode⟩ := has_eq_true_iff.mp hhas
      have hbare : tree.bare (Path.rebase q new old) = some (emptied node) := by
        rw [bare, hnode, Option.map_some]
      have hmem := (h.mem_subtree_iff hmove.has_old).mpr ⟨hhas, hbackwithin⟩
      have hentry : (q, emptied node) ∈ (tree.subtree old).map fun p =>
          (Path.rebase p old new, (tree.bare p).getD Node.emptyDirectory) :=
        List.mem_map.mpr ⟨_, hmem, by rw [hround, hbare, Option.getD_some]⟩
      rw [bare_attachAll_of_mem ?_ hentry, Node.emptied_emptied, hbare]
      rw [relocated_keys]
      exact h.nodup_moved hmove
    · rw [bare_attachAll_of_not_mem, bare_eq_none_iff.mpr (h.cleared_free hmove hwithin),
        bare_eq_none_iff.mpr (Bool.eq_false_iff.mpr hhas)]
      rw [relocated_keys]
      intro hmem
      obtain ⟨p, hp, rfl⟩ := List.mem_map.mp hmem
      obtain ⟨hpnormal, hphas, hpwithin⟩ := h.of_mem_subtree hmove.has_old hp
      rw [Path.rebase_rebase hpnormal hold hnew hmove.old_ne_root hpwithin hnewroot] at hhas
      exact hhas hphas
  · -- nothing is moved to a path outside of the new one
    rw [if_neg hwithin, bare_attachAll_of_not_mem, h.bare_cleared hmove]
    rw [relocated_keys]
    intro hmem
    obtain ⟨p, hp, rfl⟩ := List.mem_map.mp hmem
    obtain ⟨hpnormal, -, hpwithin⟩ := h.of_mem_subtree hmove.has_old hp
    exact hwithin (Path.isWithin_rebase hpnormal hold hnew hmove.old_ne_root hpwithin)

end Move

theorem WellFormed.rename (h : tree.WellFormed) {oldPath newPath : Text} {outcome : Outcome Text}
    (hok : tree.rename oldPath newPath = .ok outcome) : outcome.tree.WellFormed := by
  obtain ⟨source, missing, -, hmove, rfl⟩ := rename_eq_ok hok
  exact h.renameAt hmove source.kind

theorem HoldsTexts.renameAt (h : tree.HoldsTexts) (old new : Text) (kind : NodeKind)
    (missing : List Text) : (tree.renameAt old new kind missing).tree.HoldsTexts := by
  refine ((h.attachDirectories missing).detachAll _).attachAll fun entry hentry => ?_
  obtain ⟨p, -, hp⟩ := List.mem_filterMap.mp hentry
  obtain ⟨node, hnode, rfl⟩ := Option.map_eq_some_iff.mp hp
  intro content hcontent
  rw [Node.content?_emptied] at hcontent
  exact h p node hnode content hcontent

theorem WellFormed.delete (h : tree.WellFormed) {path : Text} {outcome : Outcome (List Text)}
    (hok : tree.delete path = .ok outcome) : outcome.tree.WellFormed := by
  obtain ⟨hroot, hhas, rfl⟩ := delete_eq_ok hok
  exact h.deleteAt hhas hroot

end LivePreview.Tree
