/-
  LivePreview.Proofs.Tree.InPlace
  ───────────────────────────────
  **Operations that write as they go.**

  The operations of a tree yield a new tree when all their conditions hold.  Here they
  are written as programs that change one tree step by step, in the order in which a
  store of nodes is changed: a program ends early when a condition fails (`Halt.rejected`)
  or when a node that it relies on is missing (`Halt.broken`), and what it has written up
  to then stays written.

  On a well-formed tree a program does what the operation says (`after_ofEdit`).  So it
  never breaks, and if it is rejected then before it has written anything.
-/
import LivePreview.Proofs.Tree.Reachable

namespace LivePreview.Tree

/-! ## §1. Programs -/

/-- How a program ends early. -/
inductive Halt where
  | rejected (error : Error)
  /-- A node that the program relies on is missing. -/
  | broken (path : Text)

/-- A program that changes a tree in place. -/
abbrev Program := ExceptT Halt (StateM Tree)

namespace Program

variable {α β : Type}

/-- What a program ends with, and the tree that it leaves behind in any case. -/
def after (program : Program α) (tree : Tree) : Except Halt α × Tree :=
  program.run.run tree

theorem after_bind (program : Program α) (next : α → Program β) (tree : Tree) :
    (program >>= next).after tree =
      match program.after tree with
      | (.ok a, tree) => (next a).after tree
      | (.error halt, tree) => (.error halt, tree) := by
  show (program >>= next).run.run tree = _
  rw [ExceptT.run_bind, StateT.run_bind]
  show _ = match program.run.run tree with
    | (.ok a, tree) => (next a).after tree
    | (.error halt, tree) => (.error halt, tree)
  rcases program.run.run tree with ⟨answer, behind⟩
  cases answer <;> rfl

/-- Behind a step that succeeds comes the rest. -/
theorem after_bind_of_ok {program : Program α} {tree changed : Tree} {a : α}
    (h : program.after tree = (.ok a, changed)) (next : α → Program β) :
    (program >>= next).after tree = (next a).after changed := by
  rw [after_bind, h]

/-! ## §2. Steps -/

/-- End with an error. -/
def reject (error : Error) : Program α :=
  throw (.rejected error)

/-- The node at a path, if there is one. -/
def look (path : Text) : Program (Option Node) :=
  return (← get).get? path

/-- Something stands at a path. -/
def stands (path : Text) : Program Bool :=
  return (← get).has path

/-- The node at a path, which an operation is asked for. -/
def need (path : Text) : Program Node := do
  match ← look path with
  | some node => return node
  | none => reject (.notFound path)

/-- The node at a path, which has to be there. -/
def relyOn (path : Text) : Program Node := do
  match ← look path with
  | some node => return node
  | none => throw (.broken path)

/-- Put a node at a path. -/
def put (path : Text) (node : Node) : Program Unit :=
  modify fun tree => ⟨tree.nodes.insert path node⟩

/-- Put a node at a path, and then enter the path in its directory, which has to be there. -/
def attachOne (path : Text) (node : Node) : Program Unit := do
  put path node
  if path ≠ Path.root then
    let directory ← relyOn (Path.parent path)
    put (Path.parent path) (directory.addChild path)

/-- Take the node at a path away, which has to be there, and then out of its directory. -/
def detachOne (path : Text) : Program Unit := do
  let _ ← relyOn path
  modify fun tree => ⟨tree.nodes.erase path⟩
  match ← look (Path.parent path) with
  | some directory => put (Path.parent path) (directory.removeChild path)
  | none => return

/-- Attach nodes from left to right. -/
def attachEach : List (Text × Node) → Program Unit
  | [] => return
  | (path, node) :: nodes => do
    attachOne path node
    attachEach nodes

/-- Detach what stands at paths, from left to right. -/
def detachEach : List Text → Program Unit
  | [] => return
  | path :: paths => do
    detachOne path
    detachEach paths

/-- Make directories from left to right, and tell each. -/
def makeDirectories : List Text → Program (List Change)
  | [] => return []
  | path :: paths => do
    attachOne path Node.emptyDirectory
    return .created path .directory :: (← makeDirectories paths)

/-- Those of the given paths at which nothing stands; rejected at the first file. -/
def missingAmong : List Text → Program (List Text)
  | [] => return []
  | path :: paths => do
    match ← look path with
    | none => return path :: (← missingAmong paths)
    | some (.file _) => reject (.notADirectory path)
    | some (.directory _) => missingAmong paths

/-- The path and everything beneath it, all of which has to be there. -/
def walk (path : Text) : Program (List Text) := do
  let tree ← get
  match (tree.subtree path).find? (!tree.has ·) with
  | some missing => throw (.broken missing)
  | none => return tree.subtree path

/-! ## §3. Operations -/

/-- The answer of an operation and the changes that it announces. -/
abbrev Told (α : Type) := α × Option (List Change)

def createFile (path : Text) (content : Json) : Program (Told Text) := do
  let path := Path.normalize path
  if ← stands path then
    reject (.fileExists path)
  else
    let missing ← missingAmong (Path.ancestors path)
    let changes ← makeDirectories missing
    attachOne path (.file content)
    return (path, some (changes ++ [.created path .file]))

def createDirectory (path : Text) : Program (Told Text) := do
  let path := Path.normalize path
  match ← look path with
  | some (.file _) => reject (.fileInTheWay path)
  | some (.directory _) => return (path, none)
  | none =>
    let missing ← missingAmong (Path.ancestors path)
    let changes ← makeDirectories (missing ++ [path])
    return (path, some changes)

def writeFile (path : Text) (content : Json) : Program (Told Text) := do
  let path := Path.normalize path
  match ← look path with
  | none => createFile path content
  | some (.directory _) => reject (.isADirectory path)
  | some (.file current) =>
    if current.agrees content then
      return (path, none)
    else
      put path (.file content)
      return (path, some [.modified path])

def delete (path : Text) : Program (Told (List Text)) := do
  let path := Path.normalize path
  if path = Path.root then
    reject .deleteRoot
  else
    let _ ← need path
    let removed ← walk path
    let tree ← get
    detachEach removed.reverse
    return (removed, some (removed.map fun p => .deleted p (tree.kindAt p)))

def rename (oldPath newPath : Text) : Program (Told Text) := do
  let old := Path.normalize oldPath
  let new := Path.normalize newPath
  if old = Path.root then
    reject .renameRoot
  else
    let source ← need old
    if ← stands new then
      reject (.destinationExists new)
    else if source.isDirectory && Path.isWithin new old then
      reject (.moveIntoItself old new)
    else
      let missing ← missingAmong (Path.ancestors new)
      -- from here on nothing is rejected any more
      let moved ← walk old
      let relocated := (← get).relocated old new
      let changes ← makeDirectories missing
      detachEach moved.reverse
      attachEach relocated
      return (new, some (changes ++ [.renamed old source.kind new]))

def replace (snapshot : Snapshot) : Program (Told Unit) := do
  match ofSnapshot snapshot with
  | .error error => reject error
  | .ok new =>
    let previous ← get
    set new
    return ((), some (previous.underRoot.map (fun (path, node) => .deleted path node.kind)
      ++ new.underRoot.map (fun (path, node) => .created path node.kind)))

/-! ## §4. What the steps do -/

section Steps

variable {tree : Tree} {path : Text} {paths : List Text} {node : Node} {nodes : List (Text × Node)}

theorem after_get (tree : Tree) : (get : Program Tree).after tree = (.ok tree, tree) := rfl

theorem after_look (tree : Tree) (path : Text) :
    (look path).after tree = (.ok (tree.get? path), tree) := rfl

theorem after_stands (tree : Tree) (path : Text) :
    (stands path).after tree = (.ok (tree.has path), tree) := rfl

theorem after_relyOn (h : tree.get? path = some node) :
    (relyOn path).after tree = (.ok node, tree) := by
  unfold relyOn
  rw [after_bind_of_ok (after_look tree path), h]
  rfl

theorem after_need (tree : Tree) (path : Text) :
    (need path).after tree = ((tree.require path).mapError .rejected, tree) := by
  unfold need Tree.require
  rw [after_bind_of_ok (after_look tree path)]
  cases tree.get? path <;> rfl

theorem after_put (tree : Tree) (path : Text) (node : Node) :
    (put path node).after tree = (.ok (), ⟨tree.nodes.insert path node⟩) := rfl

/-- Attaching comes to its end if the directory is there. -/
theorem after_attachOne (hparent : tree.has (Path.parent path) = true) (node : Node) :
    (attachOne path node).after tree = (.ok (), tree.attach path node) := by
  unfold attachOne Tree.attach
  rw [after_bind_of_ok (after_put tree path node)]
  by_cases hroot : path = Path.root
  · rw [if_neg (not_not_intro hroot), if_pos hroot]
    rfl
  · -- the directory is there, be it that it is the node just put
    obtain ⟨directory, hdirectory⟩ :
        ∃ directory, (⟨tree.nodes.insert path node⟩ : Tree).get? (Path.parent path) = some directory := by
      rw [get?_insert]
      split
      · exact ⟨node, rfl⟩
      · exact has_eq_true_iff.mp hparent
    rw [if_pos hroot, if_neg hroot, after_bind_of_ok (after_relyOn hdirectory), after_put]
    unfold Tree.update
    dsimp only
    rw [hdirectory]

theorem after_detachOne (hhas : tree.has path = true) :
    (detachOne path).after tree = (.ok (), tree.detach path) := by
  obtain ⟨node, hnode⟩ := has_eq_true_iff.mp hhas
  unfold detachOne Tree.detach Tree.update
  have herase : (modify fun tree => ⟨tree.nodes.erase path⟩ : Program Unit).after tree
      = (.ok (), ⟨tree.nodes.erase path⟩) := rfl
  rw [after_bind_of_ok (after_relyOn hnode), after_bind_of_ok herase,
    after_bind_of_ok (after_look _ (Path.parent path))]
  dsimp only
  cases (⟨tree.nodes.erase path⟩ : Tree).get? (Path.parent path) <;> rfl

/-- When each of the nodes is attached its directory is there. -/
def DirectoriesStand : Tree → List (Text × Node) → Prop
  | _, [] => True
  | tree, (path, node) :: nodes =>
    tree.has (Path.parent path) = true ∧ DirectoriesStand (tree.attach path node) nodes

theorem directoriesStand_append {tree : Tree} {nodes more : List (Text × Node)} :
    DirectoriesStand tree (nodes ++ more)
      ↔ DirectoriesStand tree nodes ∧ DirectoriesStand (tree.attachAll nodes) more := by
  induction nodes generalizing tree with
  | nil => exact Iff.intro (fun hmore => ⟨trivial, hmore⟩) And.right
  | cons entry nodes ih =>
    show _ ∧ DirectoriesStand _ (nodes ++ more) ↔ (_ ∧ DirectoriesStand _ nodes) ∧ _
    rw [ih, and_assoc]
    rfl

theorem directoriesStand_of_attachable (h : tree.Attachable nodes) : DirectoriesStand tree nodes := by
  induction nodes generalizing tree with
  | nil => trivial
  | cons entry nodes ih =>
    obtain ⟨-, -, -, hparent⟩ := h.head
    exact ⟨has_of_bare hparent, ih h.tail⟩

theorem after_attachEach (h : DirectoriesStand tree nodes) :
    (attachEach nodes).after tree = (.ok (), tree.attachAll nodes) := by
  induction nodes generalizing tree with
  | nil => rfl
  | cons entry nodes ih =>
    obtain ⟨hparent, hrest⟩ := h
    unfold attachEach
    rw [after_bind_of_ok (after_attachOne hparent _), ih hrest]
    rfl

theorem after_makeDirectories
    (h : DirectoriesStand tree (paths.map fun p => (p, Node.emptyDirectory))) :
    (makeDirectories paths).after tree = (.ok (createdDirectories paths), tree.attachDirectories paths) := by
  induction paths generalizing tree with
  | nil => rfl
  | cons path paths ih =>
    obtain ⟨hparent, hrest⟩ := h
    unfold makeDirectories
    rw [after_bind_of_ok (after_attachOne hparent _), after_bind_of_ok (ih hrest)]
    rfl

theorem after_detachEach (hnodup : paths.Nodup) (hhas : ∀ p ∈ paths, tree.has p = true) :
    (detachEach paths).after tree = (.ok (), tree.detachAll paths) := by
  induction paths generalizing tree with
  | nil => rfl
  | cons path paths ih =>
    rw [List.nodup_cons] at hnodup
    rw [List.forall_mem_cons] at hhas
    -- the others are still there when this one is gone
    have hothers : ∀ p ∈ paths, (tree.detach path).has p = true := by
      intro p hp
      have hne : p ≠ path := ne_of_mem_of_not_mem hp hnodup.1
      rw [has_detach, hhas.2 p hp, decide_eq_true hne]
      rfl
    unfold detachEach
    rw [after_bind_of_ok (after_detachOne hhas.1), ih hnodup.2 hothers]
    rfl

/-- Going through paths finds the first file among them, or else those at which nothing stands. -/
theorem after_missingAmong (tree : Tree) (paths : List Text) :
    (missingAmong paths).after tree =
      (match paths.find? tree.isFileAt with
        | some file => .error (.rejected (.notADirectory file))
        | none => .ok (paths.filter (!tree.has ·)), tree) := by
  induction paths with
  | nil => rfl
  | cons path paths ih =>
    unfold missingAmong
    rw [after_bind_of_ok (after_look tree path), List.find?_cons, List.filter_cons, isFileAt, has]
    cases tree.get? path with
    | none =>
      dsimp only [Option.any_none, Option.isSome_none, Bool.not_false]
      rw [after_bind, ih]
      cases paths.find? tree.isFileAt <;> rfl
    | some node =>
      cases node with
      | file content => rfl
      | directory children => exact ih

theorem after_missingAncestors (tree : Tree) (path : Text) :
    (missingAmong (Path.ancestors path)).after tree
      = ((tree.missingAncestors path).mapError .rejected, tree) := by
  rw [after_missingAmong]
  unfold Tree.missingAncestors
  cases (Path.ancestors path).find? tree.isFileAt <;> rfl

theorem after_walk (h : tree.WellFormed) (hhas : tree.has path = true) :
    (walk path).after tree = (.ok (tree.subtree path), tree) := by
  have hall : (tree.subtree path).find? (!tree.has ·) = none := by
    rw [List.find?_eq_none]
    intro p hp
    rw [((h.mem_subtree_iff hhas).mp hp).1]
    exact Bool.false_ne_true
  unfold walk
  rw [after_bind_of_ok (after_get tree), hall]
  rfl

end Steps

/-! ## §5. What the operations do -/

/-- What a program ends with if it does what an operation says. -/
def ending {α : Type} (tree : Tree) : Except Error (Outcome α) → Except Halt (Told α) × Tree
  | .ok outcome => (.ok (outcome.answer, outcome.changes?), outcome.tree)
  | .error error => (.error (.rejected error), tree)

section Operations

variable {tree : Tree} (h : tree.WellFormed)
include h

/-- The directories above a free path can be made, and then a node can be attached there. -/
theorem directoriesStand_missing {path : Text} {missing : List Text} (hpath : Path.IsNormal path)
    (hfree : tree.has path = false) (hmissing : tree.missingAncestors path = .ok missing) :
    DirectoriesStand tree (missing.map fun p => (p, Node.emptyDirectory))
      ∧ (tree.attachDirectories missing).has (Path.parent path) = true := by
  have hparent := hpath.parent_mem_ancestors (h.ne_root_of_free hfree)
  refine ⟨directoriesStand_of_attachable (h.attachable_missing hmissing hpath), ?_⟩
  rw [has_attachDirectories_missing hmissing, decide_eq_true hparent, Bool.true_or]

theorem after_createFile (path : Text) (content : Json) :
    (createFile path content).after tree = ending tree (tree.createFile path content) := by
  have hpath := Path.isNormal_normalize path
  unfold createFile Tree.createFile Tree.createFileAt
  dsimp only
  generalize Path.normalize path = path at hpath ⊢
  rw [after_bind_of_ok (after_stands tree path)]
  by_cases hhas : tree.has path = true
  · rw [if_pos hhas, if_pos hhas]
    rfl
  · rw [if_neg hhas, if_neg hhas, after_bind, after_missingAncestors]
    cases hmissing : tree.missingAncestors path with
    | error error => rfl
    | ok missing =>
      obtain ⟨hdirectories, hparent⟩ :=
        directoriesStand_missing h hpath (Bool.eq_false_iff.mpr hhas) hmissing
      show (makeDirectories missing >>= _).after tree = _
      rw [after_bind_of_ok (after_makeDirectories hdirectories),
        after_bind_of_ok (after_attachOne hparent _)]
      rfl

theorem after_createDirectory (path : Text) :
    (createDirectory path).after tree = ending tree (tree.createDirectory path) := by
  have hpath := Path.isNormal_normalize path
  unfold createDirectory Tree.createDirectory
  dsimp only
  generalize Path.normalize path = path at hpath ⊢
  rw [after_bind_of_ok (after_look tree path)]
  cases hget : tree.get? path with
  | some node => cases node <;> rfl
  | none =>
    dsimp only
    rw [after_bind, after_missingAncestors]
    cases hmissing : tree.missingAncestors path with
    | error error => rfl
    | ok missing =>
      have hfree : tree.has path = false := by rw [has, hget, Option.isSome_none]
      obtain ⟨hdirectories, hparent⟩ := directoriesStand_missing h hpath hfree hmissing
      have hall : DirectoriesStand tree
          ((missing ++ [path]).map fun p => (p, Node.emptyDirectory)) := by
        rw [List.map_append, directoriesStand_append, ← attachDirectories_eq_attachAll]
        exact ⟨hdirectories, hparent, trivial⟩
      show (makeDirectories (missing ++ [path]) >>= _).after tree = _
      rw [after_bind_of_ok (after_makeDirectories hall)]
      rfl

theorem after_writeFile (path : Text) (content : Json) :
    (writeFile path content).after tree = ending tree (tree.writeFile path content) := by
  unfold writeFile Tree.writeFile
  dsimp only
  generalize Path.normalize path = path
  rw [after_bind_of_ok (after_look tree path)]
  cases tree.get? path with
  | none => exact after_createFile h path content
  | some node =>
    cases node with
    | directory children => rfl
    | file current =>
      dsimp only
      by_cases hagrees : current.agrees content = true
      · rw [if_pos hagrees, if_pos hagrees]
        rfl
      · rw [if_neg hagrees, if_neg hagrees]
        rfl

theorem after_delete (path : Text) :
    (delete path).after tree = ending tree (tree.delete path) := by
  unfold delete Tree.delete
  dsimp only
  generalize Path.normalize path = path
  by_cases hroot : path = Path.root
  · rw [if_pos hroot, if_pos hroot]
    rfl
  · rw [if_neg hroot, if_neg hroot, after_bind, after_need]
    unfold Tree.require
    cases hget : tree.get? path with
    | none => rfl
    | some node =>
      have hhas : tree.has path = true := has_eq_true_iff.mpr ⟨node, hget⟩
      have hremoved : ∀ p ∈ (tree.subtree path).reverse, tree.has p = true := fun p hp =>
        ((h.mem_reverse_subtree_iff hhas p).mp hp).1
      have hnodup := List.nodup_reverse.mpr (h.subtree_nodup hhas)
      show (walk path >>= _).after tree = _
      rw [after_bind_of_ok (after_walk h hhas), after_bind_of_ok (after_get tree),
        after_bind_of_ok (after_detachEach hnodup hremoved)]
      rfl

/-- When nothing speaks against a move any more, every step of it can be taken. -/
theorem after_move {old new : Text} {source : Node} {missing : List Text}
    (hmove : tree.Movable old new missing) :
    (do
      let moved ← walk old
      let relocated := (← get).relocated old new
      let changes ← makeDirectories missing
      detachEach moved.reverse
      attachEach relocated
      return (new, some (changes ++ [.renamed old source.kind new]))
      : Program (Told Text)).after tree = ending tree (.ok (tree.renameAt old new source.kind missing)) := by
  have hdirectories := (directoriesStand_missing h hmove.isNormal_new hmove.free hmove.missingAncestors).1
  have hnodup := List.nodup_reverse.mpr (h.subtree_nodup hmove.has_old)
  have hremoved : ∀ p ∈ (tree.subtree old).reverse, (tree.attachDirectories missing).has p = true :=
    fun p hp => ((h.mem_subtree_iff_has_attachDirectories hmove p).mp hp).1
  have hrelocated := directoriesStand_of_attachable (h.attachable_relocated hmove)
  rw [after_bind_of_ok (after_walk h hmove.has_old), after_bind_of_ok (after_get tree),
    after_bind_of_ok (after_makeDirectories hdirectories),
    after_bind_of_ok (after_detachEach hnodup hremoved), after_bind_of_ok (after_attachEach hrelocated)]
  rfl

theorem after_rename (oldPath newPath : Text) :
    (rename oldPath newPath).after tree = ending tree (tree.rename oldPath newPath) := by
  have haccepted := @rename_eq_ok tree oldPath newPath
  unfold Tree.rename at haccepted ⊢
  unfold rename
  dsimp only at haccepted ⊢
  by_cases hroot : Path.normalize oldPath = Path.root
  · rw [if_pos hroot, if_pos hroot]
    rfl
  rw [if_neg hroot] at haccepted
  rw [if_neg hroot, if_neg hroot, after_bind, after_need]
  cases hsource : tree.require (Path.normalize oldPath) with
  | error error => rfl
  | ok source =>
    rw [hsource] at haccepted
    dsimp only at haccepted ⊢
    show (stands _ >>= _).after tree = _
    rw [after_bind_of_ok (after_stands tree _)]
    by_cases hhas : tree.has (Path.normalize newPath) = true
    · rw [if_pos hhas, if_pos hhas]
      rfl
    rw [if_neg hhas] at haccepted
    rw [if_neg hhas, if_neg hhas]
    by_cases hinside : (source.isDirectory
        && Path.isWithin (Path.normalize newPath) (Path.normalize oldPath)) = true
    · rw [if_pos hinside, if_pos hinside]
      rfl
    rw [if_neg hinside] at haccepted
    rw [if_neg hinside, if_neg hinside, after_bind, after_missingAncestors]
    cases hmissing : tree.missingAncestors (Path.normalize newPath) with
    | error error => rfl
    | ok missing =>
      -- all conditions hold, so the operation is accepted and the node can be moved
      rw [hmissing] at haccepted
      obtain ⟨_, missing', -, hmove, -⟩ := haccepted rfl
      obtain rfl : missing = missing' := Except.ok.inj (hmissing.symm.trans hmove.missingAncestors)
      exact after_move h hmove

omit h in
theorem after_replace (tree : Tree) (snapshot : Snapshot) :
    (replace snapshot).after tree = ending tree (tree.replace snapshot) := by
  unfold replace Tree.replace
  cases ofSnapshot snapshot <;> rfl

end Operations

/-! ## §6. Edits -/

/-- The program without its answer. -/
def quietly {α : Type} (program : Program (Told α)) : Program (Told Unit) := do
  let told ← program
  return ((), told.2)

/-- The program of an edit. -/
def ofEdit : Edit → Program (Told Unit)
  | .createFile path content => quietly (createFile path (.text content))
  | .createDirectory path => quietly (createDirectory path)
  | .writeFile path content => quietly (writeFile path (.text content))
  | .delete path => quietly (delete path)
  | .rename oldPath newPath => quietly (rename oldPath newPath)
  | .replace snapshot => replace snapshot

theorem after_quietly {α : Type} {program : Program (Told α)} {tree : Tree}
    {result : Except Error (Outcome α)} (h : program.after tree = ending tree result) :
    (quietly program).after tree = ending tree (result.map .quiet) := by
  unfold quietly
  rw [after_bind, h]
  cases result <;> rfl

/-- **On a well-formed tree the program of an edit does what the edit comes to.**  It never breaks,
and if it is rejected the tree is as it was. -/
theorem after_ofEdit {tree : Tree} (h : tree.WellFormed) (edit : Edit) :
    (ofEdit edit).after tree = ending tree (tree.attempt edit) := by
  cases edit with
  | createFile path content => exact after_quietly (after_createFile h path (.text content))
  | createDirectory path => exact after_quietly (after_createDirectory h path)
  | writeFile path content => exact after_quietly (after_writeFile h path (.text content))
  | delete path => exact after_quietly (after_delete h path)
  | rename oldPath newPath => exact after_quietly (after_rename h oldPath newPath)
  | replace snapshot => exact after_replace tree snapshot

end Program

end LivePreview.Tree
