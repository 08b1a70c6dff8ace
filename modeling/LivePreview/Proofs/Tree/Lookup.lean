/-
  LivePreview.Proofs.Tree.Lookup
  ──────────────────────────────
  **What stands where after nodes have been attached and detached.**

  Each operation on a tree is described by what `get?` answers behind it.  Where the
  children of directories do not matter, `bare` answers instead: the node at a path
  without its children.  On bare nodes attaching and detaching touch one path and no
  other, so that whole lists of them can be described at once:

      bare (attach t p n) q    = n bare, at `q = p`, and `bare t q` elsewhere
      bare (detachAll t ps) q  = nothing, at `q ∈ ps`, and `bare t q` elsewhere
-/
import LivePreview.Tree.Edit

namespace LivePreview

/-! ## §1. Nodes -/

namespace Node

@[simp] theorem emptied_addChild (path : Text) (node : Node) :
    Tree.emptied (node.addChild path) = Tree.emptied node := by
  cases node <;> rfl

@[simp] theorem emptied_removeChild (path : Text) (node : Node) :
    Tree.emptied (node.removeChild path) = Tree.emptied node := by
  cases node <;> rfl

@[simp] theorem emptied_emptied (node : Node) :
    Tree.emptied (Tree.emptied node) = Tree.emptied node := by
  cases node <;> rfl

@[simp] theorem emptied_emptyDirectory : Tree.emptied emptyDirectory = emptyDirectory := rfl

end Node

namespace Tree

/-- The node at a path, without its children. -/
def bare (tree : Tree) (path : Text) : Option Node :=
  (tree.get? path).map emptied

theorem isSome_bare (tree : Tree) (path : Text) : (tree.bare path).isSome = tree.has path := by
  simp [bare, has]

theorem bare_eq_none_iff {tree : Tree} {path : Text} :
    tree.bare path = none ↔ tree.has path = false := by
  rw [← isSome_bare, Option.isSome_eq_false_iff, Option.isNone_iff_eq_none]

theorem bare_eq_file_iff {tree : Tree} {path : Text} {content : Json} :
    tree.bare path = some (.file content) ↔ tree.get? path = some (.file content) := by
  unfold bare
  cases tree.get? path with
  | none => simp
  | some node => cases node <;> simp [emptied, Node.emptyDirectory]

theorem bare_eq_directory_iff {tree : Tree} {path : Text} :
    tree.bare path = some Node.emptyDirectory
      ↔ ∃ children, tree.get? path = some (.directory children) := by
  unfold bare
  cases tree.get? path with
  | none => simp
  | some node => cases node <;> simp [emptied, Node.emptyDirectory]

theorem require_eq_ok_iff {tree : Tree} {path : Text} {node : Node} :
    tree.require path = .ok node ↔ tree.get? path = some node := by
  unfold require
  cases tree.get? path <;> simp

/-- What is read is the content of the file at the path. -/
theorem get?_of_read {tree : Tree} {path : Text} {content : Json} (hread : tree.read path = .ok content) :
    tree.get? (Path.normalize path) = some (.file content) := by
  unfold read require at hread
  cases hget : tree.get? (Path.normalize path) with
  | none =>
    rw [hget] at hread
    cases hread
  | some node =>
    rw [hget] at hread
    cases node with
    | file found =>
      cases hread
      rfl
    | directory children => cases hread

theorem read_eq_ok {tree : Tree} {path : Text} {content : Json}
    (hfile : tree.get? (Path.normalize path) = some (.file content)) : tree.read path = .ok content := by
  unfold read
  rw [require_eq_ok_iff.mpr hfile]

/-! ## §2. Single nodes -/

theorem get?_insert (tree : Tree) (path : Text) (node : Node) (q : Text) :
    (⟨tree.nodes.insert path node⟩ : Tree).get? q = if q = path then some node else tree.get? q := by
  unfold get?
  rw [Std.ExtTreeMap.getElem?_insert]
  simp only [Std.LawfulEqCmp.compare_eq_iff_eq, eq_comm (a := path)]

theorem get?_nil (path : Text) : (⟨∅⟩ : Tree).get? path = none :=
  Std.ExtTreeMap.getElem?_empty

theorem get?_empty (path : Text) :
    Tree.empty.get? path = if path = Path.root then some Node.emptyDirectory else none := by
  have h := get?_insert ⟨∅⟩ Path.root Node.emptyDirectory path
  rwa [get?_nil] at h

theorem mem_toList_iff {tree : Tree} {path : Text} {node : Node} :
    (path, node) ∈ tree.toList ↔ tree.get? path = some node :=
  Std.ExtTreeMap.mem_toList_iff_getElem?_eq_some

theorem get?_erase (tree : Tree) (path : Text) (q : Text) :
    (⟨tree.nodes.erase path⟩ : Tree).get? q = if q = path then none else tree.get? q := by
  unfold get?
  rw [Std.ExtTreeMap.getElem?_erase]
  simp only [Std.LawfulEqCmp.compare_eq_iff_eq, eq_comm (a := path)]

theorem get?_update (tree : Tree) (path : Text) (f : Node → Node) (q : Text) :
    (tree.update path f).get? q = if q = path then (tree.get? q).map f else tree.get? q := by
  unfold update
  split
  · next node hnode =>
    rw [get?_insert]
    split
    · next heq => rw [heq, hnode, Option.map_some]
    · rfl
  · next hnone =>
    split
    · next heq => rw [heq, hnone, Option.map_none]
    · rfl

/-- Attaching a node puts it in place, and enters it in its directory. -/
theorem get?_attach {tree : Tree} {path : Text} (hself : Path.parent path ≠ path)
    (hroot : path ≠ Path.root) (node : Node) (q : Text) :
    (tree.attach path node).get? q
      = if q = path then some node
        else if q = Path.parent path then (tree.get? q).map (Node.addChild path)
        else tree.get? q := by
  unfold attach
  rw [if_neg hroot, get?_update, get?_insert]
  by_cases hq : q = path
  · subst hq
    simp [Ne.symm hself]
  · simp [hq]

/-- Detaching a node takes it away, also out of its directory. -/
theorem get?_detach (tree : Tree) (path q : Text) :
    (tree.detach path).get? q
      = if q = path then none
        else if q = Path.parent path then (tree.get? q).map (Node.removeChild path)
        else tree.get? q := by
  unfold detach
  rw [get?_update, get?_erase]
  by_cases hq : q = path
  · simp [hq]
  · simp [hq]

theorem bare_insert (tree : Tree) (path : Text) (node : Node) (q : Text) :
    (⟨tree.nodes.insert path node⟩ : Tree).bare q
      = if q = path then some (emptied node) else tree.bare q := by
  unfold bare
  rw [get?_insert]
  split <;> rfl

theorem bare_update {tree : Tree} {path : Text} {f : Node → Node}
    (hf : ∀ node, emptied (f node) = emptied node) (q : Text) :
    (tree.update path f).bare q = tree.bare q := by
  unfold bare
  rw [get?_update]
  split
  · simp [Function.comp_def, hf]
  · rfl

theorem bare_attach (tree : Tree) (path : Text) (node : Node) (q : Text) :
    (tree.attach path node).bare q = if q = path then some (emptied node) else tree.bare q := by
  unfold attach
  by_cases hroot : path = Path.root
  · rw [if_pos hroot, bare_insert]
  · rw [if_neg hroot, bare_update (Node.emptied_addChild path), bare_insert]

theorem bare_detach (tree : Tree) (path q : Text) :
    (tree.detach path).bare q = if q = path then none else tree.bare q := by
  unfold detach
  rw [bare_update (Node.emptied_removeChild path)]
  unfold bare
  rw [get?_erase]
  split <;> rfl

/-! ## §3. Lists of nodes -/

theorem bare_detachAll (tree : Tree) (paths : List Text) (q : Text) :
    (tree.detachAll paths).bare q = if q ∈ paths then none else tree.bare q := by
  unfold detachAll
  induction paths generalizing tree with
  | nil => simp
  | cons path paths ih =>
    rw [List.foldl_cons, ih, bare_detach]
    by_cases hq : q = path
    · simp [hq]
    · simp [hq]

theorem bare_attachDirectories (tree : Tree) (paths : List Text) (q : Text) :
    (tree.attachDirectories paths).bare q
      = if q ∈ paths then some Node.emptyDirectory else tree.bare q := by
  unfold attachDirectories
  induction paths generalizing tree with
  | nil => simp
  | cons path paths ih =>
    rw [List.foldl_cons, ih, bare_attach]
    by_cases hq : q = path
    · simp [hq]
    · simp [hq]

theorem bare_attachAll_of_not_mem {tree : Tree} {nodes : List (Text × Node)} {q : Text}
    (hq : q ∉ nodes.map Prod.fst) : (tree.attachAll nodes).bare q = tree.bare q := by
  unfold attachAll
  induction nodes generalizing tree with
  | nil => rfl
  | cons entry nodes ih =>
    simp only [List.map_cons, List.mem_cons, not_or] at hq
    rw [List.foldl_cons, ih hq.2, bare_attach, if_neg hq.1]

/-- Of nodes with different paths each one gets its place. -/
theorem bare_attachAll_of_mem {tree : Tree} {nodes : List (Text × Node)} {q : Text} {node : Node}
    (hnodup : (nodes.map Prod.fst).Nodup) (hmem : (q, node) ∈ nodes) :
    (tree.attachAll nodes).bare q = some (emptied node) := by
  unfold attachAll
  induction nodes generalizing tree with
  | nil => simp at hmem
  | cons entry nodes ih =>
    rw [List.map_cons, List.nodup_cons] at hnodup
    rw [List.foldl_cons]
    rcases List.mem_cons.mp hmem with rfl | hmem
    · have hrest : ((tree.attach q node).attachAll nodes).bare q = (tree.attach q node).bare q :=
        bare_attachAll_of_not_mem hnodup.1
      unfold attachAll at hrest
      rw [hrest, bare_attach, if_pos rfl]
    · exact ih hnodup.2 hmem

end Tree

end LivePreview
