/-
  LivePreview.Proofs.Tree.Subtree
  ───────────────────────────────
  **Walking a well-formed tree.**

  The walk from a path follows the children of directories.  In a well-formed tree it
  visits exactly the paths within the path it starts from (`mem_subtree_iff`), and in
  the order of their lists of names, compared name by name (`subtree_ordered`).  So it
  visits no path twice, and every path behind its directory (`parent_mem_of_subtree_eq`).
-/
import LivePreview.Proofs.Tree.WellFormed

namespace LivePreview.Tree

open LivePreview.Path (IsNormal names)

/-! ## §1. Orders of lists -/

theorem compare_append_left {α : Type} [Ord α] [Std.ReflOrd α] (xs ys zs : List α) :
    compare (xs ++ ys) (xs ++ zs) = compare ys zs := by
  induction xs with
  | nil => rfl
  | cons x xs ih =>
    rw [List.cons_append, List.cons_append, List.compare_cons_cons, ih, Std.ReflOrd.compare_self]
    rfl

theorem compare_append_cons {α : Type} [Ord α] [Std.ReflOrd α] (xs ys : List α) (y : α) :
    compare xs (xs ++ y :: ys) = .lt := by
  have h := compare_append_left xs [] (y :: ys)
  rwa [List.append_nil, List.compare_nil_cons] at h

/-- One path comes before another one if its list of names does. -/
def Precedes (p q : Text) : Prop :=
  compare (names p) (names q) = .lt

theorem precedes_parent {path : Text} (h : IsNormal path) (hroot : path ≠ Path.root) :
    Precedes (Path.parent path) path := by
  obtain ⟨name, hname⟩ := h.exists_names_eq_concat hroot
  unfold Precedes
  rw [hname]
  exact compare_append_cons _ _ _

theorem Precedes.asymm {p q : Text} (h : Precedes p q) : ¬ Precedes q p := by
  intro hback
  unfold Precedes at h hback
  rw [Std.OrientedOrd.eq_swap, h] at hback
  cases hback

theorem Precedes.ne {p q : Text} (h : Precedes p q) : p ≠ q := by
  rintro rfl
  exact h.asymm h

/-! ## §2. Children -/

/-- The children of the node at a path, in ascending order. -/
def childrenAt (tree : Tree) (path : Text) : List Text :=
  ((tree.get? path).map Node.childList).getD []

section WellFormed

variable {tree : Tree} (h : tree.WellFormed)
include h

/-- The children of a path are the paths that lie in it. -/
theorem WellFormed.mem_childrenAt_iff {directory path : Text} :
    path ∈ tree.childrenAt directory
      ↔ path ≠ Path.root ∧ tree.has path = true ∧ Path.parent path = directory := by
  unfold childrenAt
  constructor
  · intro hmem
    -- only a directory has children
    cases hdir : tree.get? directory with
    | none => simp [hdir] at hmem
    | some node =>
      cases node with
      | file content => simp [hdir, Node.childList] at hmem
      | directory children =>
        rw [hdir, Option.map_some, Option.getD_some, Node.childList,
          Std.ExtTreeSet.mem_toList] at hmem
        exact (h.linked directory children hdir path).mp hmem
  · rintro ⟨hroot, hhas, rfl⟩
    obtain ⟨children, hdir⟩ := bare_eq_directory_iff.mp (h.grounded.parent_bare path hhas hroot)
    rw [hdir, Option.map_some, Option.getD_some, Node.childList, Std.ExtTreeSet.mem_toList]
    exact (h.linked _ children hdir path).mpr ⟨hroot, hhas, rfl⟩

/-- A child has one name more than its directory. -/
theorem WellFormed.exists_name_of_mem_childrenAt {directory path : Text}
    (hmem : path ∈ tree.childrenAt directory) :
    ∃ name, names path = names directory ++ [name] := by
  obtain ⟨hroot, hhas, rfl⟩ := h.mem_childrenAt_iff.mp hmem
  exact (h.grounded.isNormal path hhas).exists_names_eq_concat hroot

/-- The children of a directory are in the order of their names. -/
theorem WellFormed.childrenAt_ordered (directory : Text) :
    (tree.childrenAt directory).Pairwise Precedes := by
  -- the set of children is ordered by their texts, which begin with that of the directory
  have hsorted : (tree.childrenAt directory).Pairwise fun a b => compare a b = .lt := by
    unfold childrenAt
    cases tree.get? directory with
    | none => exact List.Pairwise.nil
    | some node =>
      cases node with
      | file content => exact List.Pairwise.nil
      | directory children => exact Std.ExtTreeSet.ordered_toList
  refine hsorted.imp_of_mem fun {a b} ha hb hlt => ?_
  obtain ⟨x, hx⟩ := h.exists_name_of_mem_childrenAt ha
  obtain ⟨y, hy⟩ := h.exists_name_of_mem_childrenAt hb
  have hpoints : ∀ {q : Text} {name}, q ∈ tree.childrenAt directory →
      names q = names directory ++ [name] →
      q.points = Path.trail (names directory) ++ Path.slash :: name := by
    intro q name hq hname
    obtain ⟨hroot, hhas, -⟩ := h.mem_childrenAt_iff.mp hq
    calc q.points = Path.trail (names q) := (h.grounded.isNormal q hhas).points_eq_trail hroot
      _ = Path.trail (names directory) ++ Path.slash :: name := by simp [hname]
  have hcompare : compare a.points b.points = .lt := hlt
  rw [hpoints ha hx, hpoints hb hy, compare_append_left, List.compare_cons_cons,
    Std.ReflOrd.compare_self] at hcompare
  unfold Precedes
  rw [hx, hy, compare_append_left, List.compare_cons_cons]
  simpa using hcompare

/-! ## §3. The walk to a depth -/

/-- The walk to a depth visits the paths within its start that have at most so many names more. -/
theorem WellFormed.mem_descend_iff {depth : Nat} {path q : Text} (hpath : tree.has path = true) :
    q ∈ tree.descend depth path
      ↔ tree.has q = true ∧ names path <+: names q
        ∧ (names q).length ≤ (names path).length + depth := by
  have hnormal := h.grounded.isNormal path hpath
  -- by induction on the depth: a longer walk goes on from a child, which has one name more
  induction depth generalizing path with
  | zero =>
    rw [descend, List.mem_singleton]
    constructor
    · rintro rfl
      exact ⟨hpath, List.prefix_rfl, Nat.le_refl _⟩
    · rintro ⟨hq, hbegins, hlen⟩
      exact (hnormal.ext (h.grounded.isNormal q hq) (hbegins.eq_of_length_le hlen)).symm
  | succ depth ih =>
    have hdescend : tree.descend (depth + 1) path
        = path :: (tree.childrenAt path).flatMap (tree.descend depth) := rfl
    rw [hdescend, List.mem_cons, List.mem_flatMap]
    constructor
    · rintro (rfl | ⟨child, hchild, hq⟩)
      · exact ⟨hpath, List.prefix_rfl, by omega⟩
      · have hchildhas := (h.mem_childrenAt_iff.mp hchild).2.1
        obtain ⟨name, hname⟩ := h.exists_name_of_mem_childrenAt hchild
        obtain ⟨hqhas, hbegins, hlen⟩ :=
          (ih hchildhas (h.grounded.isNormal child hchildhas)).mp hq
        refine ⟨hqhas, (hname ▸ List.prefix_append _ _ : names path <+: names child).trans hbegins, ?_⟩
        rw [hname, List.length_append, List.length_singleton] at hlen
        omega
    · rintro ⟨hq, ⟨rest, hrest⟩, hlen⟩
      have hqnormal := h.grounded.isNormal q hq
      cases rest with
      | nil =>
        rw [List.append_nil] at hrest
        exact .inl (hqnormal.ext hnormal hrest.symm)
      | cons name rest =>
        -- the child through which the walk comes to `q`
        have hnamesq := Path.areNames_names q
        have hchildnames : Path.AreNames (names path ++ [name]) :=
          hnamesq.of_subset (by rw [← hrest]; simp)
        have hchild : names (Path.ofNames (names path ++ [name])) = names path ++ [name] :=
          Path.names_ofNames hchildnames
        have hchildnormal := Path.isNormal_ofNames hchildnames
        have hbegins : names (Path.ofNames (names path ++ [name])) <+: names q := by
          rw [hchild, ← hrest]
          exact ⟨rest, by simp⟩
        have hchildhas : tree.has (Path.ofNames (names path ++ [name])) = true :=
          h.has_of_isWithin hq hchildnormal ((hqnormal.isWithin_iff hchildnormal).mpr hbegins)
        refine .inr ⟨Path.ofNames (names path ++ [name]), h.mem_childrenAt_iff.mpr ⟨?_, hchildhas, ?_⟩,
          (ih hchildhas hchildnormal).mpr ⟨hq, hbegins, ?_⟩⟩
        · exact Path.ofNames_concat_ne_root hchildnames
        · rw [Path.parent_ofNames hchildnames, List.dropLast_concat, hnormal.ofNames_names]
        · rw [hchild, List.length_append, List.length_singleton]
          omega

/-- The walk to a depth is in the order of lists of names. -/
theorem WellFormed.descend_ordered {depth : Nat} {path : Text} (hpath : tree.has path = true) :
    (tree.descend depth path).Pairwise Precedes := by
  induction depth generalizing path with
  | zero => exact List.pairwise_singleton _ _
  | succ depth ih =>
    have hdescend : tree.descend (depth + 1) path
        = path :: (tree.childrenAt path).flatMap (tree.descend depth) := rfl
    -- whatever the walk comes to below a child begins with the names of the child
    have hbelow : ∀ child ∈ tree.childrenAt path, ∀ q ∈ tree.descend depth child,
        ∃ name rest, names child = names path ++ [name] ∧ names q = names path ++ name :: rest := by
      intro child hchild q hq
      obtain ⟨name, hname⟩ := h.exists_name_of_mem_childrenAt hchild
      obtain ⟨-, ⟨rest, hrest⟩, -⟩ := (h.mem_descend_iff (h.mem_childrenAt_iff.mp hchild).2.1).mp hq
      exact ⟨name, rest, hname, by rw [← hrest, hname, List.append_assoc, List.singleton_append]⟩
    rw [hdescend, List.pairwise_cons, List.pairwise_flatMap]
    refine ⟨fun q hq => ?_, fun child hchild => ih (h.mem_childrenAt_iff.mp hchild).2.1, ?_⟩
    · -- the path itself has fewer names than what is below it
      obtain ⟨child, hchild, hq⟩ := List.mem_flatMap.mp hq
      obtain ⟨name, rest, -, hnames⟩ := hbelow child hchild q hq
      unfold Precedes
      rw [hnames]
      exact compare_append_cons _ _ _
    · -- below different children the names of the children decide
      refine (h.childrenAt_ordered path).imp_of_mem fun {a b} ha hb hab x hx y hy => ?_
      obtain ⟨m, restx, hma, hmx⟩ := hbelow a ha x hx
      obtain ⟨n, resty, hnb, hny⟩ := hbelow b hb y hy
      unfold Precedes at hab ⊢
      rw [hma, hnb, compare_append_left, List.compare_cons_cons] at hab
      rw [hmx, hny, compare_append_left, List.compare_cons_cons]
      cases hcompare : compare m n <;> simp_all

/-! ## §4. The whole walk -/

/-- A walk visits the paths within its start. -/
theorem WellFormed.mem_subtree_iff {path q : Text} (hpath : tree.has path = true) :
    q ∈ tree.subtree path ↔ tree.has q = true ∧ Path.isWithin q path = true := by
  unfold subtree
  rw [h.mem_descend_iff hpath]
  constructor
  · rintro ⟨hq, hbegins, -⟩
    exact ⟨hq, ((h.grounded.isNormal q hq).isWithin_iff (h.grounded.isNormal path hpath)).mpr hbegins⟩
  · rintro ⟨hq, hwithin⟩
    have hlen := h.length_names_lt_size hq
    exact ⟨hq, ((h.grounded.isNormal q hq).isWithin_iff (h.grounded.isNormal path hpath)).mp hwithin,
      by omega⟩

/-- A walk is in the order of lists of names. -/
theorem WellFormed.subtree_ordered {path : Text} (hpath : tree.has path = true) :
    (tree.subtree path).Pairwise Precedes :=
  h.descend_ordered hpath

theorem WellFormed.subtree_nodup {path : Text} (hpath : tree.has path = true) :
    (tree.subtree path).Nodup :=
  (h.subtree_ordered hpath).imp Precedes.ne

/-- A walk comes to every path but the first one behind its directory. -/
theorem WellFormed.parent_mem_of_subtree_eq {path q : Text} {before behind : List Text}
    (hpath : tree.has path = true) (hsplit : tree.subtree path = before ++ q :: behind)
    (hne : q ≠ path) : Path.parent q ∈ before := by
  have hq : q ∈ tree.subtree path := by rw [hsplit]; simp
  obtain ⟨hqhas, hwithin⟩ := (h.mem_subtree_iff hpath).mp hq
  have hnormal := h.grounded.isNormal path hpath
  have hqnormal := h.grounded.isNormal q hqhas
  have hqroot : q ≠ Path.root := by
    rintro rfl
    exact hne (hqnormal.eq_of_isWithin hnormal hwithin (Path.isWithin_root path))
  have hmem : Path.parent q ∈ tree.subtree path :=
    (h.mem_subtree_iff hpath).mpr ⟨has_of_bare (h.grounded.parent_bare q hqhas hqroot),
      hqnormal.isWithin_parent hnormal hwithin hne⟩
  have hprecedes : Precedes (Path.parent q) q := precedes_parent hqnormal hqroot
  -- behind `q` there are only paths that `q` precedes
  have hordered := h.subtree_ordered hpath
  rw [hsplit, List.pairwise_append, List.pairwise_cons] at hordered
  rw [hsplit, List.mem_append, List.mem_cons] at hmem
  rcases hmem with hmem | heq | hmem
  · exact hmem
  · exact absurd heq hprecedes.ne
  · exact absurd (hordered.2.1.1 _ hmem) hprecedes.asymm

end WellFormed

end LivePreview.Tree
