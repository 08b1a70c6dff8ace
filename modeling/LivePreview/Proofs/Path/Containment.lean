/-
  LivePreview.Proofs.Path.Containment
  ───────────────────────────────────
  **Going up, and the notions of containment that have to agree with it.**

  Whether a path lies in a directory can be asked in three ways: of the two texts
  (`isWithin`), of the directories that the path comes by on the way up to the root
  (`ancestors`), and of the lists of names.  On paths in normal form the answers agree
  (`containment_agrees`), also for names that begin alike and for the root.

  The way up is a loop that goes on until it comes to the root.  It is a relation here
  (`Climbs`), in which a way exists only if the loop ends.  From a path in normal form
  there is exactly one way, because every round takes a name off:

      Climbs path above  ↔  above = (ancestors path).reverse

  The last round can be undone: a path is its name, joined to its parent
  (`join_parent_baseName`).
-/
import Mathlib.Data.List.Chain
import LivePreview.Proofs.Path.Ancestry

namespace LivePreview.Path

/-! ## §1. The way up -/

/-- Going up from a path, one directory at a time, comes by the given directories, the nearest one
first, and ends at the root. -/
inductive Climbs : Text → List Text → Prop
  | arrived : Climbs root []
  | up {path : Text} {above : List Text} (hroot : path ≠ root) (hrest : Climbs (parent path) above) :
      Climbs path (parent path :: above)

/-- There is no second way up. -/
theorem Climbs.unique {path : Text} {above other : List Text} (h : Climbs path above)
    (hother : Climbs path other) : above = other := by
  induction h generalizing other with
  | arrived =>
    cases hother with
    | arrived => rfl
    | up hroot _ => exact absurd rfl hroot
  | up hroot _ ih =>
    cases hother with
    | arrived => exact absurd rfl hroot
    | up _ hrest => rw [ih hrest]

/-- **The way up comes to its end**: with as many rounds as there are names it is at the root. -/
theorem IsNormal.climbs_parentsUpTo {path : Text} (h : IsNormal path) {rounds : Nat}
    (hrounds : (names path).length ≤ rounds) : Climbs path (parentsUpTo rounds path) := by
  -- the induction is on the rounds; each of them takes one name off
  induction rounds generalizing path with
  | zero =>
    have hnil : names path = [] := List.length_eq_zero_iff.mp (by omega)
    rw [h.names_eq_nil_iff.mp hnil]
    exact .arrived
  | succ rounds ih =>
    unfold parentsUpTo
    by_cases hroot : path = root
    · rw [if_pos hroot, hroot]
      exact .arrived
    · have hparent : (names (Path.parent path)).length ≤ rounds := by
        rw [h.names_parent, List.length_dropLast]
        omega
      rw [if_neg hroot]
      exact .up hroot (ih h.parent hparent)

theorem IsNormal.climbs_iff {path : Text} (h : IsNormal path) (above : List Text) :
    Climbs path above ↔ above = (ancestors path).reverse := by
  have hclimbs : Climbs path (ancestors path).reverse := by
    unfold ancestors
    rw [List.reverse_reverse]
    exact h.climbs_parentsUpTo (Nat.le_succ_of_le h.length_names_le)
  constructor
  · intro hother
    exact hother.unique hclimbs
  · intro heq
    rw [heq]
    exact hclimbs

/-- On the way up each directory is the parent of the one before it. -/
theorem Climbs.isChain {path : Text} {above : List Text} (h : Climbs path above) :
    (path :: above).IsChain fun child directory => directory = parent child := by
  induction h with
  | arrived => exact .singleton root
  | up hroot _ ih => exact .cons_cons rfl ih

/-- From the root down to the path each directory is the parent of what follows. -/
theorem IsNormal.isChain_ancestors {path : Text} (h : IsNormal path) :
    (ancestors path ++ [path]).IsChain fun directory child => directory = Path.parent child := by
  have hchain := ((h.climbs_iff _).mpr rfl).isChain
  rw [← List.isChain_reverse, List.reverse_append, List.reverse_singleton, List.singleton_append]
  exact hchain

/-- The ancestors of a path are the paths of all proper prefixes of its names, the root first. -/
theorem IsNormal.ancestors_eq_inits {path : Text} (h : IsNormal path) :
    ancestors path = (names path).inits.dropLast.map ofNames := by
  have hinits : (names path).inits.dropLast
      = (List.range (names path).length).map fun n => (names path).take n := by
    refine List.ext_getElem (by simp) fun n hn hn' => ?_
    simp
  rw [h.ancestors_eq, hinits, List.map_map]
  rfl

/-! ## §2. Parents and names -/

/-- What stands behind a slash and holds none is the last segment. -/
theorem afterLastSlash_append {name : List CodePoint} (hname : slash ∉ name) (front : List CodePoint) :
    afterLastSlash (front ++ slash :: name) = name := by
  have hall : ∀ point ∈ name.reverse, (point != slash) = true := by
    intro point hpoint
    rw [bne_iff_ne]
    rintro rfl
    exact hname (List.mem_reverse.mp hpoint)
  unfold afterLastSlash
  rw [List.reverse_append, List.reverse_cons, List.append_assoc, List.takeWhile_append_of_pos hall]
  simp

/-- A text behind a directory in normal form. -/
theorem append_of_head?_ne_slash {directory : Text} (h : IsNormal directory) {points : List CodePoint}
    (hhead : points.head? ≠ some slash) :
    append directory.points points = trail (names directory) ++ slash :: points := by
  unfold append
  rw [if_neg hhead]
  by_cases hroot : directory = root
  · subst hroot
    rfl
  · have htrail := h.points_eq_trail hroot
    have hne : names directory ≠ [] := fun hnil => hroot (h.names_eq_nil_iff.mp hnil)
    obtain ⟨front, name, hnames⟩ := (List.eq_nil_or_concat' (names directory)).resolve_left hne
    obtain ⟨start, last, rfl, hlast⟩ :=
      (areNames_names directory name (hnames ▸ by simp)).exists_concat
    -- the directory ends in its last name, and not in a slash
    have hend : directory.points = (trail front ++ slash :: start) ++ [last] := by
      rw [htrail, hnames]
      simp
    have hnoslash : (directory.points.isEmpty || decide (directory.points.getLast? = some slash)) = false := by
      rw [hend, List.getLast?_concat]
      simpa using hlast
    rw [hnoslash, if_neg Bool.false_ne_true, htrail]

/-- **A path is its name, joined to its parent.** -/
theorem IsNormal.join_parent_baseName {path : Text} (h : IsNormal path) :
    join (Path.parent path) [baseName path] = path := by
  by_cases hroot : path = root
  · subst hroot
    decide
  · obtain ⟨name, hnames⟩ := h.exists_names_eq_concat hroot
    have hname : IsName name := areNames_names path name (by simp [hnames])
    have hpoints : path.points = trail (names (Path.parent path)) ++ slash :: name := by
      rw [h.points_eq_trail hroot, hnames]
      simp
    have hbase : (baseName path).points = name := by
      show afterLastSlash path.points = name
      rw [hpoints, afterLastSlash_append hname.not_mem_slash]
    have hhead : name.head? ≠ some slash :=
      fun hhead => hname.not_mem_slash (List.mem_of_head? hhead)
    calc join (Path.parent path) [baseName path]
        = normalize ⟨append (Path.parent path).points (baseName path).points⟩ := rfl
      _ = normalize ⟨trail (names (Path.parent path)) ++ slash :: name⟩ := by
          rw [hbase, append_of_head?_ne_slash h.parent hhead]
      _ = normalize path := by rw [← hpoints]
      _ = path := h

/-! ## §3. Agreement -/

/-- **The notions of containment agree.**  A path is within a directory exactly if the names of the
directory begin its own, and exactly if the directory is the path or one of its ancestors.  The ancestors
are what the way up comes by, and it ends; they are the paths of the proper prefixes of the names,
the root first, and each is the parent of the next, the last one that of the path.  And a path is its
name, joined to its parent. -/
theorem containment_agrees {path directory : Text} (hp : IsNormal path) (hd : IsNormal directory) :
    (isWithin path directory = true ↔ names directory <+: names path) ∧
    (isWithin path directory = true ↔ directory = path ∨ directory ∈ ancestors path) ∧
    (∀ above, Climbs path above ↔ above = (ancestors path).reverse) ∧
    ancestors path = (names path).inits.dropLast.map ofNames ∧
    ((ancestors path ++ [path]).IsChain fun above below => above = parent below) ∧
    join (parent path) [baseName path] = path :=
  ⟨hp.isWithin_iff hd, hp.isWithin_iff_mem_ancestors hd, hp.climbs_iff, hp.ancestors_eq_inits,
    hp.isChain_ancestors, hp.join_parent_baseName⟩

/-- A path beside a directory with a name that begins alike. -/
theorem containment_agrees_alike :
    isWithin "/a/bc/d" "/a/b" = false ∧ ("/a/b" : Text) ∉ ancestors "/a/bc/d" ∧
      Climbs "/a/bc/d" ["/a/bc", "/a", "/"] ∧ join (parent "/a/bc/d") [baseName "/a/bc/d"] = "/a/bc/d" := by
  have hpath : IsNormal "/a/bc/d" := by decide
  have hdirectory : IsNormal "/a/b" := by decide
  have hagrees := containment_agrees hpath hdirectory
  have houtside : isWithin "/a/bc/d" "/a/b" = false := by decide
  refine ⟨houtside, fun hmem => ?_, (hagrees.2.2.1 _).mpr (by decide), hagrees.2.2.2.2.2⟩
  rw [hagrees.2.1.mpr (.inr hmem)] at houtside
  cases houtside

end LivePreview.Path
