/-
  LivePreview.Proofs.Path.Ancestry
  ────────────────────────────────
  **Parents, ancestors, containment and relocation, on lists of names.**

  On paths in normal form the functions of `Path.Basic` are list operations:

      names (parent p)       = (names p).dropLast
      ancestors p            = the paths of the proper prefixes of `names p`
      isWithin p d           ↔ names d <+: names p
      names (rebase p o n)   = names n ++ (names p).drop (names o).length

  the last one for a path within a directory other than the root.
-/
import Mathlib.Data.List.Infix
import LivePreview.Proofs.Path.Names

namespace LivePreview.Path

open LivePreview.Text (dropEndWhile)

/-! ## §1. Dropping from the end -/

theorem dropEndWhile_append_of_forall {α : Type} {p : α → Bool} {xs ys : List α}
    (h : ∀ y ∈ ys, p y = true) : dropEndWhile p (xs ++ ys) = dropEndWhile p xs := by
  unfold dropEndWhile
  rw [List.reverse_append, List.dropWhile_append_of_pos (by simpa using h)]

theorem dropEndWhile_concat {α : Type} {p : α → Bool} {xs : List α} {x : α}
    (h : p x = false) : dropEndWhile p (xs ++ [x]) = xs ++ [x] := by
  unfold dropEndWhile
  rw [List.reverse_concat, List.dropWhile_cons_of_neg (by simp [h])]
  simp

/-- A name ends in a code point other than the slash. -/
theorem IsName.exists_concat {segment : List CodePoint} (h : IsName segment) :
    ∃ front last, segment = front ++ [last] ∧ (last == slash) = false := by
  obtain ⟨front, last, rfl⟩ := (List.eq_nil_or_concat' segment).resolve_left h.1
  refine ⟨front, last, rfl, beq_eq_false_iff_ne.mpr ?_⟩
  rintro rfl
  exact h.not_mem_slash (by simp)

/-- The slashes at the end of a trail of names that is not empty are none. -/
theorem dropEndWhile_slash_trail {segs : List (List CodePoint)} (h : AreNames segs) :
    dropEndWhile (· == slash) (trail segs) = trail segs := by
  obtain rfl | ⟨front, name, rfl⟩ := List.eq_nil_or_concat' segs
  · rfl
  · obtain ⟨start, last, rfl, hlast⟩ := (h name (by simp)).exists_concat
    have hend : trail (front ++ [start ++ [last]])
        = (trail front ++ slash :: start) ++ [last] := by simp
    rw [hend]
    exact dropEndWhile_concat hlast

/-- A proper prefix leaves the last element out. -/
theorem prefix_dropLast_of_ne {α : Type} {xs ys : List α} (h : xs <+: ys) (hne : xs ≠ ys) :
    xs <+: ys.dropLast := by
  obtain rfl | ⟨front, last, rfl⟩ := List.eq_nil_or_concat' ys
  · exact h
  · rw [List.dropLast_concat]
    exact (List.prefix_concat_iff.mp h).resolve_left hne

/-! ## §2. Parents -/

theorem upToLastSlash_trail_concat {segs : List (List CodePoint)} {name : List CodePoint}
    (h : IsName name) : upToLastSlash (trail (segs ++ [name])) = trail segs ++ [slash] := by
  have hend : trail (segs ++ [name]) = (trail segs ++ [slash]) ++ name := by simp
  have hname : ∀ point ∈ name, (point != slash) = true := by
    intro point hpoint
    rw [bne_iff_ne]
    rintro rfl
    exact h.not_mem_slash hpoint
  unfold upToLastSlash
  rw [hend, dropEndWhile_append_of_forall hname]
  exact dropEndWhile_concat (by simp)

/-- A trail of names that is not empty holds more than slashes. -/
theorem all_slash_trail_concat {segs : List (List CodePoint)} (h : AreNames segs)
    (hne : segs ≠ []) : (trail segs ++ [slash]).all (· == slash) = false := by
  obtain ⟨front, name, rfl⟩ := (List.eq_nil_or_concat' segs).resolve_left hne
  obtain ⟨start, last, rfl, hlast⟩ := (h name (by simp)).exists_concat
  rw [List.all_eq_false]
  exact ⟨last, by simp, by simp [hlast]⟩

theorem ofNames_concat_ne_root {segs : List (List CodePoint)} {name : List CodePoint}
    (h : AreNames (segs ++ [name])) : ofNames (segs ++ [name]) ≠ root := by
  intro heq
  have hnames := names_ofNames h
  rw [heq, names_root] at hnames
  simp at hnames

/-- The parent of a path loses the last name. -/
theorem parent_ofNames {segs : List (List CodePoint)} (h : AreNames segs) :
    parent (ofNames segs) = ofNames segs.dropLast := by
  obtain rfl | ⟨front, name, rfl⟩ := List.eq_nil_or_concat' segs
  · decide
  · have hname : IsName name := h name (by simp)
    have hfront : AreNames front := (areNames_append.mp h).1
    have hpoints : (ofNames (front ++ [name])).points = trail (front ++ [name]) :=
      ofSegments_eq_trail (by simp)
    unfold parent
    simp only [hpoints, upToLastSlash_trail_concat hname, ofNames_concat_ne_root h, false_or,
      List.dropLast_concat]
    by_cases hnil : front = []
    · -- `/name` keeps its slash, which is then all that is left.
      subst hnil
      decide
    · have hall := all_slash_trail_concat hfront hnil
      have hdrop : dropEndWhile (· == slash) (trail front ++ [slash]) = trail front := by
        rw [dropEndWhile_append_of_forall (by simp), dropEndWhile_slash_trail hfront]
      have hne : trail front ≠ [] := by
        cases front with
        | nil => exact absurd rfl hnil
        | cons _ _ => simp
      rw [hall, hdrop]
      simp [hne, ofNames, ofSegments_eq_trail hnil]

/-- The parent of a path in normal form is in normal form. -/
theorem IsNormal.parent {path : Text} (h : IsNormal path) : IsNormal (parent path) := by
  rw [← h.ofNames_names, parent_ofNames (areNames_names path)]
  exact isNormal_ofNames ((areNames_names path).of_subset (List.dropLast_subset _))

theorem IsNormal.names_parent {path : Text} (h : IsNormal path) :
    names (Path.parent path) = (names path).dropLast := by
  have hparent := parent_ofNames (areNames_names path)
  rw [h.ofNames_names] at hparent
  rw [hparent]
  exact names_ofNames ((areNames_names path).of_subset (List.dropLast_subset _))

/-- A path other than the root has one name more than its parent. -/
theorem IsNormal.exists_names_eq_concat {path : Text} (h : IsNormal path) (hroot : path ≠ root) :
    ∃ name, names path = names (Path.parent path) ++ [name] := by
  rw [h.names_parent]
  obtain hnil | ⟨front, name, hnames⟩ := List.eq_nil_or_concat' (names path)
  · exact absurd (h.names_eq_nil_iff.mp hnil) hroot
  · exact ⟨name, by rw [hnames, List.dropLast_concat]⟩

/-- No path in normal form but the root is its own parent. -/
theorem IsNormal.parent_ne {path : Text} (h : IsNormal path) (hroot : path ≠ root) :
    Path.parent path ≠ path := by
  intro heq
  obtain ⟨name, hname⟩ := h.exists_names_eq_concat hroot
  rw [heq] at hname
  simp at hname

/-! ## §3. Ancestors -/

theorem length_le_length_trail (segs : List (List CodePoint)) :
    segs.length ≤ (trail segs).length := by
  induction segs with
  | nil => simp
  | cons segment segs ih => simp; omega

/-- Every name takes at least one code point of the path. -/
theorem IsNormal.length_names_le {path : Text} (h : IsNormal path) :
    (names path).length ≤ path.length := by
  by_cases hnil : names path = []
  · simp [hnil]
  · have htrail := length_le_length_trail (names path)
    rw [← ofSegments_eq_trail hnil] at htrail
    have hpath : (ofSegments (names path)).length = path.length :=
      congrArg Text.length h.ofNames_names
    omega

/-- With fuel enough, the parents of a path are the paths of its proper prefixes. -/
theorem parentsUpTo_ofNames {fuel : Nat} {segs : List (List CodePoint)} (h : AreNames segs)
    (hfuel : segs.length ≤ fuel) :
    parentsUpTo fuel (ofNames segs)
      = ((List.range segs.length).map fun n => ofNames (segs.take n)).reverse := by
  induction fuel generalizing segs with
  | zero =>
    have hnil : segs = [] := List.length_eq_zero_iff.mp (by omega)
    subst hnil
    rfl
  | succ fuel ih =>
    obtain rfl | ⟨front, name, rfl⟩ := List.eq_nil_or_concat' segs
    · simp [parentsUpTo]
    · have hfront : AreNames front := (areNames_append.mp h).1
      -- the parent has the same proper prefixes, and is itself the longest of them
      have htake : ∀ n ∈ List.range front.length,
          ofNames ((front ++ [name]).take n) = ofNames (front.take n) := by
        intro n hn
        rw [List.take_append_of_le_length (List.mem_range.mp hn).le]
      rw [parentsUpTo, if_neg (ofNames_concat_ne_root h), parent_ofNames h, List.dropLast_concat,
        ih hfront (by simp at hfuel; omega), List.length_append, List.length_singleton,
        List.range_succ, List.map_append, List.reverse_append, List.map_congr_left htake]
      simp

/-- The ancestors of a path are the paths of the proper prefixes of its names, the root first. -/
theorem IsNormal.ancestors_eq {path : Text} (h : IsNormal path) :
    ancestors path
      = (List.range (names path).length).map fun n => ofNames ((names path).take n) := by
  have hfuel : (names path).length ≤ path.length + 1 := Nat.le_succ_of_le h.length_names_le
  unfold ancestors
  rw [List.reverse_eq_iff, ← parentsUpTo_ofNames (areNames_names path) hfuel, h.ofNames_names]

/-- A proper prefix of the names makes an ancestor, and nothing else does. -/
theorem IsNormal.mem_ancestors_iff {path ancestor : Text} (h : IsNormal path) :
    ancestor ∈ ancestors path
      ↔ IsNormal ancestor ∧ names ancestor <+: names path ∧ names ancestor ≠ names path := by
  rw [h.ancestors_eq, List.mem_map]
  constructor
  · rintro ⟨n, hn, rfl⟩
    have hn : n < (names path).length := List.mem_range.mp hn
    have htake : AreNames ((names path).take n) :=
      (areNames_names path).of_subset (List.take_subset _ _)
    rw [names_ofNames htake]
    refine ⟨isNormal_ofNames htake, List.take_prefix _ _, fun heq => ?_⟩
    have := congrArg List.length heq
    rw [List.length_take] at this
    omega
  · rintro ⟨hancestor, hbegins, hne⟩
    have hlt : (names ancestor).length < (names path).length :=
      Nat.lt_of_le_of_ne hbegins.length_le fun heq => hne (hbegins.eq_of_length heq)
    refine ⟨(names ancestor).length, List.mem_range.mpr hlt, ?_⟩
    rw [← List.prefix_iff_eq_take.mp hbegins, hancestor.ofNames_names]

/-! ## §4. Containment -/

/-- Names in front of a slash can be read off a text. -/
theorem eq_and_prefix_of_append_slash {xs ys as bs : List CodePoint} (hxs : slash ∉ xs)
    (hys : slash ∉ ys) (hbs : ∀ b ∈ bs.head?, b = slash)
    (h : xs ++ slash :: as <+: ys ++ bs) : xs = ys ∧ slash :: as <+: bs := by
  -- where one of the two has ended, the other would have to go on with a slash
  induction xs generalizing ys with
  | nil =>
    cases ys with
    | nil => exact ⟨rfl, h⟩
    | cons y ys =>
      obtain ⟨rfl, -⟩ := List.cons_prefix_cons.mp h
      exact absurd List.mem_cons_self hys
  | cons x xs ih =>
    cases ys with
    | nil =>
      cases bs with
      | nil => simp at h
      | cons b bs =>
        obtain ⟨rfl, -⟩ := List.cons_prefix_cons.mp h
        exact absurd (hbs x rfl ▸ List.mem_cons_self) hxs
    | cons y ys =>
      obtain ⟨rfl, htail⟩ := List.cons_prefix_cons.mp h
      obtain ⟨rfl, hrest⟩ := ih (fun hmem => hxs (List.mem_cons_of_mem _ hmem))
        (fun hmem => hys (List.mem_cons_of_mem _ hmem)) htail
      exact ⟨rfl, hrest⟩

theorem head?_trail (segs : List (List CodePoint)) : ∀ b ∈ (trail segs).head?, b = slash := by
  cases segs with
  | nil => simp
  | cons segment segs => simp [eq_comm]

/-- A trail with a slash behind it begins another one exactly if its names properly begin those
of the other. -/
theorem trail_slash_prefix_iff {ds ps : List (List CodePoint)} (hds : AreNames ds)
    (hps : AreNames ps) : trail ds ++ [slash] <+: trail ps ↔ ds <+: ps ∧ ds ≠ ps := by
  induction ds generalizing ps with
  | nil =>
    cases ps with
    | nil => simp
    | cons p ps => simp
  | cons d ds ih =>
    cases ps with
    | nil => simp
    | cons p ps =>
      have hd := (hds d List.mem_cons_self).not_mem_slash
      have hp := (hps p List.mem_cons_self).not_mem_slash
      have ih := ih (hds.of_subset (List.subset_cons_self _ _))
        (hps.of_subset (List.subset_cons_self _ _))
      -- what is behind the first name begins with a slash on both sides
      have hslash : ∃ as, trail ds ++ [slash] = slash :: as := by
        cases ds with
        | nil => exact ⟨[], rfl⟩
        | cons e ds => exact ⟨e ++ trail ds ++ [slash], by simp⟩
      obtain ⟨as, has⟩ := hslash
      rw [has] at ih
      have hleft : trail (d :: ds) ++ [slash] = slash :: (d ++ slash :: as) := by
        simp [← has]
      rw [hleft, trail_cons, List.cons_append, List.cons_prefix_cons, List.cons_prefix_cons]
      constructor
      · rintro ⟨-, h⟩
        obtain ⟨rfl, hrest⟩ := eq_and_prefix_of_append_slash hd hp (head?_trail ps) h
        obtain ⟨hbegins, hne⟩ := ih.mp hrest
        exact ⟨⟨rfl, hbegins⟩, by simpa using hne⟩
      · rintro ⟨⟨rfl, hbegins⟩, hne⟩
        exact ⟨rfl, (List.prefix_append_right_inj d).mpr (ih.mpr ⟨hbegins, by simpa using hne⟩)⟩

/-- Containment is the prefix order on lists of names. -/
theorem IsNormal.isWithin_iff {path directory : Text} (hp : IsNormal path)
    (hd : IsNormal directory) : isWithin path directory = true ↔ names directory <+: names path := by
  unfold isWithin
  by_cases hroot : directory = root
  · subst hroot
    simp
  · have hdne : names directory ≠ [] := fun hnil => hroot (hd.names_eq_nil_iff.mp hnil)
    have hdpoints := hd.points_eq_trail hroot
    have heq : path = directory ↔ names directory = names path :=
      ⟨fun h => by rw [h], fun h => hp.ext hd h.symm⟩
    by_cases hpath : path = root
    · -- the root is too short to have a directory and a slash in front
      subst hpath
      have hpre : (directory.points ++ [slash]).isPrefixOf root.points = false := by
        rw [Bool.eq_false_iff, ne_eq, List.isPrefixOf_iff_prefix, hdpoints]
        intro h
        have := h.length_le
        have htrail := length_le_length_trail (names directory)
        have hpos := List.length_pos_iff.mpr hdne
        have hone : root.points.length = 1 := rfl
        rw [List.length_append, List.length_singleton] at this
        omega
      simp [hpre, hroot, hdne, Ne.symm hroot]
    · have hppoints := hp.points_eq_trail hpath
      simp only [Bool.or_eq_true, beq_iff_eq, hroot, false_or, List.isPrefixOf_iff_prefix,
        hdpoints, hppoints, trail_slash_prefix_iff (areNames_names directory)
          (areNames_names path), heq]
      constructor
      · rintro (h | h)
        · rw [h]
        · exact h.1
      · intro h
        exact (em (names directory = names path)).imp id fun hne => ⟨h, hne⟩

/-- Everything is within the root. -/
theorem isWithin_root (path : Text) : isWithin path root = true := by
  simp [isWithin]

theorem IsNormal.isWithin_self {path : Text} (h : IsNormal path) : isWithin path path = true :=
  (h.isWithin_iff h).mpr List.prefix_rfl

/-- The ancestors of a path are the other directories that it is within. -/
theorem IsNormal.isWithin_of_mem_ancestors {path ancestor : Text} (h : IsNormal path)
    (hmem : ancestor ∈ ancestors path) : isWithin path ancestor = true :=
  have hancestor := h.mem_ancestors_iff.mp hmem
  (h.isWithin_iff hancestor.1).mpr hancestor.2.1

/-- No ancestor of a path is within it. -/
theorem IsNormal.not_within_of_mem_ancestors {path ancestor : Text} (h : IsNormal path)
    (hmem : ancestor ∈ ancestors path) : isWithin ancestor path = false := by
  obtain ⟨hnormal, hbegins, hne⟩ := h.mem_ancestors_iff.mp hmem
  rw [Bool.eq_false_iff]
  intro hwithin
  have hback := (hnormal.isWithin_iff h).mp hwithin
  exact hne (hbegins.eq_of_length (Nat.le_antisymm hbegins.length_le hback.length_le))

theorem IsNormal.isWithin_trans {path middle directory : Text} (hp : IsNormal path)
    (hm : IsNormal middle) (hd : IsNormal directory) (hpm : isWithin path middle = true)
    (hmd : isWithin middle directory = true) : isWithin path directory = true := by
  rw [hp.isWithin_iff hm] at hpm
  rw [hm.isWithin_iff hd] at hmd
  exact (hp.isWithin_iff hd).mpr (hmd.trans hpm)

/-- Two paths within each other are one. -/
theorem IsNormal.eq_of_isWithin {path directory : Text} (hp : IsNormal path)
    (hd : IsNormal directory) (hpd : isWithin path directory = true)
    (hdp : isWithin directory path = true) : path = directory := by
  rw [hp.isWithin_iff hd] at hpd
  rw [hd.isWithin_iff hp] at hdp
  exact hp.ext hd (hdp.eq_of_length (Nat.le_antisymm hdp.length_le hpd.length_le))

theorem IsNormal.isWithin_parent_self {path : Text} (h : IsNormal path) :
    isWithin path (Path.parent path) = true := by
  rw [h.isWithin_iff h.parent, h.names_parent]
  exact List.dropLast_prefix _

/-- The directory of a path within another one, and different from it, is within that one. -/
theorem IsNormal.isWithin_parent {path directory : Text} (hp : IsNormal path)
    (hd : IsNormal directory) (hwithin : isWithin path directory = true) (hne : path ≠ directory) :
    isWithin (Path.parent path) directory = true := by
  rw [hp.isWithin_iff hd] at hwithin
  rw [hp.parent.isWithin_iff hd, hp.names_parent]
  exact prefix_dropLast_of_ne hwithin fun heq => hne (hp.ext hd heq.symm)

/-- The directory that a path lies in is one of its ancestors. -/
theorem IsNormal.parent_mem_ancestors {path : Text} (h : IsNormal path) (hroot : path ≠ root) :
    Path.parent path ∈ ancestors path := by
  refine h.mem_ancestors_iff.mpr ⟨h.parent, ?_, fun heq => h.parent_ne hroot (h.parent.ext h heq)⟩
  exact (h.isWithin_iff h.parent).mp h.isWithin_parent_self

/-- A path is within a directory exactly if it is that directory or has it above itself. -/
theorem IsNormal.isWithin_iff_mem_ancestors {path directory : Text} (hp : IsNormal path)
    (hd : IsNormal directory) :
    isWithin path directory = true ↔ directory = path ∨ directory ∈ ancestors path := by
  constructor
  · intro hwithin
    by_cases heq : directory = path
    · exact .inl heq
    · exact .inr (hp.mem_ancestors_iff.mpr
        ⟨hd, (hp.isWithin_iff hd).mp hwithin, fun hnames => heq (hd.ext hp hnames)⟩)
  · rintro (rfl | hmem)
    · exact hd.isWithin_self
    · exact hp.isWithin_of_mem_ancestors hmem

section Inside

variable {path old : Text} (hroot : old ≠ root) (hne : path ≠ old) (hwithin : isWithin path old = true)
include hroot hne hwithin

/-- A path within a directory, and different from it, has the directory and a slash in front. -/
theorem prefix_of_isWithin : old.points ++ [slash] <+: path.points := by
  unfold isWithin at hwithin
  rw [Bool.or_eq_true, Bool.or_eq_true, beq_iff_eq, beq_iff_eq, List.isPrefixOf_iff_prefix] at hwithin
  rcases hwithin with (heq | heq) | hbegins
  · exact absurd heq hroot
  · exact absurd heq hne
  · exact hbegins

theorem length_lt_of_isWithin : old.length < path.length := by
  have hlength := (prefix_of_isWithin hroot hne hwithin).length_le
  rw [List.length_append, List.length_singleton] at hlength
  exact hlength

/-- So it has with more behind it. -/
theorem isWithin_append (more : Text) : isWithin (path ++ more) old = true := by
  have hbegins : old.points ++ [slash] <+: path.points ++ more.points :=
    (prefix_of_isWithin hroot hne hwithin).trans (List.prefix_append _ _)
  unfold isWithin
  rw [Bool.or_eq_true]
  exact .inr (List.isPrefixOf_iff_prefix.mpr hbegins)

end Inside

/-! ## §5. Relocation -/

/-- Only the root has a slash at its end. -/
theorem IsNormal.dropEndWhile_points {path : Text} (h : IsNormal path) :
    dropEndWhile (· == slash) path.points = trail (names path) := by
  by_cases hroot : path = root
  · subst hroot
    decide
  · rw [h.points_eq_trail hroot, dropEndWhile_slash_trail (areNames_names path)]

/-- A path within a directory other than the root takes the names behind those of the directory
along. -/
theorem rebase_ofNames {olds news rest : List (List CodePoint)} (holds : AreNames (olds ++ rest))
    (hnews : AreNames news) (hne : olds ≠ []) :
    rebase (ofNames (olds ++ rest)) (ofNames olds) (ofNames news) = ofNames (news ++ rest) := by
  have hold : AreNames olds := (areNames_append.mp holds).1
  unfold rebase
  by_cases hrest : rest = []
  · subst hrest
    simp
  · have hpath : ofNames (olds ++ rest) ≠ ofNames olds := by
      intro heq
      have := congrArg names heq
      rw [names_ofNames holds, names_ofNames hold] at this
      exact hrest (by simpa using this)
    have hdrop : (ofNames (olds ++ rest)).points.drop (ofNames olds).length = trail rest := by
      have hfull : (ofNames (olds ++ rest)).points = trail olds ++ trail rest := by
        rw [← trail_append]
        exact ofSegments_eq_trail (by simp [hne])
      have hlen : (ofNames olds).length = (trail olds).length :=
        congrArg List.length (ofSegments_eq_trail hne)
      rw [hfull, hlen, List.drop_left]
    have hstem : dropEndWhile (· == slash) (ofNames news).points = trail news := by
      rw [(isNormal_ofNames hnews).dropEndWhile_points, names_ofNames hnews]
    rw [if_neg hpath, hdrop, hstem, ← trail_append]
    exact (congrArg Text.mk (ofSegments_eq_trail (by simp [hrest]))).symm

section Rebase

variable {path old new : Text}

theorem areNames_rebase : AreNames (names new ++ (names path).drop (names old).length) :=
  areNames_append.mpr
    ⟨areNames_names new, (areNames_names path).of_subset (List.drop_subset _ _)⟩

variable (hp : IsNormal path) (ho : IsNormal old) (hn : IsNormal new) (hroot : old ≠ root)
  (hwithin : isWithin path old = true)
include hp ho hn hroot hwithin

theorem rebase_eq_ofNames :
    rebase path old new = ofNames (names new ++ (names path).drop (names old).length) := by
  obtain ⟨rest, hrest⟩ := (hp.isWithin_iff ho).mp hwithin
  have hne : names old ≠ [] := fun hnil => hroot (ho.names_eq_nil_iff.mp hnil)
  have hnames : AreNames (names old ++ rest) := hrest ▸ areNames_names path
  have h := rebase_ofNames hnames (areNames_names new) hne
  rw [hrest, hp.ofNames_names, ho.ofNames_names, hn.ofNames_names] at h
  rw [h, ← hrest, List.drop_left]

theorem isNormal_rebase : IsNormal (rebase path old new) := by
  rw [rebase_eq_ofNames hp ho hn hroot hwithin]
  exact isNormal_ofNames areNames_rebase

theorem names_rebase :
    names (rebase path old new) = names new ++ (names path).drop (names old).length := by
  rw [rebase_eq_ofNames hp ho hn hroot hwithin]
  exact names_ofNames areNames_rebase

/-- What is moved lies within the new directory. -/
theorem isWithin_rebase : isWithin (rebase path old new) new = true := by
  rw [(isNormal_rebase hp ho hn hroot hwithin).isWithin_iff hn, names_rebase hp ho hn hroot hwithin]
  exact List.prefix_append _ _

omit hp hwithin in
/-- Different paths are moved to different places. -/
theorem rebase_injective {p q : Text} (hp : IsNormal p) (hq : IsNormal q)
    (hpold : isWithin p old = true) (hqold : isWithin q old = true)
    (heq : rebase p old new = rebase q old new) : p = q := by
  have hnames := congrArg names heq
  rw [names_rebase hp ho hn hroot hpold, names_rebase hq ho hn hroot hqold] at hnames
  obtain ⟨restp, hrestp⟩ := (hp.isWithin_iff ho).mp hpold
  obtain ⟨restq, hrestq⟩ := (hq.isWithin_iff ho).mp hqold
  rw [← hrestp, ← hrestq, List.drop_left, List.drop_left] at hnames
  refine hp.ext hq ?_
  rw [← hrestp, ← hrestq, List.append_cancel_left hnames]

/-- Moving a path there and back leads to where it was. -/
theorem rebase_rebase (hnewroot : new ≠ root) :
    rebase (rebase path old new) new old = path := by
  have hmoved := isNormal_rebase hp ho hn hroot hwithin
  have hmovedwithin := isWithin_rebase hp ho hn hroot hwithin
  obtain ⟨rest, hrest⟩ := (hp.isWithin_iff ho).mp hwithin
  refine (isNormal_rebase hmoved hn ho hnewroot hmovedwithin).ext hp ?_
  rw [names_rebase hmoved hn ho hnewroot hmovedwithin, names_rebase hp ho hn hroot hwithin,
    List.drop_left, ← hrest, List.drop_left]

/-- The directory of a moved path is its directory, moved. -/
theorem parent_rebase (hne : path ≠ old) :
    parent (rebase path old new) = rebase (parent path) old new := by
  have hparent := hp.isWithin_parent ho hwithin hne
  rw [rebase_eq_ofNames hp ho hn hroot hwithin, rebase_eq_ofNames hp.parent ho hn hroot hparent,
    parent_ofNames areNames_rebase]
  congr 1
  obtain ⟨rest, hrest⟩ := (hp.isWithin_iff ho).mp hwithin
  rw [hp.names_parent, ← hrest, List.drop_left]
  obtain rfl | ⟨front, last, rfl⟩ := List.eq_nil_or_concat' rest
  · rw [List.append_nil] at hrest
    exact absurd (hp.ext ho hrest.symm) hne
  · rw [← List.append_assoc, List.dropLast_concat, ← List.append_assoc, List.dropLast_concat,
      List.drop_left]

end Rebase

end LivePreview.Path
