/-
  LivePreview.Proofs.Path.Rebase
  ──────────────────────────────
  **Where a moved path comes to, the root included.**

  A path within a directory is moved to another one as a text: the new directory, without
  the slash that the root alone has at its end, in front of what is left of the path when
  the old directory is cut off.  What is left starts with a slash, which the two names need
  between them:

      rebase /src/a/b  /src  /lib  =  /lib ++ /a/b
      rebase /src/a/b  /src  /     =       ++ /a/b
      rebase /a/b      /     /lib  =  /lib ++ a/b

  In the last line it does not: the slash of the root is cut off with the root, and the
  last name of the new directory runs into the first one of the path.  This is the only way in
  which a move goes wrong (`rebase_exact`).  A path comes to the right place unless it leaves
  the root, and it comes back unless one of the two directories is the root, since each move
  out of the root loses a slash.
-/
import LivePreview.Proofs.Path.Ancestry

namespace LivePreview.Path

open LivePreview.Text (dropEndWhile)

/-! ## §1. The right place -/

/-- The path `moved` lies in the directory `new` as `path` does in `old`: it is in normal form, and its
names are those of the new directory and then those of the path behind the old directory. -/
structure IsMoved (path old new moved : Text) : Prop where
  isNormal : IsNormal moved
  isWithin : isWithin moved new = true
  names_eq : names moved = names new ++ (names path).drop (names old).length

instance (path old new moved : Text) : Decidable (IsMoved path old new moved) :=
  decidable_of_iff (IsNormal moved ∧ Path.isWithin moved new = true
      ∧ names moved = names new ++ (names path).drop (names old).length)
    ⟨fun h => ⟨h.1, h.2.1, h.2.2⟩, fun h => ⟨h.isNormal, h.isWithin, h.names_eq⟩⟩

variable {path old new : Text}

theorem rebase_self (old new : Text) : rebase old old new = new := by
  unfold rebase
  rw [if_pos rfl]

/-- The directory itself comes to the new one, whatever the two are. -/
theorem isMoved_rebase_self (old : Text) (hn : IsNormal new) : IsMoved old old new (rebase old old new) where
  isNormal := by rwa [rebase_self]
  isWithin := by rw [rebase_self, hn.isWithin_self]
  names_eq := by rw [rebase_self, List.drop_length, List.append_nil]

/-- Out of any directory but the root a path comes to the right place. -/
theorem isMoved_rebase (hp : IsNormal path) (ho : IsNormal old) (hn : IsNormal new) (hroot : old ≠ root)
    (hwithin : isWithin path old = true) : IsMoved path old new (rebase path old new) where
  isNormal := isNormal_rebase hp ho hn hroot hwithin
  isWithin := isWithin_rebase hp ho hn hroot hwithin
  names_eq := names_rebase hp ho hn hroot hwithin

/-! ## §2. Out of the root -/

/-- What is left of a path without the slash at its front starts with a name. -/
theorem IsNormal.exists_points_eq_cons (hp : IsNormal path) (hroot : path ≠ root) :
    ∃ first rest, path.points = slash :: first :: rest ∧ first ≠ slash := by
  have hpoints := hp.points_eq_trail hroot
  cases hnames : names path with
  | nil => exact absurd (hp.names_eq_nil_iff.mp hnames) hroot
  | cons name segs =>
    have hname : IsName name := areNames_names path name (by simp [hnames])
    cases name with
    | nil => exact absurd rfl hname.1
    | cons first name =>
      refine ⟨first, name ++ trail segs, by simp [hpoints, hnames], ?_⟩
      rintro rfl
      exact hname.not_mem_slash List.mem_cons_self

/-- **Out of the root a path comes to no place in the new directory.**  Out of the root into itself it
loses the slash at its front; into another directory, the one between the directory and its name. -/
theorem not_isMoved_rebase_root (hp : IsNormal path) (hn : IsNormal new) (hroot : path ≠ root) :
    ¬ IsMoved path root new (rebase path root new) := by
  intro hmoved
  obtain ⟨first, rest, hpoints, hfirst⟩ := hp.exists_points_eq_cons hroot
  have hrebase : (rebase path root new).points = trail (names new) ++ first :: rest := by
    unfold rebase
    rw [if_neg hroot]
    show dropEndWhile (· == slash) new.points ++ path.points.drop 1 = _
    rw [hn.dropEndWhile_points, hpoints]
    rfl
  by_cases hnew : new = root
  · have hhead := hmoved.isNormal.head?_points
    rw [hrebase, hnew, names_root] at hhead
    exact hfirst (Option.some.inj hhead)
  · have hne : rebase path root new ≠ new := by
      intro heq
      rw [heq, hn.points_eq_trail hnew] at hrebase
      simp at hrebase
    -- within the new directory there would be a slash behind it
    have hbegins := prefix_of_isWithin hnew hne hmoved.isWithin
    rw [hrebase, hn.points_eq_trail hnew, List.prefix_append_right_inj, List.cons_prefix_cons] at hbegins
    exact hfirst hbegins.1.symm

/-! ## §3. There and back -/

/-- A moved path is as long as the new directory, without its slash if it is the root, and what is left
of the path. -/
theorem length_rebase (hn : IsNormal new) (hne : path ≠ old) : (rebase path old new).length
    = (if new = root then 0 else new.length) + (path.length - old.length) := by
  have hstem : (dropEndWhile (· == slash) new.points).length = if new = root then 0 else new.length := by
    rw [hn.dropEndWhile_points]
    by_cases hnew : new = root
    · rw [if_pos hnew, hnew, names_root]
      rfl
    · rw [if_neg hnew, ← hn.points_eq_trail hnew]
      rfl
  unfold rebase
  rw [if_neg hne]
  show (_ ++ _ : List CodePoint).length = _
  rw [List.length_append, List.length_drop, hstem]
  rfl

/-- A path in a directory is longer than the directory. -/
theorem IsNormal.length_lt_of_isWithin (hp : IsNormal path) (hwithin : isWithin path old = true)
    (hne : path ≠ old) : old.length < path.length := by
  by_cases hroot : old = root
  · subst hroot
    obtain ⟨first, rest, hpoints, -⟩ := hp.exists_points_eq_cons hne
    show 1 < path.points.length
    rw [hpoints]
    simp
  · exact Path.length_lt_of_isWithin hroot hne hwithin

/-- Where one of the directories is the root, the way there and back loses a slash. -/
theorem length_rebase_rebase_lt (ho : IsNormal old) (hn : IsNormal new) (hroot : old = root ∨ new = root)
    (hlength : old.length < path.length) (hne : path ≠ old) (hmoved : rebase path old new ≠ new) :
    (rebase (rebase path old new) new old).length < path.length := by
  have hone : root.length = 1 := rfl
  rw [length_rebase ho hmoved, length_rebase hn hne]
  -- what is cut off with the root is one longer than what it leaves in front
  by_cases hold : old = root
  · subst hold
    rw [if_pos rfl]
    split <;> omega
  · have hnew : new = root := hroot.resolve_left hold
    subst hnew
    rw [if_neg hold, if_pos rfl]
    omega

theorem rebase_rebase_ne (ho : IsNormal old) (hn : IsNormal new) (hroot : old = root ∨ new = root)
    (hlength : old.length < path.length) (hne : path ≠ old) : rebase (rebase path old new) new old ≠ path := by
  intro hback
  by_cases hmoved : rebase path old new = new
  · rw [hmoved, rebase_self] at hback
    exact hne hback.symm
  · have hlt := length_rebase_rebase_lt ho hn hroot hlength hne hmoved
    rw [hback] at hlt
    omega

/-! ## §4. When moves are exact -/

/-- **A move is exact unless it leads out of the root.**  For all paths in normal form with the first one
within the old directory: it comes to the right place if and only if it is the old directory itself or
the old directory is not the root, and the move back leads to where it was if and only if it is the old
directory itself or neither of the two directories is the root. -/
theorem rebase_exact (hp : IsNormal path) (ho : IsNormal old) (hn : IsNormal new)
    (hwithin : isWithin path old = true) :
    (IsMoved path old new (rebase path old new) ↔ path = old ∨ old ≠ root) ∧
    (rebase (rebase path old new) new old = path ↔ path = old ∨ old ≠ root ∧ new ≠ root) := by
  by_cases hne : path = old
  · subst hne
    refine ⟨iff_of_true (isMoved_rebase_self path hn) (.inl rfl), iff_of_true ?_ (.inl rfl)⟩
    rw [rebase_self, rebase_self]
  have hlength := hp.length_lt_of_isWithin hwithin hne
  refine ⟨⟨fun hmoved => .inr fun hroot => ?_, fun hroot => ?_⟩, ⟨fun hback => .inr ?_, fun hroot => ?_⟩⟩
  · subst hroot
    exact not_isMoved_rebase_root hp hn hne hmoved
  · exact isMoved_rebase hp ho hn (hroot.resolve_left hne) hwithin
  · rw [← not_or]
    intro hroot
    exact rebase_rebase_ne ho hn hroot hlength hne hback
  · obtain ⟨hold, hnew⟩ := hroot.resolve_left hne
    exact rebase_rebase hp ho hn hold hwithin hnew

/-- A path is moved to the root, and another one into a directory with the name of its own and back. -/
theorem rebase_exact_nested :
    IsMoved "/src/a/b" "/src" root (rebase "/src/a/b" "/src" root) ∧
      rebase (rebase "/src/a/b" "/src" "/lib/src") "/lib/src" "/src" = "/src/a/b" :=
  ⟨(rebase_exact (by decide) (by decide) (by decide) (by decide)).1.mpr (.inr (by decide)),
    (rebase_exact (by decide) (by decide) (by decide) (by decide)).2.mpr (.inr (by decide))⟩

/-- Out of the root the two names are run together, and the way back does not find them. -/
theorem not_isMoved_rebase_slashless :
    IsNormal "/a" ∧ IsNormal root ∧ IsNormal "/b" ∧ isWithin "/a" root = true ∧
      rebase "/a" root "/b" = "/ba" ∧ ¬ IsMoved "/a" root "/b" (rebase "/a" root "/b") ∧
        rebase (rebase "/a" root "/b") "/b" root ≠ "/a" := by
  decide

end LivePreview.Path
