/-
  LivePreview.Proofs.Tree.Relocation
  ──────────────────────────────────
  **Imports inside a directory survive its renaming.**

  A relative specifier is read segment by segment from the directory of the importing
  file (`follow`).  As long as the reading does not lead out of a directory
  (`StaysIn`), it never takes back one of the names of that directory, and so it does
  the same wherever the directory stands:

      follow (rebase p old new) segs    = rebase (follow p segs) old new
      candidates (rebase t old new)     = (candidates t).map (rebase · old new)

  The second one needs a target strictly inside the directory: an extension behind the
  directory itself makes a path beside it.

  Renaming puts at a moved path what stood at the path before it was moved
  (`WellFormed.bare_renameAt`).  So the candidates for an import that stays inside the
  renamed directory are files behind the renaming exactly if they were files before,
  and the first of them is the same one, moved (`resolveImport?_rename`).
-/
import LivePreview.Proofs.Path.Containment
import LivePreview.Proofs.Path.Specifier
import LivePreview.Proofs.Tree.Reachable
import LivePreview.Proofs.Tree.Resolution

namespace LivePreview.Path

/-! ## §1. Reading segments -/

/-- The path that segments lead to when they are read from a directory. -/
def follow (directory : Text) (segs : List (List CodePoint)) : Text :=
  ofNames (settle (names directory ++ segs))

theorem settle_concat (segs : List (List CodePoint)) (segment : List CodePoint) :
    settle (segs ++ [segment]) = (pushSegment (settle segs).reverse segment).reverse := by
  unfold settle
  rw [List.foldl_append, List.reverse_reverse]
  rfl

/-- Segments of a text, read behind names, leave names. -/
theorem areNames_settle_append {front segs : List (List CodePoint)} (hfront : AreNames front)
    (hsegs : ∀ segment ∈ segs, ∀ point ∈ segment, isSeparator point = false) :
    AreNames (settle (front ++ segs)) :=
  areNames_settle fun segment hmem => (List.mem_append.mp hmem).elim
    (fun hname => (hfront segment hname).2.2.2) (hsegs segment)

/-- A segment that takes back none of the first names does the same behind any others. -/
theorem pushSegment_relocated {olds rest : List (List CodePoint)} {segment : List CodePoint}
    (hne : olds ≠ []) (hstays : olds <+: (pushSegment (olds ++ rest).reverse segment).reverse)
    (news : List (List CodePoint)) :
    ∃ behind, (pushSegment (olds ++ rest).reverse segment).reverse = olds ++ behind
      ∧ (pushSegment (news ++ rest).reverse segment).reverse = news ++ behind := by
  unfold pushSegment at hstays ⊢
  split
  · exact ⟨rest, List.reverse_reverse _, List.reverse_reverse _⟩
  · next hskip =>
    rw [if_neg hskip] at hstays
    split
    · next hdots =>
      rw [if_pos hdots, List.tail_reverse, List.reverse_reverse] at hstays
      -- the name that the dots take back stands behind the first ones
      obtain rfl | ⟨front, name, rfl⟩ := List.eq_nil_or_concat' rest
      · have hlength := hstays.length_le
        have hpos := List.length_pos_iff.mpr hne
        rw [List.append_nil, List.length_dropLast] at hlength
        omega
      · exact ⟨front, by simp [← List.append_assoc], by simp [← List.append_assoc]⟩
    · exact ⟨rest ++ [segment], by simp, by simp⟩

/-- Segments that take back none of the first names do the same behind any others. -/
theorem settle_relocated {olds rest segs : List (List CodePoint)} (hne : olds ≠ [])
    (holds : AreNames (olds ++ rest))
    (hstays : ∀ before, before <+: segs → olds <+: settle (olds ++ rest ++ before))
    {news : List (List CodePoint)} (hnews : AreNames news) :
    ∃ behind, settle (olds ++ rest ++ segs) = olds ++ behind
      ∧ settle (news ++ rest ++ segs) = news ++ behind := by
  induction segs using List.reverseRecOn with
  | nil =>
    have hrest : AreNames (news ++ rest) := areNames_append.mpr ⟨hnews, (areNames_append.mp holds).2⟩
    exact ⟨rest, by rw [List.append_nil, settle_of_areNames holds],
      by rw [List.append_nil, settle_of_areNames hrest]⟩
  | append_singleton segs segment ih =>
    obtain ⟨behind, hold, hnew⟩ := ih fun before hbefore =>
      hstays before (hbefore.trans (List.prefix_append _ _))
    have hlast := hstays (segs ++ [segment]) List.prefix_rfl
    rw [← List.append_assoc, settle_concat, hold] at hlast
    rw [← List.append_assoc, ← List.append_assoc, settle_concat, settle_concat, hold, hnew]
    exact pushSegment_relocated hne hlast news

theorem isNormal_follow (directory : Text) {segs : List (List CodePoint)}
    (hsegs : ∀ segment ∈ segs, ∀ point ∈ segment, isSeparator point = false) :
    IsNormal (follow directory segs) :=
  isNormal_ofNames (areNames_settle_append (areNames_names directory) hsegs)

theorem names_follow (directory : Text) {segs : List (List CodePoint)}
    (hsegs : ∀ segment ∈ segs, ∀ point ∈ segment, isSeparator point = false) :
    names (follow directory segs) = settle (names directory ++ segs) :=
  names_ofNames (areNames_settle_append (areNames_names directory) hsegs)

theorem IsNormal.follow_nil {directory : Text} (h : IsNormal directory) : follow directory [] = directory := by
  unfold follow
  rw [List.append_nil, settle_of_areNames (areNames_names directory), h.ofNames_names]

section Move

variable {path old new : Text} {segs : List (List CodePoint)}
  (hp : IsNormal path) (ho : IsNormal old) (hn : IsNormal new) (hroot : old ≠ root)
  (hsegs : ∀ segment ∈ segs, ∀ point ∈ segment, isSeparator point = false)
  (hstays : ∀ before, before <+: segs → isWithin (follow path before) old = true)
include hp ho hn hroot hsegs hstays

/-- **Reading that stays in a directory leads to the moved path in the moved directory.** -/
theorem follow_rebase : follow (rebase path old new) segs = rebase (follow path segs) old new := by
  have hwithin : isWithin path old = true := by
    have hnil := hstays [] (List.nil_prefix)
    rwa [hp.follow_nil] at hnil
  obtain ⟨rest, hrest⟩ := (hp.isWithin_iff ho).mp hwithin
  have hne : names old ≠ [] := fun hnil => hroot (ho.names_eq_nil_iff.mp hnil)
  have hbegins : ∀ before, before <+: segs → names old <+: settle (names old ++ rest ++ before) := by
    intro before hbefore
    have hpoints := fun segment hmem => hsegs segment (hbefore.subset hmem)
    have hinside := ((isNormal_follow path hpoints).isWithin_iff ho).mp (hstays before hbefore)
    rwa [names_follow path hpoints, ← hrest] at hinside
  obtain ⟨behind, hold, hnew⟩ :=
    settle_relocated hne (hrest ▸ areNames_names path) hbegins (areNames_names new)
  -- both sides have the names of the new directory and then those that have been read
  have hfollow : follow path segs = ofNames (names old ++ behind) := by
    unfold follow
    rw [← hrest, hold]
  have hbehind : AreNames (names old ++ behind) := by
    rw [← hold, hrest]
    exact areNames_settle_append (areNames_names path) hsegs
  have hmoved := rebase_ofNames hbehind (areNames_names new) hne
  rw [ho.ofNames_names, hn.ofNames_names] at hmoved
  rw [hfollow, hmoved]
  unfold follow
  rw [names_rebase hp ho hn hroot hwithin, ← hrest, List.drop_left, hnew]

end Move

/-! ## §2. Moved texts -/

/-- What stands behind a moved path is moved along. -/
theorem rebase_append {path old new : Text} (hlength : old.length < path.length) (more : Text) :
    rebase (path ++ more) old new = rebase path old new ++ more := by
  have hne : path ≠ old := fun heq => Nat.lt_irrefl _ (heq ▸ hlength)
  have hmore : path ++ more ≠ old := by
    intro heq
    have hlen : (path ++ more).length = path.length + more.length := List.length_append
    rw [heq] at hlen
    omega
  unfold rebase
  rw [if_neg hne, if_neg hmore]
  show Text.mk (_ ++ (path.points ++ more.points).drop old.length)
    = Text.mk ((_ ++ path.points.drop old.length) ++ more.points)
  rw [List.drop_append_of_le_length (Nat.le_of_lt hlength), List.append_assoc]

/-- A path within a directory other than the root is not the root. -/
theorem IsNormal.ne_root_of_isWithin {path old : Text} (hp : IsNormal path) (ho : IsNormal old)
    (hroot : old ≠ root) (hwithin : isWithin path old = true) : path ≠ root := by
  rintro rfl
  exact hroot (ho.eq_of_isWithin hp (isWithin_root old) hwithin)

/-! ## §3. Specifiers -/

namespace Specifier

/-- Read segment by segment from the directory of the importing file, the specifier never leads out
of a directory. -/
def StaysIn (directory importer specifier : Text) : Prop :=
  ∀ before ∈ (segments specifier.points).inits,
    isWithin (follow (parent importer) before) directory = true

instance (directory importer specifier : Text) : Decidable (StaysIn directory importer specifier) :=
  inferInstanceAs (Decidable (∀ _ ∈ _, _))

/-- A relative specifier does not start with a slash. -/
theorem head?_ne_slash_of_isRelative {specifier : Text} (h : isRelative specifier = true) :
    specifier.points.head? ≠ some slash := by
  have hdot : specifier.points.head? = some dot := by
    unfold isRelative at h
    rw [Bool.or_eq_true, Bool.or_eq_true, Bool.or_eq_true, beq_iff_eq, beq_iff_eq] at h
    rcases h with ((rfl | rfl) | hstart) | hstart
    · rfl
    · rfl
    · obtain ⟨rest, hrest⟩ := List.isPrefixOf_iff_prefix.mp hstart
      rw [← hrest]
      rfl
    · obtain ⟨rest, hrest⟩ := List.isPrefixOf_iff_prefix.mp hstart
      rw [← hrest]
      rfl
  rw [hdot]
  decide

/-- A relative specifier is read from the directory of the importing file. -/
theorem target?_of_isRelative {importer specifier : Text} (h : IsNormal importer)
    (hrelative : isRelative specifier = true) :
    target? importer specifier = some (follow (parent importer) (segments specifier.points)) := by
  have hpoints := append_of_head?_ne_slash h.parent (head?_ne_slash_of_isRelative hrelative)
  have hsplit : segments (trail (names (parent importer)) ++ slash :: specifier.points)
      = [] :: (names (parent importer) ++ segments specifier.points) := by
    have htrail := segments_trail (areNames_names (parent importer))
    unfold segments at htrail ⊢
    rw [List.splitOnP_append_cons _ _ isSeparator_slash, htrail]
    rfl
  unfold target? join
  rw [if_pos hrelative, show normalize importer = importer from h, normalize_eq]
  show some (ofNames (settle (segments (append (parent importer).points specifier.points)))) = _
  rw [hpoints, hsplit]
  rfl

section Move

variable {old new : Text} (ho : IsNormal old) (hn : IsNormal new) (hroot : old ≠ root)
include ho hn hroot

/-- **What a specifier points at moves along with the directory that it stays in.** -/
theorem target?_rebase {importer specifier : Text} (himporter : IsNormal importer)
    (hrelative : isRelative specifier = true) (hstays : StaysIn old importer specifier) :
    target? (rebase importer old new) specifier
      = (target? importer specifier).map (rebase · old new) := by
  have hstays : ∀ before, before <+: segments specifier.points →
      isWithin (follow (parent importer) before) old = true :=
    fun before hbefore => hstays before ((List.mem_inits _ _).mpr hbefore)
  have hparent : isWithin (parent importer) old = true := by
    have hnil := hstays [] List.nil_prefix
    rwa [himporter.parent.follow_nil] at hnil
  have hwithin := himporter.isWithin_trans himporter.parent ho himporter.isWithin_parent_self hparent
  -- the file is not the directory itself, whose own directory lies outside
  have hne : importer ≠ old := by
    rintro rfl
    exact himporter.parent_ne hroot
      (himporter.parent.eq_of_isWithin himporter hparent himporter.isWithin_parent_self)
  rw [target?_of_isRelative (isNormal_rebase himporter ho hn hroot hwithin) hrelative,
    target?_of_isRelative himporter hrelative, parent_rebase himporter ho hn hroot hwithin hne,
    follow_rebase himporter.parent ho hn hroot (fun _ hmem => not_isSeparator_of_mem_segments hmem)
      hstays]
  rfl

omit ho hn hroot in
/-- What a specifier points at lies in the directory that it stays in. -/
theorem isWithin_of_target? {importer specifier target : Text} (himporter : IsNormal importer)
    (hrelative : isRelative specifier = true) (hstays : StaysIn old importer specifier)
    (htarget : target? importer specifier = some target) : isWithin target old = true := by
  rw [target?_of_isRelative himporter hrelative] at htarget
  obtain rfl := Option.some.inj htarget
  exact hstays _ ((List.mem_inits _ _).mpr List.prefix_rfl)

/-- The candidates for a moved target are those for the target, moved. -/
theorem candidates_rebase (hnewroot : new ≠ root) {target : Text} (htarget : IsNormal target)
    (hwithin : isWithin target old = true) (hne : target ≠ old) :
    candidates (rebase target old new) = (candidates target).map (rebase · old new) := by
  have hlength := length_lt_of_isWithin hroot hne hwithin
  have hplain : ∀ more, rebase (target ++ more) old new = rebase target old new ++ more :=
    rebase_append hlength
  have hindex : ∀ more, rebase (target ++ "/index" ++ more) old new
      = rebase target old new ++ "/index" ++ more := by
    intro more
    rw [← hplain]
    refine rebase_append (Nat.lt_of_lt_of_le hlength ?_) more
    show target.points.length ≤ (target.points ++ _).length
    rw [List.length_append]
    exact Nat.le_add_right _ _
  have hmoved := isNormal_rebase htarget ho hn hroot hwithin
  have hmovedroot : rebase target old new ≠ root :=
    hmoved.ne_root_of_isWithin hn hnewroot (isWithin_rebase htarget ho hn hroot hwithin)
  unfold candidates
  rw [if_neg hmovedroot, if_neg (htarget.ne_root_of_isWithin ho hroot hwithin)]
  simp only [List.map_append, List.map_cons, List.map_map, Function.comp_def, hplain, hindex]

omit hn in
/-- Every candidate for a target strictly inside a directory lies in it. -/
theorem isWithin_of_mem_candidates {target candidate : Text} (htarget : IsNormal target)
    (hwithin : isWithin target old = true) (hne : target ≠ old) (hmem : candidate ∈ candidates target) :
    isWithin candidate old = true := by
  unfold candidates at hmem
  rw [if_neg (htarget.ne_root_of_isWithin ho hroot hwithin)] at hmem
  rcases List.mem_append.mp hmem with hmem | hmem
  · rcases List.mem_cons.mp hmem with rfl | hmem
    · exact hwithin
    · obtain ⟨extension, -, rfl⟩ := List.mem_map.mp hmem
      exact isWithin_append hroot hne hwithin extension
  · obtain ⟨extension, -, rfl⟩ := List.mem_map.mp hmem
    have hassoc : target ++ "/index" ++ extension = target ++ ("/index" ++ extension) :=
      congrArg Text.mk (List.append_assoc _ _ _)
    rw [hassoc]
    exact isWithin_append hroot hne hwithin _

end Move

end Specifier

end LivePreview.Path

namespace LivePreview.Tree

open LivePreview.Path (IsNormal rebase)
open LivePreview.Path.Specifier (StaysIn candidates isRelative target?)

/-! ## §4. Resolved imports -/

theorem isFileAt_congr {tree other : Tree} {path place : Text} (h : tree.bare path = other.bare place) :
    tree.isFileAt path = other.isFileAt place := by
  have hbare : ∀ (t : Tree) (p : Text), t.isFileAt p = (t.bare p).any Node.isFile := by
    intro t p
    unfold isFileAt bare
    cases t.get? p with
    | none => rfl
    | some node => cases node <;> rfl
  rw [hbare, hbare, h]

section Move

variable {tree : Tree} {old new : Text} {missing : List Text} (h : tree.WellFormed)
  (hmove : tree.Movable old new missing) (kind : NodeKind)
include h hmove

/-- A moved path leads to a file exactly if the path led to one. -/
theorem WellFormed.isFile_renameAt {path : Text} (hpath : IsNormal path)
    (hwithin : Path.isWithin path old = true) :
    (tree.renameAt old new kind missing).tree.isFile (rebase path old new) = tree.isFile path := by
  have hold := h.isNormal_old hmove
  have hnew := hmove.isNormal_new
  have hmoved := Path.isNormal_rebase hpath hold hnew hmove.old_ne_root hwithin
  rw [isFile_of_isNormal hmoved, isFile_of_isNormal hpath]
  apply isFileAt_congr
  rw [h.bare_renameAt hmove kind hmoved,
    if_pos (Path.isWithin_rebase hpath hold hnew hmove.old_ne_root hwithin),
    Path.rebase_rebase hpath hold hnew hmove.old_ne_root hwithin (h.new_ne_root hmove)]

/-- The first candidate that is a file is the same one, moved. -/
theorem WellFormed.find?_candidates_renameAt {target : Text} (htarget : IsNormal target)
    (hwithin : Path.isWithin target old = true) (hne : target ≠ old) :
    (candidates (rebase target old new)).find? (tree.renameAt old new kind missing).tree.isFile
      = ((candidates target).find? tree.isFile).map (rebase · old new) := by
  have hold := h.isNormal_old hmove
  have hfile : ∀ candidate ∈ candidates target,
      (tree.renameAt old new kind missing).tree.isFile (rebase candidate old new)
        = tree.isFile candidate := fun candidate hmem =>
    h.isFile_renameAt hmove kind (Path.Specifier.isNormal_of_mem_candidates htarget hmem)
      (Path.Specifier.isWithin_of_mem_candidates hold hmove.old_ne_root htarget hwithin hne hmem)
  rw [Path.Specifier.candidates_rebase hold hmove.isNormal_new hmove.old_ne_root (h.new_ne_root hmove)
    htarget hwithin hne, List.find?_map, ← List.head?_filter, ← List.head?_filter]
  exact congrArg (fun files => files.head?.map (rebase · old new)) (List.filter_congr hfile)

end Move

/-- A renamed directory keeps its imports: a relative specifier that never leads out of the directory,
and points at something strictly inside it, is resolved in the moved file to what it was resolved to
before, moved along, and to nothing if it was resolved to nothing. -/
theorem resolveImport?_rename {start : Tree} (hstart : start.IsInitial) (edits : List Edit)
    {oldPath newPath : Text} {outcome : Outcome Text}
    (hok : (start.run edits).rename oldPath newPath = .ok outcome)
    {importer specifier : Text} (himporter : IsNormal importer)
    (hrelative : isRelative specifier = true)
    (hstays : StaysIn (Path.normalize oldPath) importer specifier)
    (hinside : target? importer specifier ≠ some (Path.normalize oldPath)) :
    outcome.tree.resolveImport?
        (rebase importer (Path.normalize oldPath) (Path.normalize newPath)) specifier
      = ((start.run edits).resolveImport? importer specifier).map
          (rebase · (Path.normalize oldPath) (Path.normalize newPath)) := by
  have hformed := hstart.wellFormed.run edits
  obtain ⟨source, missing, -, hmove, rfl⟩ := rename_eq_ok hok
  have hold := hformed.isNormal_old hmove
  have htarget := Path.Specifier.target?_of_isRelative himporter hrelative
  generalize Path.follow _ _ = target at htarget
  have hmoved := Path.Specifier.target?_rebase hold hmove.isNormal_new hmove.old_ne_root himporter
    hrelative hstays
  rw [htarget] at hmoved hinside
  unfold resolveImport?
  rw [hmoved, htarget]
  exact hformed.find?_candidates_renameAt hmove source.kind (Path.Specifier.isNormal_target? htarget)
    (Path.Specifier.isWithin_of_target? himporter hrelative hstays htarget)
    fun heq => hinside (congrArg some heq)

/-- A script and, in a directory beside its own one, an index file. -/
def galleryTree : Tree :=
  Tree.empty.run [.createFile "/src/app/main.ts" "", .createFile "/src/ui/index.tsx" ""]

/-- The index file is found from the script wherever the two directories stand. -/
theorem resolveImport?_rename_gallery :
    galleryTree.resolveImport? "/src/app/main.ts" "./.././ui" = some "/src/ui/index.tsx"
      ∧ StaysIn "/src" "/src/app/main.ts" "./.././ui"
      ∧ ∃ outcome, galleryTree.rename "src" "/lib/code/" = .ok outcome
        ∧ outcome.tree.resolveImport? "/lib/code/app/main.ts" "./.././ui"
          = some "/lib/code/ui/index.tsx" := by
  have hfound : galleryTree.resolveImport? "/src/app/main.ts" "./.././ui" = some "/src/ui/index.tsx" := by
    decide
  obtain ⟨outcome, hok⟩ : ∃ outcome, galleryTree.rename "src" "/lib/code/" = .ok outcome := ⟨_, rfl⟩
  have hkept : outcome.tree.resolveImport? (rebase "/src/app/main.ts" "/src" "/lib/code") "./.././ui"
      = (galleryTree.resolveImport? "/src/app/main.ts" "./.././ui").map (rebase · "/src" "/lib/code") :=
    resolveImport?_rename (.inl rfl) _ hok (by decide) (by decide) (by decide) (by decide)
  rw [hfound] at hkept
  exact ⟨hfound, by decide, outcome, hok, hkept⟩

end LivePreview.Tree
