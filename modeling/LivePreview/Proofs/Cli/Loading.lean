/-
  LivePreview.Proofs.Cli.Loading
  ──────────────────────────────
  **Which directories can be loaded, and what is loaded.**

  On a disk no file is a directory, none is there twice, and names are neither empty nor
  dots, and hold no slash (`Disk.WellFormed`).  A path is followed through directories
  only (`Disk.reached_of_follow`); so what is written to a file leads to a disk of the
  same kind (`Disk.WellFormed.write`).

  The names on a disk are not the names of a tree: a backslash is part of a name there and
  separates names here.  A directory is loaded exactly if the paths of its text files go
  together (`exists_load_eq_ok_iff`), in whatever order the files come; then the tree
  holds just these files with their texts (`isLoaded_of_load`).

  On a well-formed disk the paths go together if no name holds a backslash
  (`Disk.WellFormed.compatible_of_plain`), and then each file keeps the path that it
  has on the disk.
-/
import Mathlib.Data.List.Infix
import LivePreview.Cli.Disk
import LivePreview.Proofs.Path.Names
import LivePreview.Proofs.Project.Run
import LivePreview.Proofs.Result
import LivePreview.Proofs.Text.Occurrence
import LivePreview.Proofs.Tree.Filling

namespace LivePreview.Cli

/-! ## §1. Well-formed disks -/

/-- The text can name a file or a directory. -/
structure IsDiskName (name : String) : Prop where
  ne_empty : name ≠ ""
  ne_dot : name ≠ "."
  ne_dots : name ≠ ".."
  not_mem_slash : '/' ∉ name.toList
  not_mem_nul : '\x00' ∉ name.toList

instance (name : String) : Decidable (IsDiskName name) :=
  decidable_of_iff (name ≠ "" ∧ name ≠ "." ∧ name ≠ ".." ∧ '/' ∉ name.toList ∧ '\x00' ∉ name.toList)
    ⟨fun ⟨empty, dot, dots, slash, nul⟩ => ⟨empty, dot, dots, slash, nul⟩,
      fun ⟨empty, dot, dots, slash, nul⟩ => ⟨empty, dot, dots, slash, nul⟩⟩

namespace Disk

/-- A disk as it can be: a place is a file or a directory, not both, and is one thing only. -/
structure WellFormed (disk : Disk) : Prop where
  nodup : (disk.files.map Prod.fst).Nodup
  not_isDirectory : ∀ file ∈ disk.files, disk.isDirectory file.1 = false
  names_of_file : ∀ file ∈ disk.files, ∀ name ∈ file.1, IsDiskName name
  names_of_directory : ∀ directory ∈ disk.workingDirectory :: disk.directories,
    ∀ name ∈ directory, IsDiskName name

variable {disk : Disk} {place : Segments}

theorem isDirectory_iff : disk.isDirectory place = true
    ↔ (∃ directory ∈ disk.workingDirectory :: disk.directories, place <+: directory)
      ∨ ∃ file ∈ disk.files, place <+: file.1 ∧ place ≠ file.1 := by
  simp [isDirectory, List.isPrefixOf_iff_prefix]

/-- What is on the way to a directory is a directory. -/
theorem isDirectory_of_front {front : Segments} (hdirectory : disk.isDirectory place = true)
    (hfront : front <+: place) : disk.isDirectory front = true := by
  rw [isDirectory_iff] at hdirectory ⊢
  rcases hdirectory with ⟨directory, hmem, hbegins⟩ | ⟨file, hmem, hbegins, hne⟩
  · exact .inl ⟨directory, hmem, hfront.trans hbegins⟩
  · refine .inr ⟨file, hmem, hfront.trans hbegins, ?_⟩
    rintro rfl
    exact hne (hbegins.eq_of_length (Nat.le_antisymm hbegins.length_le hfront.length_le))

/-- The names of a directory are names. -/
theorem WellFormed.names_of_isDirectory (h : disk.WellFormed) (hdirectory : disk.isDirectory place = true) :
    ∀ name ∈ place, IsDiskName name := by
  intro name hname
  rcases isDirectory_iff.mp hdirectory with ⟨directory, hmem, hbegins⟩ | ⟨file, hmem, hbegins, -⟩
  · exact h.names_of_directory directory hmem name (hbegins.subset hname)
  · exact h.names_of_file file hmem name (hbegins.subset hname)

/-- No file is on the way to another one, nor is it that file. -/
theorem WellFormed.eq_of_prefix (h : disk.WellFormed) {file other : Segments × ByteArray}
    (hfile : file ∈ disk.files) (hother : other ∈ disk.files) (hbegins : file.1 <+: other.1) :
    file.1 = other.1 := by
  by_contra hne
  have hdirectory : disk.isDirectory file.1 = true :=
    isDirectory_iff.mpr (.inr ⟨other, hother, hbegins, hne⟩)
  rw [h.not_isDirectory file hfile] at hdirectory
  cases hdirectory

/-! ## §2. Writing -/

/-- A place that a path can lead to: a directory, or something in one. -/
def Reached (disk : Disk) (place : Segments) : Prop :=
  disk.isDirectory place = true
    ∨ ∃ directory name, disk.isDirectory directory = true ∧ IsDiskName name
        ∧ place = directory ++ [name]

/-- A part of a written path is a name, unless it is the two dots. -/
theorem isDiskName_of_mem_partsOf {written part : String} (hnul : '\x00' ∉ written.toList)
    (hmem : part ∈ partsOf written) (hdots : part ≠ "..") : IsDiskName part := by
  obtain ⟨cs, hcs, rfl⟩ := List.mem_map.mp hmem
  obtain ⟨hsplit, hkept⟩ := List.mem_filter.mp hcs
  have hpart := Text.forall_of_mem_splitOnP hsplit
  simp only [Bool.and_eq_true, Bool.not_eq_true', bne_iff_ne, ne_eq, List.isEmpty_eq_false_iff] at hkept
  refine ⟨fun hempty => hkept.1 ?_, fun hdot => hkept.2 ?_, hdots, fun hslash => ?_, fun hzero => ?_⟩
  · rw [← String.toList_ofList (l := cs), hempty]
    rfl
  · rw [← String.toList_ofList (l := cs), hdot]
    rfl
  · rw [String.toList_ofList] at hslash
    have := (hpart _ hslash).1
    simp at this
  · rw [String.toList_ofList] at hzero
    exact hnul (hpart _ hzero).2

/-- One part of a written path leads on to a place that can be reached. -/
theorem Reached.step {part : String} {next : Segments} (hpart : part ≠ ".." → IsDiskName part)
    (hok : disk.step place part = .ok next) : disk.Reached next := by
  unfold Disk.step at hok
  split at hok
  · next hdirectory =>
    split at hok
    · cases hok
    · cases hok
      split
      · exact .inl (isDirectory_of_front hdirectory (List.dropLast_prefix place))
      · next hdots => exact .inr ⟨place, part, hdirectory, hpart hdots, rfl⟩
  · split at hok <;> cases hok

theorem reached_of_follow {written : String} (hok : disk.follow written = .ok place) :
    disk.Reached place := by
  unfold follow at hok
  split at hok
  · cases hok
  · next hnul =>
    split at hok
    · cases hok
    · have hnul : '\x00' ∉ written.toList := by simpa using hnul
      have horigin : disk.Reached (disk.origin written) := by
        refine .inl (isDirectory_iff.mpr (.inl ⟨disk.workingDirectory, List.mem_cons_self, ?_⟩))
        unfold origin
        split
        · exact List.prefix_rfl
        · exact List.nil_prefix
      -- the parts of a fold are parts of the path, which the invariant has to remember
      have hparts : ∀ part ∈ partsOf written, part ≠ ".." → IsDiskName part :=
        fun part hmem hdots => isDiskName_of_mem_partsOf hnul hmem hdots
      generalize disk.origin written = start at hok horigin
      generalize partsOf written = parts at hok hparts
      induction parts generalizing start with
      | nil =>
        cases hok
        exact horigin
      | cons part parts ih =>
        rw [List.foldlM_cons] at hok
        obtain ⟨next, hnext, hrest⟩ := Result.bind_eq_ok_iff.mp hok
        exact ih next (Reached.step (hparts part List.mem_cons_self) hnext) hrest
          fun other hmem => hparts other (List.mem_cons_of_mem _ hmem)

/-- **What is written to a file leads from a well-formed disk to a well-formed one.** -/
theorem WellFormed.write (h : disk.WellFormed) {written : String} {bytes : ByteArray} {after : Disk}
    (hok : disk.write written bytes = .ok after) : after.WellFormed := by
  unfold Disk.write at hok
  obtain ⟨place, hfollow, hok⟩ := Result.bind_eq_ok_iff.mp hok
  split at hok
  · cases hok
  · next hfree =>
    obtain rfl := Except.ok.inj hok
    obtain hdirectory | ⟨front, name, hfront, hname, rfl⟩ := reached_of_follow hfollow
    · exact absurd hdirectory hfree
    have hkept : ∀ file ∈ disk.files.filter (·.1 != front ++ [name]),
        file ∈ disk.files ∧ file.1 ≠ front ++ [name] := by
      intro file hmem
      simpa using List.mem_filter.mp hmem
    -- what is a directory now was one before, or is on the way to the new file
    have hdirectories : ∀ q, Disk.isDirectory { disk with
        files := (front ++ [name], bytes) :: disk.files.filter fun file => file.1 != front ++ [name] } q
          = true → disk.isDirectory q = true := by
      intro q hq
      rcases isDirectory_iff.mp hq with hq | ⟨file, hmem, hbegins, hne⟩
      · exact isDirectory_iff.mpr (.inl hq)
      · rcases List.mem_cons.mp hmem with rfl | hmem
        · exact isDirectory_of_front hfront ((List.prefix_concat_iff.mp hbegins).resolve_left hne)
        · exact isDirectory_iff.mpr (.inr ⟨file, (hkept file hmem).1, hbegins, hne⟩)
    refine ⟨?_, fun file hmem => ?_, fun file hmem => ?_, h.names_of_directory⟩
    · refine List.nodup_cons.mpr ⟨fun hmem => ?_, h.nodup.sublist (List.filter_sublist.map Prod.fst)⟩
      obtain ⟨file, hfile, heq⟩ := List.mem_map.mp hmem
      exact (hkept file hfile).2 heq
    · refine Bool.eq_false_iff.mpr fun hnow => ?_
      have hbefore := hdirectories file.1 hnow
      rcases List.mem_cons.mp hmem with rfl | hmem
      · exact hfree hbefore
      · rw [h.not_isDirectory file (hkept file hmem).1] at hbefore
        cases hbefore
    · rcases List.mem_cons.mp hmem with rfl | hmem
      · intro other hother
        rcases List.mem_append.mp hother with hother | hother
        · exact h.names_of_isDirectory hfront other hother
        · rwa [List.mem_singleton.mp hother]
      · exact h.names_of_file file (hkept file hmem).1

end Disk

end LivePreview.Cli

namespace LivePreview.Cli

open LivePreview.Path (Compatible Separate IsNormal IsName AreNames)

/-! ## §3. Files and their paths -/

/-- The path that a file is loaded to. -/
def pathFor (name : Segments) : Text :=
  Path.normalize ("/" ++ shownName name)

/-- The text files of a list, with their texts. -/
def textsAmong (files : List (Segments × ByteArray)) : List (Segments × String) :=
  files.filterMap fun file => (textOf? file.2).map (file.1, ·)

/-- The names of the other files. -/
def othersAmong (files : List (Segments × ByteArray)) : List Segments :=
  (files.filter fun file => (textOf? file.2).isNone).map Prod.fst

/-- Text files as a tree holds them. -/
def entriesFor (texts : List (Segments × String)) : List (Text × Text) :=
  texts.map fun file => (pathFor file.1, file.2)

/-- The paths that text files are loaded to. -/
def pathsFor (texts : List (Segments × String)) : List Text :=
  texts.map fun file => pathFor file.1

namespace Disk

/-- The files in a directory of the disk, and in directories beneath it, of which no name keeps them
from being loaded; they are named from the directory on. -/
def loadable (disk : Disk) (directory : Segments) : List (Segments × ByteArray) :=
  ((disk.files.filter fun file => directory.isPrefixOf file.1 && directory != file.1).map
    fun file => (file.1.drop directory.length, file.2)).filter fun file => !file.1.any isSkipped

/-- The text files that are to be loaded from a directory. -/
def textsIn (disk : Disk) (directory : Segments) : List (Segments × String) :=
  textsAmong (disk.loadable directory)

/-- The files in a directory that are to be left out because they are no text. -/
def othersIn (disk : Disk) (directory : Segments) : List Segments :=
  othersAmong (disk.loadable directory)

end Disk

/-- A file holds a text exactly if its bytes express one; the text then has a line feed at the end of
every line. -/
theorem textOf?_eq_some_iff {bytes : ByteArray} {text : String} : textOf? bytes = some text
    ↔ ∃ s : String, bytes = s.toUTF8 ∧ text = String.ofList (withLineFeeds s.toList) := by
  unfold textOf? String.fromUTF8?
  constructor
  · intro h
    obtain ⟨s, hs, rfl⟩ := Option.map_eq_some_iff.mp h
    split at hs
    · cases hs
      exact ⟨_, rfl, rfl⟩
    · cases hs
  · rintro ⟨s, rfl, rfl⟩
    rw [dif_pos (show s.toUTF8.IsValidUTF8 from s.isValidUTF8)]
    rfl

/-- **The files to be loaded are those beneath the directory that hold a text and have no hidden or
skipped name.** -/
theorem mem_textsIn_iff {disk : Disk} {directory : Segments} {file : Segments × String} : file ∈ disk.textsIn directory
    ↔ file.1 ≠ [] ∧ (∀ name ∈ file.1, isSkipped name = false)
      ∧ ∃ bytes, (directory ++ file.1, bytes) ∈ disk.files ∧ textOf? bytes = some file.2 := by
  obtain ⟨name, text⟩ := file
  unfold Disk.textsIn textsAmong Disk.loadable
  simp only [List.mem_filterMap, List.mem_filter, List.mem_map, Bool.and_eq_true,
    List.isPrefixOf_iff_prefix, bne_iff_ne, Option.map_eq_some_iff, Prod.exists, Prod.mk.injEq]
  constructor
  · rintro ⟨_, bytes, ⟨⟨place, _, ⟨hfile, ⟨rest, rfl⟩, hne⟩, rfl, rfl⟩, hskipped⟩, found, htext, rfl, rfl⟩
    rw [List.drop_left] at hskipped ⊢
    refine ⟨?_, by simpa using hskipped, _, hfile, htext⟩
    rintro rfl
    exact hne (List.append_nil directory).symm
  · rintro ⟨hne, hskipped, bytes, hfile, htext⟩
    refine ⟨name, bytes, ⟨⟨directory ++ name, bytes, ⟨hfile, List.prefix_append _ _, ?_⟩,
      List.drop_left, rfl⟩, by simpa using hskipped⟩, text, htext, rfl, rfl⟩
    simpa using hne.symm

theorem isNormal_pathFor (name : Segments) : IsNormal (pathFor name) :=
  Path.isNormal_normalize _

theorem textsAmong_cons (file : Segments × ByteArray) (files : List (Segments × ByteArray)) :
    textsAmong (file :: files)
      = ((textOf? file.2).map (file.1, ·)).toList ++ textsAmong files := by
  unfold textsAmong
  rw [List.filterMap_cons]
  cases textOf? file.2 <;> rfl

theorem othersAmong_cons (file : Segments × ByteArray) (files : List (Segments × ByteArray)) :
    othersAmong (file :: files)
      = (if (textOf? file.2).isNone then [file.1] else []) ++ othersAmong files := by
  unfold othersAmong
  rw [List.filter_cons]
  split <;> rfl

/-! ## §4. Loading file after file -/

section Files

variable {files : List (Segments × ByteArray)} {file : Segments × ByteArray}
  {state : Project × List Segments} {entries : List (Text × Text)}

theorem loadFile_of_text {text : String} (htext : textOf? file.2 = some text) :
    loadFile state file
      = (state.1.tree.createFileAt (pathFor file.1) (.text text)).map fun outcome =>
          (Project.announce { state.1 with tree := outcome.tree } outcome.changes?, state.2) := by
  unfold loadFile
  rw [htext]
  dsimp only
  unfold Project.edit Tree.createFile pathFor
  dsimp only
  cases state.1.tree.createFileAt (Path.normalize ("/" ++ shownName file.1)) (.text text) with
  | error e => rfl
  | ok outcome => rfl

/-- Behind a file that has been created a project holds that file as well. -/
theorem holds_announce {project : Project} (h : project.tree.Holds entries) {name : Segments} {text : Text}
    {outcome : Tree.Outcome Text}
    (hok : project.tree.createFileAt (pathFor name) (.text text) = .ok outcome) :
    (Project.announce { project with tree := outcome.tree } outcome.changes?).tree.Holds
      (entries ++ [(pathFor name, text)]) := by
  rw [Project.tree_announce]
  exact h.createFileAt hok (isNormal_pathFor name)

theorem loadFile_of_other (htext : textOf? file.2 = none) :
    loadFile state file = .ok (state.1, state.2 ++ [file.1]) := by
  unfold loadFile
  rw [htext]

/-- **The files of a list can be loaded one after the other exactly if their paths go together, and
with those of the files that the tree holds already.** -/
theorem exists_foldlM_loadFile_eq_ok_iff (h : state.1.tree.Holds entries) :
    (∃ loaded, files.foldlM loadFile state = .ok loaded)
      ↔ Compatible (entries.map Prod.fst ++ pathsFor (textsAmong files)) := by
  induction files generalizing state entries with
  | nil =>
    rw [show pathsFor (textsAmong []) = [] from rfl, List.append_nil]
    exact ⟨fun _ => h.compatible, fun _ => ⟨state, rfl⟩⟩
  | cons file files ih =>
    rw [List.foldlM_cons, textsAmong_cons]
    cases htext : textOf? file.2 with
    | none =>
      rw [loadFile_of_other htext]
      exact ih h
    | some text =>
      rw [loadFile_of_text htext]
      have hassoc : entries.map Prod.fst ++ pathsFor ([(file.1, text)] ++ textsAmong files)
          = (entries ++ [(pathFor file.1, (text : Text))]).map Prod.fst ++ pathsFor (textsAmong files) := by
        simp [pathsFor]
      have hstep : (∃ outcome, state.1.tree.createFileAt (pathFor file.1) (.text text) = .ok outcome)
          ↔ Compatible (entries.map Prod.fst ++ [pathFor file.1]) :=
        h.exists_createFileAt_eq_ok_iff (isNormal_pathFor file.1)
      cases hcreate : state.1.tree.createFileAt (pathFor file.1) (.text text) with
      | error e =>
        -- the paths up to this one do not go together, and so none behind them mend it
        rw [hcreate] at hstep
        constructor
        · rintro ⟨loaded, hok⟩
          cases hok
        · intro hall
          refine absurd (hstep.mpr ?_) (by rintro ⟨_, hok⟩; cases hok)
          rw [show Option.toList (Option.map (file.1, ·) (some text)) = [(file.1, text)] from rfl,
            hassoc, List.map_append] at hall
          exact hall.of_append
      | ok outcome =>
        have hcreated : (Project.announce { state.1 with tree := outcome.tree } outcome.changes?,
            state.2).1.tree.Holds (entries ++ [(pathFor file.1, (text : Text))]) := holds_announce h hcreate
        refine (ih hcreated).trans ?_
        rw [← hassoc]
        rfl

/-- What a run over a list of files leads to: the tree holds the text files as well, and the others
are noted. -/
theorem holds_of_foldlM_loadFile (h : state.1.tree.Holds entries) {loaded : Project × List Segments}
    (hok : files.foldlM loadFile state = .ok loaded) :
    loaded.1.tree.Holds (entries ++ entriesFor (textsAmong files))
      ∧ loaded.2 = state.2 ++ othersAmong files := by
  induction files generalizing state entries with
  | nil =>
    cases hok
    rw [show entriesFor (textsAmong []) = [] from rfl, show othersAmong [] = [] from rfl,
      List.append_nil, List.append_nil]
    exact ⟨h, rfl⟩
  | cons file files ih =>
    rw [List.foldlM_cons] at hok
    obtain ⟨next, hnext, hrest⟩ := Result.bind_eq_ok_iff.mp hok
    rw [textsAmong_cons, othersAmong_cons]
    cases htext : textOf? file.2 with
    | none =>
      rw [loadFile_of_other htext] at hnext
      cases hnext
      have hsame : (state.1, state.2 ++ [file.1]).1.tree.Holds entries := h
      obtain ⟨hholds, hothers⟩ := ih hsame hrest
      refine ⟨hholds, ?_⟩
      rw [hothers, List.append_assoc]
      rfl
    | some text =>
      rw [loadFile_of_text htext] at hnext
      obtain ⟨outcome, hcreate, rfl⟩ := Result.map_eq_ok_iff.mp hnext
      have hcreated : (Project.announce { state.1 with tree := outcome.tree } outcome.changes?,
          state.2).1.tree.Holds (entries ++ [(pathFor file.1, (text : Text))]) := holds_announce h hcreate
      obtain ⟨hholds, hothers⟩ := ih hcreated hrest
      rw [List.append_assoc] at hholds
      exact ⟨hholds, hothers⟩

end Files

/-! ## §5. Loading a directory -/

section Load

variable (disk : Disk) (directory : Segments)

/-- Loading goes through the files in ascending order, and passes over none but the skipped ones. -/
theorem perm_loadable :
    ((disk.beneath directory).filter fun file => !file.1.any isSkipped).Perm
      (disk.loadable directory) :=
  (List.mergeSort_perm _ _).filter _

theorem perm_textsAmong {files others : List (Segments × ByteArray)} (h : files.Perm others) :
    (textsAmong files).Perm (textsAmong others) :=
  h.filterMap _

/-- **A directory can be loaded exactly if the paths of its text files go together.** -/
theorem exists_load_eq_ok_iff :
    (∃ loaded, load disk directory = .ok loaded) ↔ Compatible (pathsFor (disk.textsIn directory)) := by
  unfold load
  rw [exists_foldlM_loadFile_eq_ok_iff Tree.holds_empty]
  exact Path.compatible_perm_iff ((perm_textsAmong (perm_loadable disk directory)).map _)

/-- What has been loaded is what there is to be loaded. -/
structure IsLoaded (project : Project) (others : List Segments) : Prop where
  holds : project.tree.Holds (entriesFor (disk.textsIn directory))
  /-- The tree has exactly one file for each text file. -/
  files : project.tree.files.Perm
    ((disk.textsIn directory).map fun file => (pathFor file.1, .text file.2))
  others : others.Perm (disk.othersIn directory)

/-- **Behind a load the tree holds the text files, each with its text, and nothing else.** -/
theorem isLoaded_of_load {loaded : Project × List Segments} (hok : load disk directory = .ok loaded) :
    IsLoaded disk directory loaded.1 loaded.2 := by
  unfold load at hok
  obtain ⟨hholds, hothers⟩ := holds_of_foldlM_loadFile Tree.holds_empty hok
  have hperm := perm_loadable disk directory
  have htexts : (entriesFor (textsAmong _)).Perm (entriesFor (disk.textsIn directory)) :=
    (perm_textsAmong hperm).map _
  have hhere := hholds.perm htexts
  refine ⟨hhere, ?_, ?_⟩
  · have hfiles := hhere.files_perm
    unfold entriesFor at hfiles
    rwa [List.map_map] at hfiles
  · rw [hothers]
    exact (hperm.filter _).map _

end Load

/-! ## §6. Names without backslashes -/

/-- The names of a path on the disk, as they stand in a tree. -/
def namesFor (file : Segments) : List (List CodePoint) :=
  file.map fun name : String => (Text.ofString name).points

/-- No name on the way to a file holds a backslash. -/
def IsPlain (file : Segments) : Prop :=
  ∀ name ∈ file, '\\' ∉ name.toList

instance (file : Segments) : Decidable (IsPlain file) :=
  inferInstanceAs (Decidable (∀ name ∈ file, '\\' ∉ name.toList))

/-- A slash and the name of a file as it is shown make up the path with these names. -/
theorem slash_shownName (file : Segments) :
    ("/" : Text) ++ (shownName file : Text) = Path.ofNames (namesFor file) := by
  refine Text.ext ?_
  show _ = Path.slash :: [Path.slash].intercalate (namesFor file)
  show CodePoint.char '/' :: ((shownName file).toList.map CodePoint.char) = _
  unfold shownName namesFor
  rw [String.toList_intercalate, Text.map_intercalate, List.map_map]
  rfl

theorem not_mem_slash_of_isDiskName {name : String} (h : IsDiskName name) :
    Path.slash ∉ (name : Text).points :=
  Text.not_mem_ofString String.ofList_toList.symm h.not_mem_slash

theorem not_mem_backslash_of_plain {name : String} (hplain : '\\' ∉ name.toList) :
    Path.backslash ∉ (name : Text).points :=
  Text.not_mem_ofString String.ofList_toList.symm hplain

theorem isName_of_isDiskName {name : String} (h : IsDiskName name) (hplain : '\\' ∉ name.toList) :
    IsName (name : Text).points := by
  have hchars : ∀ cs : List Char, (name : Text).points = cs.map CodePoint.char → name = String.ofList cs := by
    intro cs heq
    exact Text.points_ofString_injective (heq.trans (Text.points_ofString rfl).symm)
  refine ⟨fun heq => h.ne_empty (hchars [] heq), fun heq => h.ne_dot (hchars ['.'] heq),
    fun heq => h.ne_dots (hchars ['.', '.'] heq), fun point hpoint => ?_⟩
  have hslash : point ≠ Path.slash := ne_of_mem_of_not_mem hpoint (not_mem_slash_of_isDiskName h)
  have hback : point ≠ Path.backslash := ne_of_mem_of_not_mem hpoint (not_mem_backslash_of_plain hplain)
  exact Bool.or_eq_false_iff.mpr ⟨beq_eq_false_iff_ne.mpr hslash, beq_eq_false_iff_ne.mpr hback⟩

variable {disk : Disk} {directory : Segments}

/-- No file is loaded twice. -/
theorem Disk.WellFormed.nodup_textsIn (h : disk.WellFormed) : ((disk.textsIn directory).map Prod.fst).Nodup := by
  have hbeneath : ((disk.files.filter fun file =>
      directory.isPrefixOf file.1 && directory != file.1).map Prod.fst).Nodup :=
    h.nodup.sublist (List.filter_sublist.map Prod.fst)
  -- taking the directory off keeps names apart that all begin with it
  have hdropped : ((disk.files.filter fun file =>
      directory.isPrefixOf file.1 && directory != file.1).map
        fun file => file.1.drop directory.length).Nodup := by
    rw [← Function.comp_def (fun place => List.drop directory.length place) Prod.fst, ← List.map_map]
    refine List.Nodup.map_on (fun place hplace other hother heq => ?_) hbeneath
    have hbegins : ∀ name ∈ (disk.files.filter fun file =>
        directory.isPrefixOf file.1 && directory != file.1).map Prod.fst, directory <+: name := by
      intro name hname
      obtain ⟨file, hfile, rfl⟩ := List.mem_map.mp hname
      have hkept := (List.mem_filter.mp hfile).2
      rw [Bool.and_eq_true, List.isPrefixOf_iff_prefix] at hkept
      exact hkept.1
    obtain ⟨rest, rfl⟩ := hbegins place hplace
    obtain ⟨tail, rfl⟩ := hbegins other hother
    rw [List.drop_left, List.drop_left] at heq
    rw [heq]
  have hloadable : ((disk.loadable directory).map Prod.fst).Nodup := by
    unfold Disk.loadable
    refine List.Nodup.sublist (List.filter_sublist.map Prod.fst) ?_
    rw [List.map_map]
    exact hdropped
  have hsublist : ((disk.textsIn directory).map Prod.fst).Sublist ((disk.loadable directory).map Prod.fst) := by
    unfold Disk.textsIn
    generalize disk.loadable directory = files
    induction files with
    | nil => exact .slnil
    | cons file files ih =>
      rw [textsAmong_cons, List.map_cons]
      cases textOf? file.2 with
      | none => exact ih.cons file.1
      | some text => exact ih.cons_cons file.1
  exact hloadable.sublist hsublist

/-- The path of a file of which no name holds a backslash is the one that it has on the disk. -/
theorem Disk.WellFormed.pathFor_of_isPlain (h : disk.WellFormed) {file : Segments × String}
    (hmem : file ∈ disk.textsIn directory) (hplain : IsPlain file.1) :
    AreNames (namesFor file.1) ∧ pathFor file.1 = "/" ++ shownName file.1 := by
  obtain ⟨-, -, bytes, hfile, -⟩ := mem_textsIn_iff.mp hmem
  have hnames : AreNames (namesFor file.1) := by
    intro segment hsegment
    obtain ⟨name, hname, rfl⟩ := List.mem_map.mp hsegment
    exact isName_of_isDiskName (h.names_of_file _ hfile name (List.mem_append_right _ hname))
      (hplain name hname)
  refine ⟨hnames, ?_⟩
  unfold pathFor
  rw [slash_shownName]
  exact Path.isNormal_ofNames hnames

/-- **Files of which no name holds a backslash can all be loaded.** -/
theorem Disk.WellFormed.compatible_of_isPlain (h : disk.WellFormed)
    (hplain : ∀ file ∈ disk.textsIn directory, IsPlain file.1) :
    Compatible (pathsFor (disk.textsIn directory)) := by
  have hpath : ∀ file ∈ disk.textsIn directory,
      IsNormal (pathFor file.1) ∧ Path.names (pathFor file.1) = namesFor file.1 := by
    intro file hmem
    obtain ⟨hnames, hpath⟩ := h.pathFor_of_isPlain hmem (hplain file hmem)
    rw [slash_shownName] at hpath
    rw [hpath]
    exact ⟨Path.isNormal_ofNames hnames, Path.names_ofNames hnames⟩
  -- of two files the one is within the other only if they are one file
  have hwithin : ∀ file ∈ disk.textsIn directory, ∀ other ∈ disk.textsIn directory,
      Path.isWithin (pathFor file.1) (pathFor other.1) = true → file.1 = other.1 := by
    intro file hfile other hother hwithin
    obtain ⟨hfilenormal, hfilenames⟩ := hpath file hfile
    obtain ⟨hothernormal, hothernames⟩ := hpath other hother
    rw [hfilenormal.isWithin_iff hothernormal, hfilenames, hothernames] at hwithin
    have hbegins : other.1 <+: file.1 :=
      (List.prefix_map_iff_of_injective Text.points_ofString_injective).mp hwithin
    obtain ⟨-, -, bytes, hplace, -⟩ := mem_textsIn_iff.mp hfile
    obtain ⟨-, -, content, hotherplace, -⟩ := mem_textsIn_iff.mp hother
    exact (List.append_cancel_left
      (h.eq_of_prefix hotherplace hplace ((List.prefix_append_right_inj directory).mpr hbegins))).symm
  constructor
  · intro path hmem
    obtain ⟨file, hfile, rfl⟩ := List.mem_map.mp hmem
    obtain ⟨hnormal, hnames⟩ := hpath file hfile
    intro hroot
    rw [← hnormal.names_eq_nil_iff, hnames] at hroot
    exact (mem_textsIn_iff.mp hfile).1 (List.map_eq_nil_iff.mp hroot)
  · have hpairwise : (disk.textsIn directory).Pairwise fun file other => file.1 ≠ other.1 :=
      List.pairwise_map.mp h.nodup_textsIn
    refine List.pairwise_map.mpr (hpairwise.imp_of_mem fun {file other} hfile hother hne => ?_)
    exact ⟨Bool.eq_false_iff.mpr fun hin => hne (hwithin file hfile other hother hin),
      Bool.eq_false_iff.mpr fun hin => hne (hwithin other hother file hfile hin).symm⟩

/-! ## §7. Loading is exact -/

/-- **Loading a directory is exact.**  It fails only if the paths of two text files cannot stand
together, or one of them is the root, which takes a name with a backslash.  Else the tree has
exactly one file for each text file that is neither hidden nor skipped, with its text, and the other
files are named. -/
theorem load_exact {disk : Disk} (h : disk.WellFormed) (directory : Segments) :
    ((∃ loaded, load disk directory = .ok loaded) ↔ Compatible (pathsFor (disk.textsIn directory)))
      ∧ ((∀ file ∈ disk.textsIn directory, IsPlain file.1) →
        (∃ loaded, load disk directory = .ok loaded)
          ∧ ∀ file ∈ disk.textsIn directory, pathFor file.1 = "/" ++ shownName file.1)
      ∧ ∀ loaded, load disk directory = .ok loaded → IsLoaded disk directory loaded.1 loaded.2 := by
  refine ⟨exists_load_eq_ok_iff disk directory, fun hplain => ⟨?_, fun file hmem => ?_⟩,
    fun loaded hok => isLoaded_of_load disk directory hok⟩
  · exact (exists_load_eq_ok_iff disk directory).mpr (h.compatible_of_isPlain hplain)
  · exact (h.pathFor_of_isPlain hmem (hplain file hmem)).2

/-- A disk with a directory `p` of two text files, one of them in a directory of its own, and a hidden
file that is no text. -/
def plainDisk : Disk where
  files := [(["p", "a", "b"], "1\r\n".toUTF8), (["p", "c"], "2".toUTF8), (["p", ".d"], ⟨#[0xFF]⟩)]
  directories := []

theorem wellFormed_plainDisk : plainDisk.WellFormed :=
  ⟨by decide, by decide, by decide, by decide⟩

/-- The two text files of the disk are loaded. -/
theorem load_exact_plainDisk :
    plainDisk.WellFormed ∧ (plainDisk.textsIn ["p"]) = [(["a", "b"], "1\n"), (["c"], "2")]
      ∧ ∃ loaded, load plainDisk ["p"] = .ok loaded
        ∧ loaded.1.tree.files.Perm [("/a/b", .text "1\n"), ("/c", .text "2")] := by
  have htexts : plainDisk.textsIn ["p"] = [(["a", "b"], "1\n"), (["c"], "2")] := by decide
  obtain ⟨-, hplain, hloaded⟩ := load_exact wellFormed_plainDisk ["p"]
  obtain ⟨⟨loaded, hok⟩, hpaths⟩ := hplain (by rw [htexts]; decide)
  refine ⟨wellFormed_plainDisk, htexts, loaded, hok, ?_⟩
  have hfiles := (hloaded loaded hok).files
  rw [htexts] at hfiles
  exact hfiles

/-- A disk with a directory `p` of two text files: one of them has the name `a\b`, the other one is
named `b` and lies in a directory `a`. -/
def collidingDisk : Disk where
  files := [(["p", "a\\b"], "1".toUTF8), (["p", "a", "b"], "2".toUTF8)]
  directories := []

/-- Both text files of the disk would be loaded to one path, and so it is not loaded at all. -/
theorem load_collidingDisk :
    collidingDisk.WellFormed
      ∧ collidingDisk.textsIn ["p"] = [(["a\\b"], "1"), (["a", "b"], "2")]
      ∧ ¬∃ loaded, load collidingDisk ["p"] = .ok loaded := by
  have htexts : collidingDisk.textsIn ["p"] = [(["a\\b"], "1"), (["a", "b"], "2")] := by decide
  refine ⟨⟨by decide, by decide, by decide, by decide⟩, htexts, fun hok => ?_⟩
  have hcompatible := (exists_load_eq_ok_iff collidingDisk ["p"]).mp hok
  rw [htexts] at hcompatible
  have hseparate : Separate (pathFor ["a\\b"]) (pathFor ["a", "b"]) :=
    (List.pairwise_cons.mp hcompatible.separate).1 _ List.mem_cons_self
  have hsame : pathFor ["a\\b"] = pathFor ["a", "b"] := by decide
  rw [hsame] at hseparate
  exact Bool.eq_false_iff.mp hseparate.1 (isNormal_pathFor ["a", "b"]).isWithin_self

end LivePreview.Cli
