/-
  LivePreview.Proofs.Module.Reference
  ───────────────────────────────────
  **A reference holds the code of its module and the path it is shown under.**

  A reference is read back as the code that it was made for, with the line behind it that
  names the file (`decodeReference_referenceOf`).  So two references are equal exactly if
  the tagged codes are (`referenceOf_inj`).

  From a tagged code the path can be told as long as it is in normal form.  The code may
  end with such a line as well, but no mark stands behind that of the last line, since a
  mark holds two slashes and a normal form does not hold them together:

      code   \n//# sourceURL=@vfs   path   \n
             ↑ the last mark

  Hence the codes and the paths are equal (`tagged_inj`), or the other path is not in
  normal form and goes on to this one behind a mark of its own (`tagged_eq_iff`).

  The line begins as a comment does, and the comment goes on to the first line terminator,
  of which a script knows four.  The path stands in it as it is:

      \n   //# sourceURL=@vfs   path …            \n     a comment
      \n   //# sourceURL=@vfs   path … ¶ … path   \n     a comment up to ¶, and then a script

  So the tag is one comment exactly if there is no line terminator in the path; else the
  rest of the path is left behind the comment (`register_sourceTag`).  The normal form of a
  path keeps line terminators, so that there are files with such paths
  (`not_isLineComment_brokenName`).
-/
import LivePreview.Module.Registry
import LivePreview.Proofs.Path.Names
import LivePreview.Proofs.Text.Base64
import LivePreview.Proofs.Tree.Reachable

namespace LivePreview.Module

open LivePreview.Path (IsNormal)

/-! ## §1. Reading references -/

/-- The code is a text, and so its bytes are read back as it. -/
theorem fromUTF8?_toUTF8 (code : String) : String.fromUTF8? ⟨code.toUTF8.data.toList.toArray⟩ = some code := by
  rw [Array.toArray_toList]
  unfold String.fromUTF8?
  rw [dif_pos (show code.toUTF8.IsValidUTF8 from code.isValidUTF8)]
  rfl

/-- **A reference is read back as the tagged code.** -/
theorem decodeReference_referenceOf (code : String) (path? : Option String) :
    decodeReference (referenceOf code path?) = .ok (tagged code path?) := by
  have hchars : (referenceOf code path?).toList
      = referenceScheme.toList ++ Text.Base64.encode (tagged code path?).toUTF8.data.toList := by
    unfold referenceOf
    rw [String.toList_append, String.toList_ofList]
  have hstart : referenceScheme.toList.isPrefixOf (referenceOf code path?).toList = true := by
    rw [hchars, List.isPrefixOf_iff_prefix]
    exact List.prefix_append _ _
  have hrest : (referenceOf code path?).toList.drop referenceScheme.length
      = Text.Base64.encode (tagged code path?).toUTF8.data.toList := by
    rw [hchars, ← String.length_toList, List.drop_left]
  unfold decodeReference
  dsimp only
  rw [if_pos hstart, hrest, Text.Base64.decode_encode]
  dsimp only
  rw [fromUTF8?_toUTF8]

/-- References are equal exactly if the tagged codes are. -/
theorem referenceOf_inj {code other : String} {path? path'? : Option String} :
    referenceOf code path? = referenceOf other path'? ↔ tagged code path? = tagged other path'? := by
  constructor
  · intro heq
    have hread := decodeReference_referenceOf code path?
    rw [heq, decodeReference_referenceOf] at hread
    exact (Except.ok.inj hread).symm
  · intro heq
    unfold referenceOf
    rw [heq]

/-! ## §2. The last mark -/

section Marks

variable {α : Type} {first : α} {rest : List α}

/-- What begins with a member that a list lacks stands behind that list. -/
theorem append_eq_append_cons_iff (hfirst : first ∉ rest) {behind front back : List α} :
    rest ++ behind = front ++ first :: back
      ↔ ∃ between, front = rest ++ between ∧ behind = between ++ first :: back := by
  constructor
  · intro heq
    rcases List.append_eq_append_iff.mp heq with ⟨between, hfront, hbehind⟩ | ⟨between, hrest, hback⟩
    · exact ⟨between, hfront, hbehind⟩
    · cases between with
      | nil => exact ⟨[], by simpa using hrest.symm, by simpa using hback.symm⟩
      | cons other between =>
        obtain ⟨rfl, -⟩ := List.cons.inj hback
        exact absurd (hrest ▸ List.mem_append_right _ List.mem_cons_self) hfirst
  · rintro ⟨between, rfl, rfl⟩
    rw [List.append_assoc]

/-- A text with a mark in it, and none behind that one, is read in one way; another reading takes the
mark, and something in front of it, for a part of what stands behind an earlier mark. -/
theorem append_mark_eq_iff (hfirst : first ∉ rest) {front front' behind last : List α}
    (hlast : ¬ first :: rest <:+: last) :
    front ++ first :: (rest ++ behind) = front' ++ first :: (rest ++ last)
      ↔ front = front' ∧ behind = last
        ∨ ∃ between, behind = between ++ first :: (rest ++ last)
          ∧ front' = front ++ first :: (rest ++ between) := by
  constructor
  · intro heq
    rcases List.append_eq_append_iff.mp heq with ⟨more, hfront, hmore⟩ | ⟨more, hfront, hmore⟩
    · cases more with
      | nil => exact .inl (by simpa using And.intro hfront.symm hmore)
      | cons other more =>
        -- the mark that is the last one stands behind the other one
        obtain ⟨rfl, hbehind⟩ := List.cons.inj hmore
        obtain ⟨between, rfl, hbetween⟩ := (append_eq_append_cons_iff hfirst).mp hbehind
        exact .inr ⟨between, hbetween, hfront⟩
    · cases more with
      | nil => exact .inl (by simpa using And.intro hfront hmore.symm)
      | cons other more =>
        -- the other mark would stand behind the last one
        obtain ⟨rfl, hbehind⟩ := List.cons.inj hmore
        obtain ⟨between, -, hbetween⟩ := (append_eq_append_cons_iff hfirst).mp hbehind
        exact absurd ⟨between, behind, by rw [hbetween]; simp⟩ hlast
  · rintro (⟨rfl, rfl⟩ | ⟨between, rfl, rfl⟩)
    · rfl
    · simp

end Marks

/-! ## §3. Tagged codes -/

/-- What stands between a code and the path that it is tagged with. -/
def sourceMark : String :=
  "\n//# sourceURL=" ++ idStart

theorem toList_sourceMark : sourceMark.toList = '\n' :: "//# sourceURL=@vfs".toList := by
  decide

theorem tagged_some (code path : String) :
    tagged code (some path) = code ++ sourceMark ++ path ++ "\n" := by
  unfold tagged sourceMark
  simp only [String.append_assoc]

theorem toList_tagged (code path : String) : (tagged code (some path)).toList
    = (code.toList ++ '\n' :: ("//# sourceURL=@vfs".toList ++ path.toList)) ++ ['\n'] := by
  rw [tagged_some]
  simp only [String.toList_append, toList_sourceMark]
  simp

/-- The mark of a tag holds two slashes, and so it is no part of a normal form. -/
theorem not_infix_sourceMark {path : String} (h : IsNormal (path : Text)) :
    ¬ '\n' :: "//# sourceURL=@vfs".toList <:+: path.toList := by
  intro hinfix
  have hslashes : ['/', '/'] <:+: '\n' :: "//# sourceURL=@vfs".toList := by decide
  exact h.not_infix_slashes ((hslashes.trans hinfix).map CodePoint.char)

/-- A text that goes on behind a mark is no normal form. -/
theorem not_isNormal_mark (between name : String) :
    ¬ IsNormal ((between ++ sourceMark ++ name : String) : Text) := by
  intro hnormal
  refine not_infix_sourceMark hnormal ⟨between.toList, name.toList, ?_⟩
  simp [toList_sourceMark]

/-- **A tagged code can be read in one way**, if the path is in normal form, unless the other path is not
and goes on to this one behind a mark of its own. -/
theorem tagged_eq_iff {code other path name : String} (hname : IsNormal (name : Text)) :
    tagged code (some path) = tagged other (some name)
      ↔ code = other ∧ path = name
        ∨ ∃ between : String, path = between ++ sourceMark ++ name
          ∧ other = code ++ sourceMark ++ between := by
  have hfeed : '\n' ∉ "//# sourceURL=@vfs".toList := by decide
  rw [← String.toList_inj, toList_tagged, toList_tagged, List.append_left_inj,
    append_mark_eq_iff hfeed (not_infix_sourceMark hname)]
  refine or_congr (by rw [String.toList_inj, String.toList_inj]) ?_
  constructor
  · rintro ⟨between, hpath, hother⟩
    refine ⟨String.ofList between, ?_, ?_⟩
    · rw [← String.toList_inj, hpath]
      simp [toList_sourceMark]
    · rw [← String.toList_inj, hother]
      simp [toList_sourceMark]
  · rintro ⟨between, rfl, rfl⟩
    exact ⟨between.toList, by simp [toList_sourceMark], by simp [toList_sourceMark]⟩

/-- **Code and path can be told from a tagged code.** -/
theorem tagged_inj {code other path name : String} (hpath : IsNormal (path : Text))
    (hname : IsNormal (name : Text)) :
    tagged code (some path) = tagged other (some name) ↔ code = other ∧ path = name := by
  rw [tagged_eq_iff hname]
  refine or_iff_left ?_
  rintro ⟨between, rfl, -⟩
  exact not_isNormal_mark between name hpath

/-! ## §4. Line comments -/

/-- The character ends a line of a script. -/
def isLineTerminator (c : Char) : Bool :=
  c == '\n' || c == '\r' || c == '\u2028' || c == '\u2029'

/-- A line break, and a line that is a comment: nothing ends a line but the first and the last
character. -/
def IsLineComment (tag : String) : Prop :=
  ∃ comment, tag.toList = '\n' :: '/' :: '/' :: comment ++ ['\n']
    ∧ ∀ c ∈ comment, isLineTerminator c = false

/-- What is left of a text behind the comment in its second line. -/
def behindComment (tag : String) : List Char :=
  (tag.toList.drop 1).dropWhile (!isLineTerminator ·)

/-! ## §5. The tag of a name -/

/-- What is put behind a code to name its file. -/
def sourceTag (name : String) : String :=
  sourceMark ++ name ++ "\n"

theorem tagged_eq_append_sourceTag (code name : String) :
    tagged code (some name) = code ++ sourceTag name := by
  rw [tagged_some]
  unfold sourceTag
  simp only [String.append_assoc]

theorem toList_sourceTag (name : String) : (sourceTag name).toList
    = '\n' :: '/' :: '/' :: ("# sourceURL=@vfs".toList ++ name.toList) ++ ['\n'] := by
  have hmark : sourceMark.toList = '\n' :: '/' :: '/' :: "# sourceURL=@vfs".toList := by decide
  unfold sourceTag
  simp [hmark]

/-- The mark ends no line behind its line break. -/
theorem isLineTerminator_mark :
    ∀ c ∈ '/' :: '/' :: "# sourceURL=@vfs".toList, isLineTerminator c = false := by
  simp [isLineTerminator]

/-- **The tag is one comment exactly if no line ends in the name.** -/
theorem isLineComment_sourceTag_iff (name : String) :
    IsLineComment (sourceTag name) ↔ ∀ c ∈ name.toList, isLineTerminator c = false := by
  have hmark : ∀ c ∈ "# sourceURL=@vfs".toList, isLineTerminator c = false := fun c hc =>
    isLineTerminator_mark c (List.mem_cons_of_mem _ (List.mem_cons_of_mem _ hc))
  unfold IsLineComment
  rw [toList_sourceTag]
  constructor
  · rintro ⟨comment, htag, hcomment⟩ c hc
    have hline := List.append_cancel_right htag
    simp only [List.cons.injEq, true_and] at hline
    exact hcomment c (hline ▸ List.mem_append_right _ hc)
  · intro hname
    refine ⟨_, rfl, ?_⟩
    intro c hc
    exact (List.mem_append.mp hc).elim (hmark c) (hname c)

/-- Behind the comment stands the name from its first line terminator on. -/
theorem behindComment_sourceTag (name : String) :
    behindComment (sourceTag name) = name.toList.dropWhile (!isLineTerminator ·) ++ ['\n'] := by
  have htail : (sourceTag name).toList.drop 1
      = '/' :: '/' :: "# sourceURL=@vfs".toList ++ (name.toList ++ ['\n']) := by
    rw [toList_sourceTag]
    simp
  unfold behindComment
  rw [htail, List.dropWhile_append_of_pos (by simpa using isLineTerminator_mark)]
  generalize name.toList = cs
  -- the line break of the tag ends the comment at last
  induction cs with
  | nil => rfl
  | cons c cs ih =>
    by_cases hc : isLineTerminator c = true
    · simp [hc]
    · simpa [hc] using ih

/-- What is registered for a file is its code with a tag behind it, which is one comment exactly if no
line ends in the name of the file; what is left of the tag behind the comment is the name from its first
line terminator on. -/
theorem register_sourceTag (registry : Registry) (code name : String) :
    ∃ tag, decodeReference (registry.register code (some name)).1 = .ok (code ++ tag) ∧
      (IsLineComment tag ↔ ∀ c ∈ name.toList, isLineTerminator c = false) ∧
      behindComment tag = name.toList.dropWhile (!isLineTerminator ·) ++ ['\n'] := by
  refine ⟨sourceTag name, ?_, isLineComment_sourceTag_iff name, behindComment_sourceTag name⟩
  rw [← tagged_eq_append_sourceTag]
  exact decodeReference_referenceOf code (some name)

/-- A tree can hold a file in whose name a line ends; the rest of the name stands behind the comment,
as a line of its own. -/
theorem not_isLineComment_brokenName :
    (Tree.empty.run [.createFile "/a\nb.css" "p\x7b\x7d"]).isFileAt "/a\nb.css" = true ∧
    ∃ tag, decodeReference (Registry.empty.register "" (some "/a\nb.css")).1 = .ok ("" ++ tag) ∧
      ¬ IsLineComment tag ∧ behindComment tag = "\nb.css\n".toList := by
  refine ⟨by decide, sourceTag "/a\nb.css", ?_, ?_, ?_⟩
  · rw [← tagged_eq_append_sourceTag]
    exact decodeReference_referenceOf _ _
  · rw [isLineComment_sourceTag_iff]
    intro hname
    have hfeed : isLineTerminator '\n' = false := hname '\n' (by decide)
    cases hfeed
  · rw [behindComment_sourceTag]
    decide

end LivePreview.Module
