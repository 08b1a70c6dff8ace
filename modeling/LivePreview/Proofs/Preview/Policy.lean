/-
  LivePreview.Proofs.Preview.Policy
  ─────────────────────────────────
  **A policy says what it is meant to say if no origin holds a separator.**

  A policy is read by cutting it at its semicolons, and each directive at its white space
  (`directives`).  It is made for the origins of some URLs, each once and in ascending
  order (`ListsOrigins`), so that neither the order of the URLs nor their number matters.

  The authority of a URL ends where a path, a query or a fragment begins, and nothing
  else is kept out of it.  So there are two ways of saying more than was meant:

  * a URL of the configuration has white space or a semicolon in its authority;
  * it ends within its authority, and stands under a key that ends in a slash, so that
    the rest of a specifier goes on with the authority (`directives_smuggled`).

  A policy is read as it was meant if and only if no origin holds a separator
  (`directives_policyFor_iff`), and none does if both ways are closed
  (`IsGuarded.resolveExternal?`).
-/
import LivePreview.Preview.Page
import LivePreview.Proofs.Preview.Externals
import LivePreview.Proofs.Result
import LivePreview.Proofs.Text.Occurrence

namespace LivePreview.Text

/-! ## §1. What is appended to a URL -/

variable {url : Text}

/-- What stops within a list stops there, whatever is appended to the list. -/
theorem whiles_append {α : Type} {p : α → Bool} {items : List α} (h : items.dropWhile p ≠ [])
    (more : List α) : (items ++ more).takeWhile p = items.takeWhile p
      ∧ (items ++ more).dropWhile p = items.dropWhile p ++ more := by
  induction items with
  | nil => exact absurd rfl h
  | cons first items ih =>
    by_cases hfirst : p first = true
    · rw [List.dropWhile_cons_of_pos hfirst] at h
      obtain ⟨htake, hdrop⟩ := ih h
      rw [List.cons_append, List.takeWhile_cons_of_pos hfirst, List.takeWhile_cons_of_pos hfirst,
        List.dropWhile_cons_of_pos hfirst, List.dropWhile_cons_of_pos hfirst, htake, hdrop]
      exact ⟨rfl, rfl⟩
    · rw [List.cons_append, List.takeWhile_cons_of_neg hfirst, List.takeWhile_cons_of_neg hfirst,
        List.dropWhile_cons_of_neg hfirst, List.dropWhile_cons_of_neg hfirst]
      exact ⟨rfl, rfl⟩

theorem splitScheme_append {points scheme tail : List CodePoint}
    (h : splitScheme points = (scheme, .char '/' :: .char '/' :: tail)) (more : List CodePoint) :
    splitScheme (points ++ more) = (scheme, .char '/' :: .char '/' :: (tail ++ more)) := by
  unfold splitScheme at h ⊢
  cases hcolon : points.dropWhile (· != .char ':') with
  | cons colon rest =>
    -- the first colon, and the scheme in front of it, stay what they are
    have hstops : points.dropWhile (· != .char ':') ≠ [] := hcolon ▸ List.cons_ne_nil _ _
    obtain ⟨hfront, hbehind⟩ := whiles_append hstops more
    rw [hcolon] at h hbehind
    rw [hfront, hbehind]
    dsimp only [List.cons_append] at h ⊢
    split at h
    · next hscheme =>
      obtain ⟨rfl, rfl⟩ := Prod.mk.inj h
      rw [if_pos hscheme]
      rfl
    · next hscheme =>
      obtain ⟨rfl, rfl⟩ := Prod.mk.inj h
      rw [if_neg hscheme]
      rfl
  | nil =>
    rw [hcolon] at h
    obtain ⟨rfl, rfl⟩ := Prod.mk.inj h
    -- a slash begins no scheme, wherever the first colon is now
    dsimp only [List.cons_append]
    rw [List.takeWhile_cons_of_pos rfl, List.dropWhile_cons_of_pos rfl]
    split
    · rfl
    · rfl

theorem cleanUrl_append {points : List CodePoint} (h : cleanUrl points ≠ []) (more : List CodePoint) :
    cleanUrl (points ++ more) = cleanUrl points ++ more.filter (!·.is isBreak) := by
  unfold cleanUrl at h ⊢
  have hstops : (points.dropWhile fun point => point.toNat ≤ 0x20) ≠ [] := by
    rintro hnone
    rw [hnone] at h
    exact h rfl
  rw [(whiles_append hstops more).2, List.filter_append]

/-- The URL has an authority, and goes on behind it. -/
structure IsAuthorityEnded (url : Text) : Prop where
  authority_ne : (Url.ofText url).authority ≠ []
  rest_ne : (Url.ofText url).rest ≠ []

/-- **A URL that goes on behind its authority keeps it**, and its scheme, whatever is appended. -/
theorem IsAuthorityEnded.append (h : IsAuthorityEnded url) (more : Text) :
    (Url.ofText (url ++ more)).scheme = (Url.ofText url).scheme
      ∧ (Url.ofText (url ++ more)).authority = (Url.ofText url).authority := by
  obtain ⟨hauthority, hrest⟩ := h
  have hcut : ∀ {points scheme tail : List CodePoint},
      splitScheme (cleanUrl points) = (scheme, .char '/' :: .char '/' :: tail) →
        Url.ofText ⟨points⟩ = ⟨scheme, tail.takeWhile (!·.is endsAuthority),
          tail.dropWhile (!·.is endsAuthority)⟩ := by
    intro points scheme tail hsplit
    unfold Url.ofText
    simp only [hsplit]
  obtain ⟨scheme, tail, hsplit⟩ : ∃ scheme tail, splitScheme (cleanUrl url.points)
      = (scheme, .char '/' :: .char '/' :: tail) := by
    unfold Url.ofText at hauthority
    split at hauthority
    · next scheme tail hsplit => exact ⟨scheme, tail, hsplit⟩
    · exact absurd rfl hauthority
  have hclean : cleanUrl url.points ≠ [] := by
    intro hnone
    rw [hnone] at hsplit
    cases hsplit
  have hlonger := splitScheme_append hsplit (more.points.filter (!·.is isBreak))
  rw [← cleanUrl_append hclean] at hlonger
  rw [show Url.ofText url = _ from hcut hsplit] at hrest ⊢
  rw [show Url.ofText (url ++ more) = _ from hcut hlonger]
  exact ⟨rfl, (whiles_append hrest _).1⟩

end LivePreview.Text

namespace LivePreview.Preview

open LivePreview.Text (IsAuthorityEnded Url UrlFault origin)

/-! ## §2. Reading a policy -/

/-- White space of ASCII, which separates the words of a directive. -/
def isWordEnd (point : CodePoint) : Bool :=
  point.is fun c => c == ' ' || c == '\t' || c == '\n' || c == '\x0C' || c == '\r'

/-- The words of a directive. -/
def words (points : List CodePoint) : List Text :=
  ((points.splitOnP isWordEnd).filter (!·.isEmpty)).map Text.mk

/-- The directives of a policy, each as its words. -/
def directives (policy : Text) : List (List Text) :=
  (policy.points.splitOn (.char ';')).map words

/-- What a policy for some origins is meant to say. -/
def meant (origins : List Text) : List (List Text) :=
  [["default-src", "'none'"],
    "script-src" :: "'unsafe-inline'" :: "data:" :: origins,
    ["style-src", "'unsafe-inline'"],
    ["img-src", "data:", "blob:", "https:"],
    ["font-src", "data:", "https:"],
    "connect-src" :: if origins = [] then ["'none'"] else origins]

/-- The code point ends a word or a directive. -/
def separates (point : CodePoint) : Bool :=
  isWordEnd point || point == .char ';'

/-- The text is one word wherever it stands. -/
def IsWord (text : Text) : Prop :=
  ∀ point ∈ text.points, separates point = false

theorem isWord_of_mem_directives {policy word : Text} {directive : List Text}
    (hdirective : directive ∈ directives policy) (hword : word ∈ directive) : IsWord word := by
  obtain ⟨piece, hpiece, rfl⟩ := List.mem_map.mp hdirective
  obtain ⟨part, hpart, rfl⟩ := List.mem_map.mp hword
  intro point hpoint
  obtain ⟨hblank, hmem⟩ := Text.forall_of_mem_splitOnP (List.mem_of_mem_filter hpart) point hpoint
  rw [List.splitOn_eq_splitOnP] at hpiece
  have hsemicolon := (Text.forall_of_mem_splitOnP hpiece point hmem).1
  unfold separates
  rw [hblank, Bool.false_or]
  exact hsemicolon

/-! ## §3. The words of a list of origins -/

theorem words_append_cons (front rest : List CodePoint) :
    words (front ++ .char ' ' :: rest) = words front ++ words rest := by
  unfold words
  rw [List.splitOnP_append_cons _ _ (show isWordEnd (.char ' ') = true from rfl), List.filter_append,
    List.map_append]

theorem words_of_isWord {text : Text} (hne : text ≠ "") (h : IsWord text) : words text.points = [text] := by
  have hfilled : text.points.isEmpty = false := by
    cases hpoints : text.points with
    | nil => exact absurd (Text.ext hpoints) hne
    | cons => rfl
  unfold words
  rw [List.splitOnP_eq_singleton fun point hpoint => (Bool.or_eq_false_iff.mp (h point hpoint)).1,
    List.filter_cons_of_pos (by rw [hfilled]; rfl)]
  rfl

variable {origins : List Text}

theorem points_spaced (hne : ∀ origin ∈ origins, origin ≠ "") :
    (spaced origins).points = [.char ' '].intercalate (origins.map Text.points) := by
  have hall : origins.filter (!·.isEmpty) = origins := by
    refine List.filter_eq_self.mpr fun origin horigin => ?_
    cases hpoints : origin.points with
    | nil => exact absurd (Text.ext hpoints) (hne origin horigin)
    | cons => simp [Text.isEmpty, hpoints]
  unfold spaced
  rw [hall]
  rfl

theorem words_spaced (hne : ∀ origin ∈ origins, origin ≠ "") (h : ∀ origin ∈ origins, IsWord origin) :
    words (spaced origins).points = origins := by
  rw [points_spaced hne]
  induction origins with
  | nil => rfl
  | cons origin origins ih =>
    obtain ⟨hfirst, hrest⟩ := List.forall_mem_cons.mp hne
    obtain ⟨hword, hwords⟩ := List.forall_mem_cons.mp h
    cases origins with
    | nil => rw [List.map_singleton, List.intercalate_singleton, words_of_isWord hfirst hword]
    | cons next origins =>
      rw [List.map_cons, List.map_cons, List.intercalate_cons_cons, List.append_assoc, List.singleton_append,
        ← List.map_cons, words_append_cons, words_of_isWord hfirst hword, ih hrest hwords,
        List.singleton_append]

theorem isEmpty_spaced (hne : ∀ origin ∈ origins, origin ≠ "") :
    (spaced origins).isEmpty = true ↔ origins = [] := by
  constructor
  · intro hempty
    have hnil : (spaced origins).points = [] := List.isEmpty_iff.mp hempty
    cases origins with
    | nil => rfl
    | cons origin origins =>
      -- the first origin holds something
      have hfirst : origin.points = [] := by
        rw [points_spaced hne, List.map_cons] at hnil
        cases origins with
        | nil => rwa [List.map_nil, List.intercalate_singleton] at hnil
        | cons next origins =>
          rw [List.map_cons, List.intercalate_cons_cons, List.append_eq_nil_iff, List.append_eq_nil_iff] at hnil
          exact hnil.1.1
      exact absurd (Text.ext hfirst) (hne origin List.mem_cons_self)
  · rintro rfl
    rfl

theorem semicolon_not_mem_spaced (hne : ∀ origin ∈ origins, origin ≠ "")
    (h : ∀ origin ∈ origins, IsWord origin) : .char ';' ∉ (spaced origins).points := by
  rw [points_spaced hne]
  refine Text.not_mem_intercalate (by decide) fun piece hpiece hmem => ?_
  obtain ⟨origin, horigin, rfl⟩ := List.mem_map.mp hpiece
  exact absurd (h origin horigin _ hmem) (by decide)

/-! ## §4. Reading the policy for some origins -/

/-- A policy as its directives, with semicolons between them. -/
theorem points_policyFor (origins : List Text) :
    let connections : Text := if (spaced origins).isEmpty then "'none'" else spaced origins
    (policyFor origins).points = ("default-src 'none'" : Text).points ++ .char ';'
      :: ((" script-src" : Text).points
          ++ .char ' ' :: (spaced ["'unsafe-inline'", "data:", spaced origins]).points ++ .char ';'
      :: ((" style-src 'unsafe-inline'" : Text).points ++ .char ';'
      :: ((" img-src data: blob: https:" : Text).points ++ .char ';'
      :: ((" font-src data: https:" : Text).points ++ .char ';'
      :: ((" connect-src" : Text).points ++ .char ' ' :: connections.points))))) := by
  intro connections
  -- the fixed parts in front of the origins and behind them
  have hfront : ("default-src 'none'; " : Text).points ++ ("script-src " : Text).points
      = ("default-src 'none'" : Text).points ++ .char ';' :: ((" script-src" : Text).points ++ [.char ' ']) := by
    decide +kernel
  have hback : ("; " : Text).points ++ (("style-src 'unsafe-inline'; " : Text).points
      ++ (("img-src data: blob: https:; " : Text).points ++ (("font-src data: https:; " : Text).points
      ++ ("connect-src " : Text).points)))
      = .char ';' :: ((" style-src 'unsafe-inline'" : Text).points ++ .char ';'
        :: ((" img-src data: blob: https:" : Text).points ++ .char ';'
        :: ((" font-src data: https:" : Text).points ++ .char ';'
        :: ((" connect-src" : Text).points ++ [.char ' '])))) := by
    decide +kernel
  show (((((((("default-src 'none'; " : Text).points ++ ("script-src " : Text).points)
    ++ (spaced ["'unsafe-inline'", "data:", spaced origins]).points) ++ ("; " : Text).points)
    ++ ("style-src 'unsafe-inline'; " : Text).points) ++ ("img-src data: blob: https:; " : Text).points)
    ++ ("font-src data: https:; " : Text).points) ++ ("connect-src " : Text).points)
    ++ connections.points = _
  rw [hfront]
  have hassoc : ∀ a b c d e f g h : List CodePoint, a ++ b ++ c ++ d ++ e ++ f ++ g ++ h
      = a ++ (b ++ ((c ++ (d ++ (e ++ (f ++ g)))) ++ h)) := fun a b c d e f g h => by simp only [List.append_assoc]
  rw [hassoc, hback]
  simp only [List.append_assoc, List.cons_append, List.nil_append]

/-- A directive that is ended by a semicolon is read, and then the others. -/
theorem splitOn_semicolon {front : List CodePoint} (h : .char ';' ∉ front) (rest : List CodePoint) :
    ((front ++ .char ';' :: rest).splitOn (.char ';')).map words
      = words front :: (rest.splitOn (.char ';')).map words := by
  have hcut : (front ++ .char ';' :: rest).splitOn (.char ';')
      = front.splitOn (.char ';') ++ rest.splitOn (.char ';') :=
    List.splitOnP_append_cons (p := (· == CodePoint.char ';')) front rest rfl
  rw [hcut, List.splitOn_eq_singleton h]
  rfl

theorem points_spaced_scripts {hosts : Text} (h : hosts.isEmpty = false) :
    (spaced ["'unsafe-inline'", "data:", hosts]).points
      = ("'unsafe-inline' data:" : Text).points ++ .char ' ' :: hosts.points := by
  unfold spaced Text.intercalate
  rw [List.filter_cons_of_pos rfl, List.filter_cons_of_pos rfl, List.filter_cons_of_pos (by rw [h]; rfl),
    List.filter_nil, List.map_cons, List.map_cons, List.map_singleton, List.intercalate_cons_cons,
    List.intercalate_cons_cons, List.intercalate_singleton]
  rfl

theorem directives_policyFor (hne : ∀ origin ∈ origins, origin ≠ "") (h : ∀ origin ∈ origins, IsWord origin) :
    directives (policyFor origins) = meant origins := by
  by_cases hnone : origins = []
  · rw [hnone]
    decide +kernel
  · have hfilled : (spaced origins).isEmpty = false :=
      Bool.eq_false_iff.mpr fun hempty => hnone ((isEmpty_spaced hne).mp hempty)
    have hsemicolon := semicolon_not_mem_spaced hne h
    have hscripts_free : .char ';' ∉ (" script-src" : Text).points ++ .char ' '
        :: (("'unsafe-inline' data:" : Text).points ++ .char ' ' :: (spaced origins).points) := by
      simp only [List.mem_append, List.mem_cons, not_or]
      exact ⟨by decide, by decide, by decide, by decide, hsemicolon⟩
    have hconnections_free :
        .char ';' ∉ (" connect-src" : Text).points ++ .char ' ' :: (spaced origins).points := by
      simp only [List.mem_append, List.mem_cons, not_or]
      exact ⟨by decide, by decide, hsemicolon⟩
    unfold directives
    rw [points_policyFor, hfilled, points_spaced_scripts hfilled, splitOn_semicolon (by decide),
      splitOn_semicolon hscripts_free, splitOn_semicolon (by decide), splitOn_semicolon (by decide), splitOn_semicolon (by decide),
      if_neg Bool.false_ne_true, List.splitOn_eq_singleton hconnections_free, List.map_singleton,
      words_append_cons, words_append_cons, words_append_cons, words_spaced hne h]
    unfold meant
    rw [if_neg hnone]
    rfl

/-- **A policy is read as it was meant if and only if no origin holds a separator.** -/
theorem directives_policyFor_iff (hne : ∀ origin ∈ origins, origin ≠ "") :
    directives (policyFor origins) = meant origins ↔ ∀ origin ∈ origins, IsWord origin := by
  constructor
  · intro hmeant origin horigin
    have hdirective : ("script-src" :: "'unsafe-inline'" :: "data:" :: origins : List Text)
        ∈ directives (policyFor origins) := by
      rw [hmeant]
      exact List.mem_cons_of_mem _ List.mem_cons_self
    refine isWord_of_mem_directives hdirective ?_
    exact List.mem_cons_of_mem _ (List.mem_cons_of_mem _ (List.mem_cons_of_mem _ horigin))
  · exact directives_policyFor hne

/-! ## §5. The origins of URLs -/

/-- The origins of some URLs, each once and in ascending order. -/
structure ListsOrigins (urls found : List Text) : Prop where
  ascending : found.Pairwise fun a b => compare a b = .lt
  mem_iff : ∀ x, x ∈ found ↔ x ≠ "" ∧ ∃ url ∈ urls, origin url = .ok x

variable {urls others found : List Text}

theorem ListsOrigins.ne_empty (h : ListsOrigins urls found) : ∀ x ∈ found, x ≠ "" :=
  fun x hmem => ((h.mem_iff x).mp hmem).1

/-- The URLs without their order and their number decide about the list. -/
theorem ListsOrigins.congr (h : ListsOrigins urls found) (hsame : ∀ url, url ∈ others ↔ url ∈ urls) :
    ListsOrigins others found := by
  refine ⟨h.ascending, fun x => ?_⟩
  simp only [h.mem_iff, hsame]

theorem ListsOrigins.unique {listed : List Text} (h : ListsOrigins urls found)
    (hlisted : ListsOrigins urls listed) : found = listed := by
  have hirrefl : ∀ a : Text, compare a a ≠ .lt := by
    intro a hlt
    rw [Std.ReflOrd.compare_self] at hlt
    cases hlt
  have hnodup : ∀ {texts : List Text}, texts.Pairwise (fun a b => compare a b = .lt) → texts.Nodup := by
    intro texts hascending
    refine hascending.imp fun {a b} hlt heq => ?_
    rw [heq] at hlt
    exact hirrefl b hlt
  have hperm : found.Perm listed := (List.perm_ext_iff_of_nodup (hnodup h.ascending)
    (hnodup hlisted.ascending)).mpr fun x => (h.mem_iff x).trans (hlisted.mem_iff x).symm
  refine hperm.eq_of_pairwise (fun a b _ _ hab hba => ?_) h.ascending hlisted.ascending
  exact absurd (Std.TransCmp.lt_trans hab hba) (hirrefl a)

theorem mapM_origin {all : List Text} (h : urls.mapM origin = .ok all) (x : Text) :
    x ∈ all ↔ ∃ url ∈ urls, origin url = .ok x := by
  induction urls generalizing all with
  | nil =>
    cases h
    simp
  | cons url urls ih =>
    rw [List.mapM_cons] at h
    obtain ⟨first, hfirst, h⟩ := Result.bind_eq_ok_iff.mp h
    obtain ⟨rest, hrest, h⟩ := Result.bind_eq_ok_iff.mp h
    obtain rfl := Except.ok.inj h
    rw [List.mem_cons, ih hrest, List.exists_mem_cons_iff, hfirst, Except.ok.injEq, eq_comm]

theorem exists_mapM_origin (hok : ∀ url ∈ urls, ∃ x, origin url = .ok x) :
    ∃ all, urls.mapM origin = .ok all := by
  induction urls with
  | nil => exact ⟨[], rfl⟩
  | cons url urls ih =>
    obtain ⟨⟨first, hfirst⟩, hurls⟩ := List.forall_mem_cons.mp hok
    obtain ⟨rest, hrest⟩ := ih hurls
    exact ⟨first :: rest, by rw [List.mapM_cons, hfirst, hrest]; rfl⟩

/-- URLs none of which is malformed have a list of origins. -/
theorem exists_listsOrigins (hok : ∀ url ∈ urls, ∃ x, origin url = .ok x) :
    ∃ found, Preview.origins urls = .ok found ∧ ListsOrigins urls found := by
  obtain ⟨all, hall⟩ := exists_mapM_origin hok
  refine ⟨(Std.ExtTreeSet.ofList (all.filter (!·.isEmpty)) compare).toList, ?_, ?_, fun x => ?_⟩
  · unfold Preview.origins
    rw [hall]
    rfl
  · exact Std.ExtTreeSet.ordered_toList
  · have hfilled : (!x.isEmpty) = true ↔ x ≠ "" := by
      rw [Bool.not_eq_true', ← Bool.not_eq_true, not_iff_not]
      exact List.isEmpty_iff.trans ⟨fun h => Text.ext h, fun h => congrArg Text.points h⟩
    rw [Std.ExtTreeSet.mem_toList, Std.ExtTreeSet.mem_ofList, List.contains_iff_mem, List.mem_filter,
      hfilled, mapM_origin hall, and_comm]

/-! ## §6. Separators in the authority of a URL -/

/-- No separator stands in the authority of the URL, if it has an origin at all. -/
def HasPlainAuthority (url : Text) : Prop :=
  (Url.ofText url).scheme ≠ [] → ∀ point ∈ (Url.ofText url).authority, separates point = false

theorem separates_toLower {c : Char} (h : Text.isSchemeChar c = true) :
    separates (.char c.toLower) = false := by
  have hall : ∀ code < 0x80, Text.isSchemeChar (Char.ofNat code) = true →
      separates (.char (Char.ofNat code).toLower) = false := by
    decide +kernel
  have hascii : c.toNat < 0x80 := by
    unfold Text.isSchemeChar at h
    simp only [Bool.or_eq_true, beq_iff_eq] at h
    rcases h with ((h | rfl) | rfl) | rfl
    · have hupper : 'Z'.toNat = 90 ∧ 'z'.toNat = 122 ∧ '9'.toNat = 57 := ⟨rfl, rfl, rfl⟩
      delta Char.isAlphanum Char.isAlpha Char.isUpper Char.isLower Char.isDigit at h
      simp only [Bool.or_eq_true, Bool.and_eq_true, decide_eq_true_eq, UInt32.le_iff_toNat_le, ge_iff_le] at h
      unfold Char.toNat at hupper ⊢
      omega
    all_goals decide
  rw [← Char.ofNat_toNat c] at h ⊢
  exact hall c.toNat hascii h

/-- The characters of a scheme separate nothing. -/
theorem separates_of_mem_scheme {url : Text} {point : CodePoint} (h : point ∈ (Url.ofText url).scheme) :
    separates point = false := by
  have hscheme : (Url.ofText url).scheme = (Text.splitScheme (Text.cleanUrl url.points)).1 := by
    unfold Url.ofText
    split
    · next hsplit => rw [hsplit]
    · next hsplit => rw [hsplit]
  rw [hscheme] at h
  unfold Text.splitScheme at h
  dsimp only at h
  split at h
  · split at h
    · next hchars =>
      obtain ⟨c, hc, rfl⟩ := List.mem_map.mp h
      obtain ⟨original, horiginal, hchar⟩ := List.mem_filterMap.mp hc
      have hallowed := List.all_eq_true.mp (Bool.and_eq_true_iff.mp hchars).2 original horiginal
      cases original with
      | half offset => cases hchar
      | char d =>
        cases hchar
        exact separates_toLower hallowed
    · cases h
  · cases h

/-- The origin of a URL is one word if and only if no separator stands in its authority. -/
theorem isWord_origin_iff {url : Text} (hok : ∃ x, origin url = .ok x) :
    (∀ x : Text, x ≠ "" → origin url = .ok x → IsWord x) ↔ HasPlainAuthority url := by
  obtain ⟨x, hx⟩ := hok
  have hform : (if (Url.ofText url).scheme.isEmpty || (Url.ofText url).authority.isEmpty then ("" : Text)
      else ⟨(Url.ofText url).scheme⟩ ++ "://" ++ ⟨(Url.ofText url).authority⟩) = x := by
    unfold origin at hx
    dsimp only at hx
    split at hx
    · cases hx
    · split at hx
      · next hmissing => rw [if_pos hmissing]; exact Except.ok.inj hx
      · next hmissing => rw [if_neg hmissing]; exact Except.ok.inj hx
  have honly : (∀ y : Text, y ≠ "" → origin url = .ok y → IsWord y) ↔ (x ≠ "" → IsWord x) := by
    constructor
    · exact fun h hne => h x hne hx
    · intro h y hne hy
      cases hx.symm.trans hy
      exact h hne
  rw [honly]
  unfold HasPlainAuthority
  split at hform
  · next hmissing =>
    -- a URL without scheme or authority has the empty text for its origin
    rw [Bool.or_eq_true, List.isEmpty_iff, List.isEmpty_iff] at hmissing
    refine iff_of_true (fun hne => absurd hform.symm hne) fun hscheme point hpoint => ?_
    rw [hmissing.resolve_left hscheme] at hpoint
    cases hpoint
  · next hmissing =>
    rw [Bool.or_eq_true, not_or, List.isEmpty_iff, List.isEmpty_iff] at hmissing
    subst hform
    have hfilled : (⟨(Url.ofText url).scheme⟩ ++ ("://" : Text) ++ ⟨(Url.ofText url).authority⟩ : Text) ≠ "" := by
      intro hempty
      have hpoints : (Url.ofText url).scheme ++ ("://" : Text).points ++ (Url.ofText url).authority = [] :=
        congrArg Text.points hempty
      exact hmissing.2 (List.append_eq_nil_iff.mp hpoints).2
    constructor
    · intro h _ point hpoint
      exact h hfilled point (List.mem_append_right _ hpoint)
    · intro h _ point hpoint
      rcases List.mem_append.mp hpoint with hfront | hauthority
      · rcases List.mem_append.mp hfront with hscheme | hmark
        · exact separates_of_mem_scheme hscheme
        · have hmarks : ∀ point ∈ ("://" : Text).points, separates point = false := by decide
          exact hmarks point hmark
      · exact h hmissing.1 point hauthority

/-! ## §7. URLs that are looked up -/

/-- No URL of the table has a separator in its authority, and those that stand for all that lies
beneath a key go on behind their authorities. -/
structure IsGuarded (externals : Table Text) : Prop where
  plain : ∀ entry ∈ externals, HasPlainAuthority entry.2
  ended : ∀ entry ∈ externals, entry.1.points.getLast? = some (.char '/') → Text.IsAuthorityEnded entry.2

theorem exists_append_of_resolveExternal? {externals : Table Text} {specifier url : Text}
    (h : resolveExternal? externals specifier = some url) :
    url ∈ externals.values ∨ ∃ entry ∈ externals, entry.1.points.getLast? = some (.char '/')
      ∧ url = entry.2 ++ specifier.drop entry.1.length := by
  unfold Preview.resolveExternal? at h
  split at h
  · next hget =>
    cases h
    exact .inl (Table.mem_values_of_get? hget)
  · obtain ⟨entry, hentry, rfl⟩ := Option.map_eq_some_iff.mp h
    obtain ⟨hmem, hcovers⟩ := List.mem_filter.mp ((mem_of_foldl_longerKey hentry).resolve_right nofun)
    unfold coversPath at hcovers
    exact .inr ⟨entry, hmem, beq_iff_eq.mp (Bool.and_eq_true_iff.mp hcovers).1, rfl⟩

/-- **A guarded table leads to plain authorities only**, whatever the specifier is. -/
theorem IsGuarded.resolveExternal? {externals : Table Text} (h : IsGuarded externals) {specifier url : Text}
    (hurl : resolveExternal? externals specifier = some url) : HasPlainAuthority url := by
  rcases exists_append_of_resolveExternal? hurl with hvalue | ⟨entry, hentry, hslash, rfl⟩
  · obtain ⟨entry, hentry, rfl⟩ := List.mem_map.mp hvalue
    exact h.plain entry hentry
  · obtain ⟨hscheme, hauthority⟩ := (h.ended entry hentry hslash).append (specifier.drop entry.1.length)
    unfold HasPlainAuthority
    rw [hscheme, hauthority]
    exact h.plain entry hentry

/-! ## §8. What a policy says -/

/-- For all URLs none of which is malformed: the policy is the one for the list of their origins, each
once and in ascending order, whatever the order of the URLs is and however often they occur.  It is
cut at its semicolons into the six directives that are meant, with just these origins for scripts and
connections, if and only if no URL with a scheme has a separator in its authority; and none has if
they have been looked up in a guarded table. -/
theorem contentSecurityPolicy_exact (urls : List Text) (hok : ∀ url ∈ urls, ∃ x, origin url = .ok x) :
    ∃ found, ListsOrigins urls found ∧ (∀ listed, ListsOrigins urls listed → listed = found)
      ∧ (∀ others, (∀ url, url ∈ others ↔ url ∈ urls) →
        contentSecurityPolicy others = .ok (policyFor found))
      ∧ (directives (policyFor found) = meant found ↔ ∀ url ∈ urls, HasPlainAuthority url)
      ∧ ∀ externals, IsGuarded externals →
        (∀ url ∈ urls, ∃ specifier, resolveExternal? externals specifier = some url) →
          directives (policyFor found) = meant found := by
  obtain ⟨found, -, hfound⟩ := exists_listsOrigins hok
  have hmeant : directives (policyFor found) = meant found ↔ ∀ url ∈ urls, HasPlainAuthority url := by
    rw [directives_policyFor_iff hfound.ne_empty]
    constructor
    · intro hwords url hurl
      refine (isWord_origin_iff (hok url hurl)).mp fun x hne hx => hwords x ?_
      exact (hfound.mem_iff x).mpr ⟨hne, url, hurl, hx⟩
    · intro hplain x hmem
      obtain ⟨hne, url, hurl, hx⟩ := (hfound.mem_iff x).mp hmem
      exact (isWord_origin_iff (hok url hurl)).mpr (hplain url hurl) x hne hx
  refine ⟨found, hfound, fun listed hlisted => hlisted.unique hfound, fun others hsame => ?_, hmeant,
    fun externals hguarded hlooked => hmeant.mpr fun url hurl => ?_⟩
  · obtain ⟨listed, horigins, hlisted⟩ := exists_listsOrigins fun url hurl => hok url ((hsame url).mp hurl)
    have hcongr : ListsOrigins urls listed := hlisted.congr fun url => (hsame url).symm
    unfold contentSecurityPolicy
    rw [horigins, hcongr.unique hfound]
    rfl
  · obtain ⟨specifier, hurl⟩ := hlooked url hurl
    exact hguarded.resolveExternal? hurl

/-! ## §9. A library, and a host without a path -/

def libraryExternals : Table Text :=
  [("react", "https://esm.sh/react@18.3.1"), ("lib/", "https://cdn.example/lib/")]

theorem isGuarded_libraryExternals : IsGuarded libraryExternals := by
  refine ⟨fun entry hentry => ?_, fun entry hentry hslash => ⟨?_, ?_⟩⟩
  · have hall : ∀ entry ∈ libraryExternals, ∀ point ∈ (Url.ofText entry.2).authority,
        separates point = false := by
      decide +kernel
    exact fun _ => hall entry hentry
  · have hall : ∀ entry ∈ libraryExternals, (Url.ofText entry.2).authority ≠ [] := by decide +kernel
    exact hall entry hentry
  · have hall : ∀ entry ∈ libraryExternals, (Url.ofText entry.2).rest ≠ [] := by decide +kernel
    exact hall entry hentry

/-- The rest of a specifier stays out of the policy if the library has a path. -/
theorem contentSecurityPolicy_exact_library :
    resolveExternal? libraryExternals "lib/; script-src *" = some "https://cdn.example/lib/; script-src *" ∧
    ∃ found, ListsOrigins ["https://cdn.example/lib/; script-src *"] found
      ∧ contentSecurityPolicy ["https://cdn.example/lib/; script-src *"] = .ok (policyFor found)
      ∧ directives (policyFor found) = meant found := by
  have hresolved : resolveExternal? libraryExternals "lib/; script-src *"
      = some "https://cdn.example/lib/; script-src *" := by
    decide +kernel
  have hok : Text.origin "https://cdn.example/lib/; script-src *" = .ok "https://cdn.example" := by
    decide +kernel
  obtain ⟨found, hfound, -, hpolicy, -, hguarded⟩ := contentSecurityPolicy_exact
    ["https://cdn.example/lib/; script-src *"] (List.forall_mem_singleton.mpr ⟨_, hok⟩)
  refine ⟨hresolved, found, hfound, hpolicy _ fun _ => Iff.rfl, hguarded libraryExternals
    isGuarded_libraryExternals (List.forall_mem_singleton.mpr ⟨_, hresolved⟩)⟩

/-- The library is a host and no path: the rest of a specifier becomes part of the authority, and
adds a directive. -/
theorem directives_smuggled :
    resolveExternal? [("lib/", "https://cdn.example")] "lib/; script-src *"
        = some "https://cdn.example; script-src *"
      ∧ Text.origin "https://cdn.example; script-src *" = .ok "https://cdn.example; script-src *"
      ∧ (contentSecurityPolicy ["https://cdn.example; script-src *"]).toOption.map directives
        = some ([["default-src", "'none'"],
          ["script-src", "'unsafe-inline'", "data:", "https://cdn.example"],
          ["script-src", "*"],
          ["style-src", "'unsafe-inline'"],
          ["img-src", "data:", "blob:", "https:"],
          ["font-src", "data:", "https:"],
          ["connect-src", "https://cdn.example"],
          ["script-src", "*"]] : List (List Text)) := by
  refine ⟨?_, ?_, ?_⟩ <;> decide +kernel

end LivePreview.Preview
