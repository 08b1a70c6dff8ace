/-
  LivePreview.Proofs.Preview.Externals
  ────────────────────────────────────
  **Where the externals of a page come from.**

  The table of externals is read once, from left to right, and the longest key so far is
  kept.  What is left at the end does not depend on the order (`resolveExternal?_exact`):
  two keys that cover one specifier both begin it, so that keys of one length are one key.
  Hence a specifier stands for what the table finds (`Finds`), its own URL or that of the
  longest key that covers it.

  A build enters each external once, with the URL that the configuration has for it, and
  changes it no more (`IsConfigured`).  The URL is found under a key that the specifier
  begins with (`exists_key_of_resolveExternal?`); so the externals are apart from the ids
  of modules where no key of the configuration begins as ids do
  (`IsConfigured.not_idOf`).
-/
import LivePreview.Proofs.Preview.DepthFirst
import LivePreview.Proofs.Preview.Linked

namespace LivePreview.Preview

/-! ## §1. Keys that cover a specifier -/

section Covering

variable {key other specifier rest : Text}

/-- The key ends in a slash, and the specifier is the key with a rest behind it. -/
def Covers (key specifier rest : Text) : Prop :=
  (∃ front, key = front ++ ("/" : Text)) ∧ specifier = key ++ rest

theorem coversPath_iff : coversPath key specifier = true ↔ ∃ rest, Covers key specifier rest := by
  have hends : key.points.getLast? = some (.char '/') ↔ ∃ front, key = front ++ ("/" : Text) := by
    rw [List.getLast?_eq_some_iff]
    constructor
    · rintro ⟨front, hfront⟩
      exact ⟨⟨front⟩, Text.ext hfront⟩
    · rintro ⟨front, rfl⟩
      exact ⟨front.points, rfl⟩
  have hbegins : specifier.startsWith key = true ↔ ∃ rest, specifier = key ++ rest := by
    unfold Text.startsWith
    rw [List.isPrefixOf_iff_prefix]
    constructor
    · rintro ⟨rest, hrest⟩
      exact ⟨⟨rest⟩, Text.ext hrest.symm⟩
    · rintro ⟨rest, rfl⟩
      exact ⟨rest.points, rfl⟩
  unfold coversPath Covers
  rw [Bool.and_eq_true, beq_iff_eq, hends, hbegins, exists_and_left]

theorem Covers.drop_eq (h : Covers key specifier rest) : specifier.drop key.length = rest := by
  obtain ⟨-, rfl⟩ := h
  exact Text.ext List.drop_left

theorem Covers.isPrefix (h : Covers key specifier rest) : key.points <+: specifier.points := by
  obtain ⟨-, rfl⟩ := h
  exact List.prefix_append _ _

/-- Keys of one length that cover a specifier are one key. -/
theorem Covers.eq_of_length_eq {left : Text} (h : Covers key specifier rest)
    (hother : Covers other specifier left) (hlength : other.length = key.length) : other = key := by
  have hbegins : other.points <+: key.points :=
    List.prefix_of_prefix_length_le hother.isPrefix h.isPrefix hlength.le
  exact Text.ext (hbegins.eq_of_length hlength)

end Covering

/-! ## §2. The longest key -/

section Longest

variable {entries : List (Text × Text)} {best? : Option (Text × Text)} {entry : Text × Text}

theorem mem_of_foldl_longerKey (h : entries.foldl longerKey best? = some entry) :
    entry ∈ entries ∨ best? = some entry := by
  induction entries generalizing best? with
  | nil => exact .inr h
  | cons first entries ih =>
    rcases ih h with hmem | hbest
    · exact .inl (List.mem_cons_of_mem _ hmem)
    · unfold longerKey at hbest
      split at hbest
      · cases hbest
        exact .inl List.mem_cons_self
      · split at hbest
        · cases hbest
          exact .inl List.mem_cons_self
        · exact .inr hbest

/-- What is kept of two keys is as long as each of them. -/
theorem exists_longerKey (best? : Option (Text × Text)) (first : Text × Text) :
    ∃ longer, longerKey best? first = some longer ∧ first.1.length ≤ longer.1.length ∧
      ∀ best, best? = some best → best.1.length ≤ longer.1.length := by
  unfold longerKey
  split
  · exact ⟨first, rfl, Nat.le_refl _, nofun⟩
  · next best =>
    split
    · next hshorter =>
      refine ⟨first, rfl, Nat.le_refl _, fun other hother => ?_⟩
      cases hother
      exact hshorter.le
    · next hlonger =>
      refine ⟨best, rfl, Nat.le_of_not_lt hlonger, fun other hother => ?_⟩
      cases hother
      exact Nat.le_refl _

/-- What is kept is at least as long as all that has been seen, and something is kept once something
has been seen. -/
theorem exists_foldl_longerKey (hseen : entries ≠ [] ∨ best?.isSome = true) :
    ∃ kept, entries.foldl longerKey best? = some kept ∧
      (∀ other ∈ entries, other.1.length ≤ kept.1.length) ∧
        ∀ best, best? = some best → best.1.length ≤ kept.1.length := by
  induction entries generalizing best? with
  | nil =>
    obtain ⟨best, rfl⟩ := Option.isSome_iff_exists.mp (hseen.resolve_left fun hne => hne rfl)
    refine ⟨best, rfl, nofun, fun other hother => ?_⟩
    cases hother
    exact Nat.le_refl _
  | cons first entries ih =>
    obtain ⟨longer, hlonger, hfirst, hbest⟩ := exists_longerKey best? first
    obtain ⟨kept, hkept, hentries, hle⟩ := @ih (longerKey best? first) (.inr (by rw [hlonger]; rfl))
    have hlonger_le : longer.1.length ≤ kept.1.length := hle longer hlonger
    refine ⟨kept, hkept, List.forall_mem_cons.mpr ⟨hfirst.trans hlonger_le, hentries⟩,
      fun best heq => (hbest best heq).trans hlonger_le⟩

end Longest

/-! ## §3. Looking up an external -/

/-- The URL of a specifier is that of the specifier itself, or of a key that covers it. -/
theorem exists_key_of_resolveExternal? {externals : Table Text} {specifier url : Text}
    (h : resolveExternal? externals specifier = some url) :
    specifier ∈ externals.keys ∨ ∃ key ∈ externals.keys, coversPath key specifier = true := by
  unfold resolveExternal? at h
  split at h
  · next hget => exact .inl (Table.mem_keys_of_get? hget)
  · obtain ⟨entry, hentry, -⟩ := Option.map_eq_some_iff.mp h
    have hmem := (mem_of_foldl_longerKey hentry).resolve_right nofun
    obtain ⟨hkey, hcovers⟩ := List.mem_filter.mp hmem
    exact .inr ⟨entry.1, List.mem_map_of_mem hkey, hcovers⟩

/-- The key covers the specifier, and no other key of the table that does is as long. -/
structure IsLongest (externals : Table Text) (specifier key url rest : Text) : Prop where
  mem : (key, url) ∈ externals
  covers : Covers key specifier rest
  longest : ∀ other ∈ externals.keys, ∀ left, Covers other specifier left →
    other = key ∨ other.length < key.length

/-- What a table says that a specifier stands for: the URL of the specifier itself, or else that of the
longest key that covers it, with the rest of the specifier behind it. -/
inductive Finds (externals : Table Text) (specifier : Text) : Text → Prop where
  | exact {url : Text} (mem : (specifier, url) ∈ externals) : Finds externals specifier url
  | beneath {key url rest : Text} (absent : specifier ∉ externals.keys)
      (longest : IsLongest externals specifier key url rest) : Finds externals specifier (url ++ rest)

section Finds

variable {externals other : Table Text} {specifier key url rest found : Text}

theorem IsLongest.perm (h : IsLongest externals specifier key url rest) (hperm : other.Perm externals) :
    IsLongest other specifier key url rest :=
  ⟨hperm.mem_iff.mpr h.mem, h.covers, fun key hkey => h.longest key ((hperm.map Prod.fst).mem_iff.mp hkey)⟩

theorem Finds.perm (h : Finds externals specifier found) (hperm : other.Perm externals) :
    Finds other specifier found := by
  cases h with
  | exact hmem => exact .exact (hperm.mem_iff.mpr hmem)
  | beneath habsent hlongest =>
    exact .beneath (mt (hperm.map Prod.fst).mem_iff.mp habsent) (hlongest.perm hperm)

/-- A specifier that is no key is looked up among the keys that cover it. -/
theorem exists_isLongest_of_covers (habsent : specifier ∉ externals.keys)
    {key rest : Text} (hkey : key ∈ externals.keys) (hcovers : Covers key specifier rest) :
    ∃ key url rest, IsLongest externals specifier key url rest ∧
      resolveExternal? externals specifier = some (url ++ rest) := by
  obtain ⟨entry, hentry, rfl⟩ := List.mem_map.mp hkey
  have hcandidate : entry ∈ externals.filter fun other => coversPath other.1 specifier :=
    List.mem_filter.mpr ⟨hentry, coversPath_iff.mpr ⟨rest, hcovers⟩⟩
  obtain ⟨⟨key, url⟩, hkept, hlongest, -⟩ :=
    @exists_foldl_longerKey _ none (.inl (List.ne_nil_of_mem hcandidate))
  obtain ⟨hmem, hkeycovers⟩ := List.mem_filter.mp ((mem_of_foldl_longerKey hkept).resolve_right nofun)
  obtain ⟨left, hleft⟩ := coversPath_iff.mp hkeycovers
  refine ⟨key, url, left, ⟨hmem, hleft, fun other hother right hright => ?_⟩, ?_⟩
  · obtain ⟨entry, hentry, rfl⟩ := List.mem_map.mp hother
    have hle : entry.1.length ≤ key.length :=
      hlongest entry (List.mem_filter.mpr ⟨hentry, coversPath_iff.mpr ⟨right, hright⟩⟩)
    rcases hle.eq_or_lt with heq | hlt
    · exact .inl (hleft.eq_of_length_eq hright heq)
    · exact .inr hlt
  · have hnone : externals.get? specifier = none := by
      rw [← Option.not_isSome_iff_eq_none, ← Table.mem_keys_iff]
      exact habsent
    have hrest : specifier.drop key.length = left := hleft.drop_eq
    unfold resolveExternal?
    rw [hnone]
    show ((externals.filter fun other => coversPath other.1 specifier).foldl longerKey none).map _ = _
    rw [hkept, ← hrest]
    rfl

/-- A specifier is looked up in one of three ways. -/
theorem resolveExternal?_cases (h : externals.keys.Nodup) (specifier : Text) :
    (∃ url, (specifier, url) ∈ externals ∧ resolveExternal? externals specifier = some url) ∨
      (specifier ∉ externals.keys ∧ ∃ key url rest, IsLongest externals specifier key url rest ∧
        resolveExternal? externals specifier = some (url ++ rest)) ∨
      (specifier ∉ externals.keys ∧ (∀ key ∈ externals.keys, ∀ rest, ¬Covers key specifier rest) ∧
        resolveExternal? externals specifier = none) := by
  by_cases hpresent : specifier ∈ externals.keys
  · obtain ⟨⟨_, url⟩, hmem, rfl⟩ := List.mem_map.mp hpresent
    refine .inl ⟨url, hmem, ?_⟩
    unfold resolveExternal?
    rw [Table.get?_of_mem h hmem]
  by_cases hcovered : ∃ key ∈ externals.keys, ∃ rest, Covers key specifier rest
  · obtain ⟨key, hkey, rest, hcovers⟩ := hcovered
    exact .inr (.inl ⟨hpresent, exists_isLongest_of_covers hpresent hkey hcovers⟩)
  · have huncovered : ∀ key ∈ externals.keys, ∀ rest, ¬Covers key specifier rest :=
      fun key hkey rest hcovers => hcovered ⟨key, hkey, rest, hcovers⟩
    refine .inr (.inr ⟨hpresent, huncovered, ?_⟩)
    cases hresult : resolveExternal? externals specifier with
    | none => rfl
    | some url =>
      rcases exists_key_of_resolveExternal? hresult with hkey | ⟨key, hkey, hcovers⟩
      · exact absurd hkey hpresent
      · obtain ⟨rest, hcovers⟩ := coversPath_iff.mp hcovers
        exact absurd hcovers (huncovered key hkey rest)

theorem IsLongest.key_eq {other left address : Text} (h : IsLongest externals specifier key url rest)
    (hother : IsLongest externals specifier other address left) : other = key := by
  rcases h.longest other (List.mem_map_of_mem hother.mem) left hother.covers with heq | hlt
  · exact heq
  rcases hother.longest key (List.mem_map_of_mem h.mem) rest h.covers with heq | hgt
  · exact heq.symm
  · omega

theorem Finds.unique (h : externals.keys.Nodup) {other : Text} (hfound : Finds externals specifier found)
    (hother : Finds externals specifier other) : other = found := by
  cases hfound with
  | exact hmem =>
    cases hother with
    | exact hothermem =>
      exact Option.some.inj ((Table.get?_of_mem h hothermem).symm.trans (Table.get?_of_mem h hmem))
    | beneath habsent _ => exact absurd (List.mem_map_of_mem hmem) habsent
  | beneath habsent hlongest =>
    cases hother with
    | exact hmem => exact absurd (List.mem_map_of_mem hmem) habsent
    | beneath _ hlongestother =>
      obtain rfl := hlongest.key_eq hlongestother
      rw [← hlongestother.covers.drop_eq, ← hlongest.covers.drop_eq]
      have hurl := (Table.get?_of_mem h hlongestother.mem).symm.trans (Table.get?_of_mem h hlongest.mem)
      rw [Option.some.inj hurl]

theorem resolveExternal?_eq_some_iff (h : externals.keys.Nodup) :
    resolveExternal? externals specifier = some found ↔ Finds externals specifier found := by
  rcases resolveExternal?_cases h specifier with
    ⟨url, hmem, hresult⟩ | ⟨habsent, key, url, rest, hlongest, hresult⟩
      | ⟨habsent, huncovered, hresult⟩
  · have hfinds : Finds externals specifier url := .exact hmem
    rw [hresult, Option.some.injEq]
    exact ⟨fun heq => heq ▸ hfinds, fun hfound => hfound.unique h hfinds⟩
  · have hfinds : Finds externals specifier (url ++ rest) := .beneath habsent hlongest
    rw [hresult, Option.some.injEq]
    exact ⟨fun heq => heq ▸ hfinds, fun hfound => hfound.unique h hfinds⟩
  · rw [hresult]
    refine ⟨nofun, fun hfound => ?_⟩
    cases hfound with
    | exact hmem => exact absurd (List.mem_map_of_mem hmem) habsent
    | beneath _ hlongest => exact absurd hlongest.covers (huncovered _ (List.mem_map_of_mem hlongest.mem) _)

theorem resolveExternal?_eq_none_iff (h : externals.keys.Nodup) :
    resolveExternal? externals specifier = none ↔
      specifier ∉ externals.keys ∧ ∀ key ∈ externals.keys, ∀ rest, ¬Covers key specifier rest := by
  rcases resolveExternal?_cases h specifier with
    ⟨url, hmem, hresult⟩ | ⟨-, key, url, rest, hlongest, hresult⟩ | ⟨habsent, huncovered, hresult⟩
  · rw [hresult]
    exact ⟨nofun, fun hnone => absurd (List.mem_map_of_mem hmem) hnone.1⟩
  · rw [hresult]
    exact ⟨nofun, fun hnone => absurd hlongest.covers (hnone.2 key (List.mem_map_of_mem hlongest.mem) rest)⟩
  · exact iff_of_true hresult ⟨habsent, huncovered⟩

/-- A new key is not looked at if the specifier is a key, or if the new one does not cover it or is not
as long as the key that is used. -/
theorem resolveExternal?_insert_of_kept (h : externals.keys.Nodup) (hnew : key ∉ externals.keys)
    (hne : key ≠ specifier)
    (hkept : specifier ∈ externals.keys ∨ (∀ rest, ¬Covers key specifier rest) ∨
      ∃ used url rest, IsLongest externals specifier used url rest ∧ key.length ≤ used.length)
    (url : Text) :
    resolveExternal? (externals.insert key url) specifier = resolveExternal? externals specifier := by
  have hnodup : (externals.insert key url).keys.Nodup := Table.nodup_keys_insert h key url
  have hinsert : externals.insert key url = externals ++ [(key, url)] := Table.insert_of_notMem hnew url
  have hkeys : ∀ other, other ∈ (externals.insert key url).keys ↔ other = key ∨ other ∈ externals.keys :=
    fun other => Table.mem_keys_insert
  rcases resolveExternal?_cases h specifier with
    ⟨own, hmem, hresult⟩ | ⟨habsent, used, own, rest, hlongest, hresult⟩
      | ⟨habsent, huncovered, hresult⟩
  · rw [hresult, resolveExternal?_eq_some_iff hnodup, hinsert]
    exact .exact (List.mem_append_left _ hmem)
  · rw [hresult, resolveExternal?_eq_some_iff hnodup]
    refine .beneath (fun hpresent => ?_)
      ⟨hinsert ▸ List.mem_append_left _ hlongest.mem, hlongest.covers, fun other hother left hleft => ?_⟩
    · exact ((hkeys specifier).mp hpresent).elim (fun heq => hne heq.symm) habsent
    rcases (hkeys other).mp hother with rfl | hold
    · -- the new key covers the specifier, so it is the key that is used that keeps it away
      rcases hkept with hpresent | huncovered | ⟨longer, address, right, hlonger, hle⟩
      · exact absurd hpresent habsent
      · exact absurd hleft (huncovered left)
      · rw [hlongest.key_eq hlonger] at hle
        exact hle.eq_or_lt.imp_left (hlongest.covers.eq_of_length_eq hleft)
    · exact hlongest.longest other hold left hleft
  · rw [hresult, resolveExternal?_eq_none_iff hnodup]
    refine ⟨fun hpresent => ((hkeys specifier).mp hpresent).elim (fun heq => hne heq.symm) habsent,
      fun other hother left hleft => ?_⟩
    rcases (hkeys other).mp hother with rfl | hold
    · rcases hkept with hpresent | hnot | ⟨longer, address, right, hlonger, -⟩
      · exact habsent hpresent
      · exact hnot left hleft
      · exact huncovered longer (List.mem_map_of_mem hlonger.mem) right hlonger.covers
    · exact huncovered other hold left hleft

/-- **The longest match is found, and nothing depends on the order of the table.**  A specifier stands
for what the table finds, and for nothing exactly if it is no key and no key covers it; a table in another
order finds the same; and a new key makes a difference only if it is the specifier itself, or if it covers
a specifier that is no key and is longer than the key that has been used. -/
theorem resolveExternal?_exact (h : externals.keys.Nodup) (specifier : Text) :
    (∀ found, resolveExternal? externals specifier = some found ↔ Finds externals specifier found) ∧
    (resolveExternal? externals specifier = none ↔
      specifier ∉ externals.keys ∧ ∀ key ∈ externals.keys, ∀ rest, ¬Covers key specifier rest) ∧
    (∀ other : Table Text, other.Perm externals →
      resolveExternal? other specifier = resolveExternal? externals specifier) ∧
    ∀ key url, key ∉ externals.keys →
      resolveExternal? (externals.insert key url) specifier ≠ resolveExternal? externals specifier →
        key = specifier ∨ (specifier ∉ externals.keys ∧ (∃ rest, Covers key specifier rest) ∧
          ∀ used url rest, IsLongest externals specifier used url rest → used.length < key.length) := by
  refine ⟨fun found => resolveExternal?_eq_some_iff h, resolveExternal?_eq_none_iff h,
    fun other hperm => ?_, fun key url hnew hchanged => ?_⟩
  · have hother : other.keys.Nodup := (hperm.map Prod.fst).nodup_iff.mpr h
    refine Option.ext fun found => ?_
    rw [resolveExternal?_eq_some_iff hother, resolveExternal?_eq_some_iff h]
    exact ⟨fun hfound => hfound.perm hperm.symm, fun hfound => hfound.perm hperm⟩
  · by_cases hne : key = specifier
    · exact .inl hne
    have hlooked := mt (resolveExternal?_insert_of_kept h hnew hne · url) hchanged
    rw [not_or, not_or] at hlooked
    obtain ⟨habsent, hcovers, hlonger⟩ := hlooked
    refine .inr ⟨habsent, Classical.not_forall_not.mp hcovers, fun used url rest hlongest => ?_⟩
    exact Nat.lt_of_not_le fun hle => hlonger ⟨used, url, rest, hlongest, hle⟩

/-- A table in which one key lies beneath another, and one specifier is a key beneath both. -/
def nestedExternals : Table Text :=
  [("a/", "https://one/"), ("a/b/", "https://two/"), ("a/b/d", "https://three")]

/-- The longest key is used whichever comes first, a specifier that is a key stands for its own URL, and
what is shorter than all keys that could cover it stands for nothing. -/
theorem resolveExternal?_exact_nested :
    nestedExternals.keys.Nodup ∧
      resolveExternal? nestedExternals.reverse "a/b/c" = some "https://two/c" ∧
      resolveExternal? nestedExternals "a/b/d" = some "https://three" ∧
      resolveExternal? nestedExternals "a" = none := by
  have hnodup : nestedExternals.keys.Nodup := by decide
  refine ⟨hnodup, ?_, ?_, ?_⟩
  · have horder :=
      (resolveExternal?_exact hnodup "a/b/c").2.2.1 nestedExternals.reverse nestedExternals.reverse_perm
    rw [horder]
    decide
  · exact ((resolveExternal?_exact hnodup "a/b/d").1 _).mpr (.exact (by decide))
  · exact (resolveExternal?_exact hnodup "a").2.1.mpr ⟨by decide, fun key hkey rest hcovers => by
      have hlong : ∀ key ∈ nestedExternals.keys, 1 < key.length := by decide
      have hle := hcovers.isPrefix.length_le
      exact absurd (hlong key hkey) (Nat.not_lt.mpr hle)⟩

end Finds

theorem startsWith_idOf (path : Text) : (Module.idOf path).startsWith Module.idStart = true :=
  List.isPrefixOf_iff_prefix.mpr (List.prefix_append _ _)

/-- A key that covers the id of a module begins as ids do, since no slash is in that beginning. -/
theorem startsWith_of_coversPath_idOf {key path : Text}
    (h : coversPath key (Module.idOf path) = true) : key.startsWith Module.idStart = true := by
  obtain ⟨hlast, hbegins⟩ := Bool.and_eq_true_iff.mp h
  have hid := List.isPrefixOf_iff_prefix.mp (startsWith_idOf path)
  refine List.isPrefixOf_iff_prefix.mpr ?_
  rcases List.prefix_or_prefix_of_prefix (List.isPrefixOf_iff_prefix.mp hbegins) hid with hshort | hlong
  · have hslash : CodePoint.char '/' ∈ (Module.idStart : Text).points :=
      hshort.subset (List.mem_of_getLast? (beq_iff_eq.mp hlast))
    exact absurd hslash (by decide)
  · exact hlong

/-! ## §2. The externals of a build -/

/-- Each external is there once, with the URL that the configuration has for it. -/
structure IsConfigured (config : Config) (externals : Table Text) : Prop where
  nodup : externals.keys.Nodup
  resolved : ∀ specifier url, externals.get? specifier = some url →
    resolveExternal? config.externals specifier = some url

section IsConfigured

variable {config : Config} {importer : Text} {externals after : Table Text}

theorem isConfigured_nil (config : Config) : IsConfigured config [] :=
  ⟨.nil, nofun⟩

theorem IsConfigured.addExternal (h : IsConfigured config externals) {specifier : Text}
    (hok : addExternal config importer externals specifier = .ok after) : IsConfigured config after := by
  unfold Preview.addExternal at hok
  split at hok
  · cases hok
    exact h
  · split at hok
    · next url hurl =>
      cases hok
      refine ⟨Table.nodup_keys_insert h.nodup specifier url, fun other found hother => ?_⟩
      rw [Table.get?_insert] at hother
      split at hother
      · next heq =>
        cases hother
        rwa [heq]
      · exact h.resolved other found hother
    · cases hok

theorem isConfigured_ownExternals {entry : Text} (hok : ownExternals config entry = .ok after) :
    IsConfigured config after := by
  unfold ownExternals at hok
  split at hok
  · exact Result.foldlM_preserves (fun _ _ _ h => h.addExternal) (isConfigured_nil config) hok
  · cases hok
    exact isConfigured_nil config

theorem IsConfigured.addImport {tree : Tree} {links next : Links} (h : IsConfigured config links.externals)
    {specifier : Text} (hok : addImport tree config importer links specifier = .ok next) :
    IsConfigured config next.externals := by
  unfold Preview.addImport at hok
  split at hok
  · split at hok <;> cases hok
    exact h
  · obtain ⟨externals, hexternal, rfl⟩ := Result.map_eq_ok_iff.mp hok
    exact h.addExternal hexternal

theorem IsConfigured.linksOf {tree : Tree} {imports : List Text} {links : Links}
    (h : IsConfigured config externals)
    (hok : linksOf tree config importer externals imports = .ok links) :
    IsConfigured config links.externals := by
  have hstep : ∀ (links : Links) specifier next, IsConfigured config links.externals →
      Preview.addImport tree config importer links specifier = .ok next →
      IsConfigured config next.externals := fun _ _ _ h => h.addImport
  have hstart : IsConfigured config ({ externals } : Links).externals := h
  exact Result.foldlM_preserves hstep hstart hok

/-- An external that is the id of a module has been found under a key that begins as ids do. -/
theorem IsConfigured.not_idOf (h : IsConfigured config externals)
    (hkeys : ∀ key ∈ config.externals.keys, key.startsWith Module.idStart = false) (path : Text) :
    Module.idOf path ∉ externals.keys := by
  intro hmem
  obtain ⟨url, hurl⟩ := Option.isSome_iff_exists.mp (Table.mem_keys_iff.mp hmem)
  rcases exists_key_of_resolveExternal? (h.resolved _ url hurl) with hkey | ⟨key, hkey, hcovers⟩
  · have hplain := hkeys _ hkey
    rw [startsWith_idOf] at hplain
    cases hplain
  · have hplain := hkeys key hkey
    rw [startsWith_of_coversPath_idOf hcovers] at hplain
    cases hplain

end IsConfigured

variable {setting : Setting}

/-- Visiting files adds no externals but such as are configured. -/
theorem Visits.isConfigured {targets : List Text} {graph after : Graph} {cache below : Module.Cache}
    (h : Visits setting targets graph cache (.ok after, below))
    (hgraph : IsConfigured setting.config graph.externals) :
    IsConfigured setting.config after.externals := by
  generalize houtcome : ((.ok after, below) : Except Stop Graph × Module.Cache) = outcome at h
  induction h generalizing after below with
  | done graph cache =>
    cases houtcome
    exact hgraph
  | known _ _ ih => exact ih hgraph houtcome
  | unreached _ _ => cases houtcome
  | stopped _ _ _ _ => cases houtcome
  | followed _ hreach _ _ ihbeneath ihrest =>
    obtain ⟨found, links, hlinks, rfl, -⟩ := exists_enter_of_start_reach hreach
    have hbeneath := ihbeneath (hgraph.linksOf hlinks) rfl
    exact ihrest hbeneath houtcome

theorem Explores.isConfigured {entry : Text} {graph : Graph} {cache below : Module.Cache}
    (h : Explores setting entry cache (.ok graph, below)) :
    IsConfigured setting.config graph.externals := by
  cases h with
  | visited hown hvisits => exact hvisits.isConfigured (isConfigured_ownExternals hown)

theorem isConfigured_of_plan {wanted? : Option Text} {cache : Module.Cache} {entry : Text} {graph : Graph}
    (hplan : ((plan setting wanted?).start cache).1 = .ok (entry, graph)) :
    IsConfigured setting.config graph.externals := by
  obtain ⟨-, below, hexplores⟩ := explores_of_plan hplan
  exact hexplores.isConfigured

end LivePreview.Preview
