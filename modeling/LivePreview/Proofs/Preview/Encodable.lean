/-
  LivePreview.Proofs.Preview.Encodable
  ────────────────────────────────────
  **The text of a page can be expressed in bytes.**

  A page is written from strings, from values in ASCII, and from the origins of its
  externals; paths and URLs stand in it as literals only.  Externals are looked up in the
  configuration, and nowhere else (`LookedUp`).  So the page of a build can be expressed
  in bytes if the origins can that the configuration leads to
  (`isEncodable_html_of_buildTree`).
-/
import LivePreview.Proofs.Json.Encodable
import LivePreview.Proofs.Preview.Externals

namespace LivePreview.Preview

open LivePreview.Module (Registry)
open LivePreview.Text (isEncodable_append isEncodable_escape isEncodable_intercalate isEncodable_ofString
  isEncodable_replaceAll isEncodable_unlines)

/-! ## §1. Externals -/

/-- The origins of the URLs that bare specifiers lead to can be expressed in bytes. -/
def Config.HasEncodableOrigins (config : Config) : Prop :=
  ∀ specifier url origin, resolveExternal? config.externals specifier = some url →
    Text.origin url = .ok origin → origin.isEncodable = true

/-- Where no key stands for what lies beneath it, specifiers lead to URLs of the table only. -/
theorem mem_values_of_resolveExternal? {externals : Table Text}
    (hplain : ∀ entry ∈ externals, entry.1.points.getLast? ≠ some (.char '/')) {specifier url : Text}
    (hurl : resolveExternal? externals specifier = some url) : url ∈ externals.values := by
  unfold resolveExternal? at hurl
  split at hurl
  · next hget =>
    cases hurl
    exact Table.mem_values_of_get? hget
  · have hnone : (externals.filter fun entry => coversPath entry.1 specifier) = [] := by
      refine List.filter_eq_nil_iff.mpr fun entry hentry hcovers => ?_
      unfold coversPath at hcovers
      exact hplain entry hentry (beq_iff_eq.mp (Bool.and_eq_true_iff.mp hcovers).1)
    change ((externals.filter fun entry => coversPath entry.1 specifier).foldl longerKey none).map _ = _ at hurl
    rw [hnone] at hurl
    cases hurl

/-- The externals that are there if nothing else is configured have origins in ASCII. -/
theorem hasEncodableOrigins_default : ({} : Config).HasEncodableOrigins := by
  intro specifier url origin hurl horigin
  have hmem : url ∈ Table.values defaultExternals :=
    mem_values_of_resolveExternal? (by decide +kernel) hurl
  have horigins : ∀ url ∈ Table.values defaultExternals,
      (Text.origin url).toOption.all Text.isEncodable = true := by
    decide +kernel
  have hencodable := horigins url hmem
  rw [horigin] at hencodable
  exact hencodable

/-- All URLs of the table have been looked up in a configuration. -/
def LookedUp (config : Config) (externals : Table Text) : Prop :=
  ∀ url ∈ externals.values, ∃ specifier, resolveExternal? config.externals specifier = some url

theorem IsConfigured.lookedUp {config : Config} {externals : Table Text} (h : IsConfigured config externals) :
    LookedUp config externals := by
  intro url hurl
  obtain ⟨⟨specifier, _⟩, hentry, rfl⟩ := List.mem_map.mp hurl
  exact ⟨specifier, h.resolved specifier _ (Table.get?_of_mem h.nodup hentry)⟩

variable {setting : Setting}

/-! ## §2. Policies -/

theorem isEncodable_spaced {texts : List Text} (h : ∀ text ∈ texts, text.isEncodable = true) :
    (spaced texts).isEncodable = true :=
  isEncodable_intercalate (isEncodable_ofString _) fun text htext => h text (List.mem_of_mem_filter htext)

theorem isEncodable_policyFor {origins : List Text} (h : ∀ origin ∈ origins, origin.isEncodable = true) :
    (policyFor origins).isEncodable = true := by
  have hhosts := isEncodable_spaced h
  have hscripts : (spaced ["'unsafe-inline'", "data:", spaced origins]).isEncodable = true := by
    refine isEncodable_spaced (List.forall_mem_cons.mpr ⟨isEncodable_ofString _, ?_⟩)
    exact List.forall_mem_cons.mpr ⟨isEncodable_ofString _, List.forall_mem_singleton.mpr hhosts⟩
  have hconnections :
      (if (spaced origins).isEmpty then ("'none'" : Text) else spaced origins).isEncodable = true := by
    split
    · exact isEncodable_ofString _
    · exact hhosts
  unfold policyFor
  simp only [Text.isEncodable_append_iff, isEncodable_ofString, hscripts, hconnections, and_true]

theorem isEncodable_contentSecurityPolicy {urls : List Text} {policy : Text}
    (hurls : ∀ url ∈ urls, ∀ origin, Text.origin url = .ok origin → origin.isEncodable = true)
    (hok : contentSecurityPolicy urls = .ok policy) : policy.isEncodable = true := by
  obtain ⟨origins, horigins, rfl⟩ := Result.map_eq_ok_iff.mp hok
  obtain ⟨found, hfound, hset⟩ := Result.bind_eq_ok_iff.mp horigins
  refine isEncodable_policyFor fun origin horigin => ?_
  obtain rfl := Except.ok.inj hset
  have hmem : origin ∈ found := by
    have hlisted := Std.ExtTreeSet.mem_toList.mp horigin
    rw [Std.ExtTreeSet.mem_ofList, List.contains_iff_mem] at hlisted
    exact List.mem_of_mem_filter hlisted
  obtain ⟨url, hurl, horigin⟩ := Result.exists_of_mem_of_mapM_eq_ok hfound hmem
  exact hurls url hurl origin horigin

/-! ## §3. Pages -/

theorem isEncodable_importMap (references : Table String) (externals : Table Text) :
    (importMap references externals).isEncodable = true :=
  isEncodable_replaceAll (isEncodable_ofString _) (Json.isEncodable_page 0 _) _

theorem isEncodable_errorTemplate : errorTemplate.isEncodable = true := by
  refine isEncodable_unlines ?_
  simp only [List.forall_mem_cons, List.not_mem_nil, false_implies, implies_true, isEncodable_ofString, and_true]

theorem isEncodable_mountTemplate : mountTemplate.isEncodable = true := by
  refine isEncodable_unlines ?_
  simp only [List.forall_mem_cons, List.not_mem_nil, false_implies, implies_true, isEncodable_ofString, and_true]

theorem isEncodable_errorScript : errorScript.isEncodable = true :=
  isEncodable_replaceAll (isEncodable_ofString _) isEncodable_errorTemplate _

theorem isEncodable_mainScript (config : Config) (entry : Text) :
    (mainScript config entry).isEncodable = true := by
  have hmount : (mountScript config.rootId entry).isEncodable = true :=
    isEncodable_replaceAll (isEncodable_ofString _)
      (isEncodable_replaceAll (isEncodable_ofString _) isEncodable_mountTemplate _) _
  unfold mainScript
  dsimp only
  split
  · exact isEncodable_append (isEncodable_append (isEncodable_append (isEncodable_ofString _)
      (isEncodable_ofString _)) (isEncodable_ofString _)) hmount
  · exact isEncodable_append (isEncodable_append (isEncodable_ofString _) (isEncodable_ofString _))
      (isEncodable_ofString _)

theorem isEncodable_page {config : Config} {entry html : Text} {references : Table String}
    {externals : Table Text} (horigins : config.HasEncodableOrigins) (hlooked : LookedUp config externals)
    (hok : page config entry references externals = .ok html) : html.isEncodable = true := by
  obtain ⟨policy, hpolicy, hhtml⟩ := Result.bind_eq_ok_iff.mp hok
  obtain rfl := Except.ok.inj hhtml
  have hpolicy : policy.isEncodable = true := by
    refine isEncodable_contentSecurityPolicy (fun url hurl origin horigin => ?_) hpolicy
    obtain ⟨specifier, hspecifier⟩ := hlooked url hurl
    exact horigins specifier url origin hspecifier horigin
  have htitle := isEncodable_escape (isEncodable_ofString config.title)
  have hroot := isEncodable_escape (isEncodable_ofString config.rootId)
  refine isEncodable_unlines ?_
  unfold pageLines
  simp only [List.forall_mem_cons, List.not_mem_nil, false_implies, implies_true, and_true,
    Text.isEncodable_append_iff, isEncodable_ofString, isEncodable_escape hpolicy, htitle, hroot,
    isEncodable_importMap, isEncodable_errorScript, isEncodable_mainScript]

/-- **The page of a build can be expressed in bytes.** -/
theorem isEncodable_html_of_buildTree {revision stamp : Nat} {registry : Registry} {cache : Module.Cache}
    {wanted? : Option Text} {document : Document} (horigins : setting.config.HasEncodableOrigins)
    (hok : (buildTree setting revision registry cache wanted?).answer = .ok ⟨.ok document, stamp⟩) :
    document.html.isEncodable = true := by
  obtain ⟨entry, graph, hplan, hmade⟩ := documentOf_of_buildTree hok
  obtain ⟨references, -, hdocument⟩ := Result.bind_eq_ok_iff.mp hmade
  unfold documentWith at hdocument
  split at hdocument
  · next html hpage =>
    cases hdocument
    exact isEncodable_page horigins (isConfigured_of_plan hplan).lookedUp hpage
  · cases hdocument

end LivePreview.Preview
