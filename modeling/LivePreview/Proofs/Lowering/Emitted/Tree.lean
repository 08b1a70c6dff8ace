/-
  LivePreview.Proofs.Lowering.Emitted.Tree
  ────────────────────────────────────────
  **What is collected stems from the nodes that are emitted.**

  The emission of any node is the same: the node collects what it collects itself, and then
  its parts are emitted one after the other (`opened_of_run`).  By induction over the parts,
  whatever has been collected in the end was there before or stems from a node that is
  emitted (`collected_iff`), and the code of each node that is emitted stands in the code of
  the tree (`exists_run_of_emits`).

  So the imports of a lowered module are exactly the specifiers that its nodes record, and
  `React` if it has to be imported for the elements (`mem_imports_iff`).  The literal that a
  node records stands in the finished code, in its place in the code of the node, and is a
  site there (`collects_of_recorded`).
-/
import LivePreview.Proofs.Lowering.Emitted.Statement
import LivePreview.Proofs.Lowering.Sites.Module

namespace LivePreview.Lowering

open LivePreview.Syntax (Node)

section Trees

variable {context : Context} {root node : Node}

/-! ## §1. The rule for a node -/

theorem passes_emitDemanded (kept? : Option Node) :
    Passes context [] kept?.toList (fun code => [code]) (emitDemanded (kept?.map (draft context))) := by
  unfold emitDemanded
  cases kept? with
  | none => exact passes_throw
  | some kept => exact passes_emit kept

theorem passes_fieldDefinition (hkind : node.kind = "public_field_definition") :
    Passes context [] (if node.hasToken "declare" || node.hasToken "abstract" then [] else keptChildren node)
      (fun code => [code]) (fieldDefinition context node (node.children.map (draft context))) := by
  unfold fieldDefinition keptChildren
  rw [hkind]
  split
  · exact passes_pure standIn_nil
  · exact passes_dropTokens context ["?", "!"] node

/-- The kinds of constructs other than elements whose parts are not simply their children. -/
def chosenKinds : List String :=
  ["import_statement", "export_statement", "call_expression", "type_assertion", "public_field_definition",
    "internal_module", "module", "method_definition", "enum_declaration"]

/-- A node of any other kind loses its tokens, if there are any. -/
theorem constructParts_of_ne (h : node.kind ∉ chosenKinds) :
    constructParts context node = if isElement node then elementParts node else keptChildren node := by
  simp only [chosenKinds, List.mem_cons, List.not_mem_nil, or_false, not_or] at h
  unfold constructParts
  split <;> first
    | rfl
    | simp_all

/-- A node whose kind loses tokens. -/
theorem opens_dropTokens {kind : String} (hkind : node.kind = kind)
    (h : kind ∈ ["optional_parameter", "variable_declarator", "abstract_class_declaration"]) :
    Opens context node
      (Draft.dropTokens context (droppedTokens kind) node (node.children.map (draft context))) := by
  have hkinds : ∀ kind ∈ ["optional_parameter", "variable_declarator", "abstract_class_declaration"],
      kind ∉ collectingKinds ∧ kind ∉ removedKinds ++ wrapperKinds ++ ["readonly"] ∧ kind ∉ chosenKinds := by
    decide
  obtain ⟨hcollects, hplain, hrule⟩ := hkinds kind h
  have helement : isElement node = false := by
    unfold isElement
    rw [hkind, Bool.eq_false_iff, ne_eq, List.contains_iff_mem]
    exact fun hmem => hcollects (List.mem_append_right _ hmem)
  refine opens_of_passes ?_ (hkind ▸ hcollects) (passes_dropTokens context (droppedTokens kind) node)
  rw [emittedParts_of_construct hkind hplain, constructParts_of_ne (hkind ▸ hrule), helement, keptChildren,
    hkind]
  rfl

/-- An element is noted, and then its parts are emitted. -/
theorem opens_jsxElement (hkind : node.kind ∈ elementKinds) :
    Opens context node (jsxElement context node (node.children.map (draft context))) := by
  have hkinds : ∀ kind ∈ elementKinds,
      kind ∉ removedKinds ++ wrapperKinds ++ ["readonly"] ∧ kind ∉ chosenKinds := by
    decide
  obtain ⟨hplain, hrule⟩ := hkinds node.kind hkind
  have helement : isElement node = true := List.contains_iff_mem.mpr hkind
  have hparts : emittedParts context node = elementParts node := by
    rw [emittedParts_of_construct rfl hplain, constructParts_of_ne hrule, if_pos helement]
  have hliteral : recordedLiteral? context node = none := by
    unfold recordedLiteral?
    split
    · next h => exact absurd (h ▸ by decide) hrule
    · next h => exact absurd (h ▸ by decide) hrule
    · next h => exact absurd (h ▸ by decide) hrule
    · rfl
  have hreact : importsReact context node = false := by
    have hne : node.kind ≠ "import_statement" := fun h => hrule (by rw [h]; decide)
    unfold importsReact
    rw [beq_eq_false_iff_ne.mpr hne]
    rfl
  intro before code after hrun
  refine opened_of_unrecorded hliteral (hparts ▸ passes_element node) ?_
  rw [helement, hreact, State.note, Bool.or_true, Bool.or_false]
  exact hrun

theorem opens_constructEmission (hremoved : removedKinds.contains node.kind = false)
    (hwraps : wrapperKinds.contains node.kind = false) (hreadonly : node.isToken "readonly" = false) :
    Opens context node (constructEmission context node (node.children.map (draft context))) := by
  have hparts : emittedParts context node = constructParts context node := by
    unfold emittedParts
    rw [hremoved, hwraps, hreadonly]
    rfl
  have hpassed {kind : String} {step : Emit Code} {parts : List Node} (hkind : node.kind = kind)
      (hcollects : kind ∉ collectingKinds) (hconstruct : constructParts context node = parts)
      (h : Passes context [] parts (fun code => [code]) step) : Opens context node step :=
    opens_of_passes (hparts.trans hconstruct) (hkind ▸ hcollects) h
  unfold constructEmission
  split
  · next hkind => exact opens_importStatement hkind
  · next hkind => exact opens_exportStatement hkind
  · next hkind => exact opens_callExpression hkind
  · next hkind =>
    rw [named_map_draft, List.getLast?_map]
    exact hpassed hkind (by decide) (by rw [constructParts, hkind]; rfl) (passes_emitDemanded _)
  · next hkind => exact opens_dropTokens hkind (by decide)
  · next hkind => exact opens_dropTokens hkind (by decide)
  · next hkind =>
    exact hpassed hkind (by decide) (by rw [constructParts, hkind]; rfl) (passes_fieldDefinition hkind)
  · next hkind => exact opens_dropTokens hkind (by decide)
  · exact opens_reject
  · exact opens_reject
  · next hkind =>
    exact hpassed hkind (by decide) (by rw [constructParts, hkind]; rfl) (passes_methodDefinition hkind)
  · next hkind =>
    have h : Passes context [] _ _ (emit context node) := passes_enumDeclaration hkind
    rw [emit_eq, emission_of_construct hkind (by decide), constructEmission, hkind] at h
    exact hpassed hkind (by decide) (by rw [constructParts, hkind]; rfl) h
  · split
    · next hkind => exact opens_jsxElement (List.contains_iff_mem.mp hkind)
    · next helement =>
      have hdropped : droppedTokens node.kind = [] := by
        unfold droppedTokens
        split <;> first
          | rfl
          | contradiction
      have hcollects : node.kind ∉ collectingKinds := by
        intro hmem
        rcases List.mem_append.mp hmem with hmem | hmem
        · simp only [List.mem_cons, List.not_mem_nil, or_false] at hmem
          rcases hmem with hkind | hkind | hkind <;> contradiction
        · exact helement (List.contains_iff_mem.mpr hmem)
      have hconstruct : constructParts context node = keptChildren node := by
        rw [constructParts_of_ne, isElement, if_neg helement]
        simp only [chosenKinds, List.mem_cons, List.not_mem_nil, or_false, not_or]
        refine ⟨?_, ?_, ?_, ?_, ?_, ?_, ?_, ?_, ?_⟩ <;> assumption
      have h := passes_dropTokens context (droppedTokens node.kind) node
      rw [← keptChildren, hdropped, dropTokens_nil] at h
      exact hpassed rfl hcollects hconstruct h

/-- **Every node collects what it collects itself, and then its parts are emitted.** -/
theorem opened_of_run {before after : State} {code : Code}
    (hrun : (emit context node).run before = .ok (code, after)) : Opened context node before code after := by
  have hopens : Opens context node (emission context node (node.children.map (draft context))) := by
    unfold emission
    split
    · next hremoved =>
      have hkinds : ∀ kind ∈ removedKinds, kind ∉ collectingKinds := by decide
      refine opens_of_passes ?_ (hkinds _ (List.contains_iff_mem.mp hremoved)) (passes_pure standIn_nil)
      rw [emittedParts, if_pos hremoved]
    · next hremoved =>
      split
      · next hwraps =>
        have hkinds : ∀ kind ∈ wrapperKinds, kind ∉ collectingKinds := by decide
        rw [named_map_draft, List.head?_map]
        refine opens_of_passes ?_ (hkinds _ (List.contains_iff_mem.mp hwraps)) (passes_emitDemanded _)
        rw [emittedParts, if_neg hremoved, if_pos hwraps]
        rfl
      · next hwraps =>
        split
        · next hreadonly =>
          have hkind : node.kind = "readonly" := eq_of_beq (Bool.and_eq_true_iff.mp hreadonly).2
          refine opens_of_passes ?_ (by rw [hkind]; decide) (passes_pure standIn_nil)
          rw [emittedParts, if_neg hremoved, if_neg hwraps, if_pos hreadonly]
        · next hreadonly =>
          exact opens_constructEmission ((Bool.not_eq_true _).mp hremoved) ((Bool.not_eq_true _).mp hwraps)
            ((Bool.not_eq_true _).mp hreadonly)
  rw [emit_eq] at hrun
  exact hopens before code after hrun

/-! ## §2. Collecting -/

section Collecting

variable {before after : State} {code : Code}

/-- **What has been collected in the end** was there before, or stems from a node that is emitted. -/
theorem collected_iff {P : State → Prop} {Q : Node → Prop}
    (hcollects : ∀ state node, P (state.enter context node) ↔ P state ∨ Q node)
    (hrun : (emit context root).run before = .ok (code, after)) :
    P after ↔ P before ∨ ∃ node, Emits context root node ∧ Q node := by
  -- by induction over the parts of the node, and along the chain of their runs
  induction root using forall_of_parts context generalizing before code after with
  | h root ih =>
    obtain ⟨⟨codes, hchain, -⟩, -⟩ := opened_of_run hrun
    have hparts {start stop : State} {parts : List Node} {codes : List Code}
        (hchain : Chain context start parts codes stop) (hsubset : parts ⊆ emittedParts context root) :
        P stop ↔ P start ∨ ∃ part ∈ parts, ∃ node, Emits context part node ∧ Q node := by
      induction hchain with
      | nil => exact ⟨.inl, fun h => h.resolve_right fun ⟨_, hmem, _⟩ => List.not_mem_nil hmem⟩
      | cons hfirst _ ihrest =>
        obtain ⟨hpart, hrest⟩ := List.cons_subset.mp hsubset
        rw [ihrest hrest, ih _ hpart hfirst, or_assoc, List.exists_mem_cons_iff]
    rw [hparts hchain (List.Subset.refl _), hcollects, or_assoc]
    refine or_congr_right ⟨?_, ?_⟩
    · rintro (hroot | ⟨part, hpart, node, hnode, hnote⟩)
      · exact ⟨root, .self, hroot⟩
      · exact ⟨node, .of_part hpart hnode, hnote⟩
    · rintro ⟨node, hnode, hnote⟩
      rcases emits_iff.mp hnode with rfl | ⟨part, hpart, hnode⟩
      · exact .inl hnote
      · exact .inr ⟨part, hpart, node, hnode, hnote⟩

theorem usesJsx_enter (state : State) (node : Node) :
    (state.enter context node).usesJsx = true ↔ state.usesJsx = true ∨ isElement node = true := by
  unfold State.enter
  cases recordedSpecifier? context node <;> exact Bool.or_eq_true_iff

theorem bindsReact_enter (state : State) (node : Node) :
    (state.enter context node).bindsReact = true ↔
      state.bindsReact = true ∨ importsReact context node = true := by
  unfold State.enter
  cases recordedSpecifier? context node <;> exact Bool.or_eq_true_iff

theorem mem_imports_enter (specifier : Text) (state : State) (node : Node) :
    specifier ∈ (state.enter context node).imports ↔
      specifier ∈ state.imports ∨ recordedSpecifier? context node = some specifier := by
  unfold State.enter
  cases recordedSpecifier? context node with
  | none => exact ⟨.inl, fun h => h.resolve_right nofun⟩
  | some recorded =>
    show specifier ∈ (if state.imports.contains recorded then state.imports else state.imports ++ [recorded])
      ↔ _
    rw [Option.some.injEq]
    split
    · next hmem =>
      exact ⟨.inl, fun h => h.elim id fun heq => heq ▸ List.contains_iff_mem.mp hmem⟩
    · rw [List.mem_append, List.mem_singleton, eq_comm (a := specifier)]

theorem sites_enter (state : State) (node : Node) :
    (state.enter context node).sites = state.sites ++ (recordedSpecifier? context node).toList := by
  unfold State.enter
  cases recordedSpecifier? context node with
  | none => exact (List.append_nil _).symm
  | some specifier => rfl

/-- Specifiers only get further numbers. -/
theorem sites_prefix (hrun : (emit context root).run before = .ok (code, after)) :
    before.sites <+: after.sites := by
  induction root using forall_of_parts context generalizing before code after with
  | h root ih =>
    obtain ⟨⟨codes, hchain, -⟩, -⟩ := opened_of_run hrun
    have hparts {start stop : State} {parts : List Node} {codes : List Code}
        (hchain : Chain context start parts codes stop) (hsubset : parts ⊆ emittedParts context root) :
        start.sites <+: stop.sites := by
      induction hchain with
      | nil => exact List.prefix_rfl
      | cons hfirst _ ihrest =>
        obtain ⟨hpart, hrest⟩ := List.cons_subset.mp hsubset
        exact (ih _ hpart hfirst).trans (ihrest hrest)
    refine List.IsPrefix.trans ?_ (hparts hchain (List.Subset.refl _))
    rw [sites_enter]
    exact List.prefix_append _ _

theorem Chain.sites_prefix {nodes : List Node} {codes : List Code}
    (h : Chain context before nodes codes after) : before.sites <+: after.sites := by
  induction h with
  | nil => exact List.prefix_rfl
  | cons hrun _ ih => exact (Lowering.sites_prefix hrun).trans ih

/-- Each node of a chain has been emitted within it. -/
theorem Chain.exists_run {nodes : List Node} {codes : List Code}
    (h : Chain context before nodes codes after) (hnode : node ∈ nodes) :
    ∃ start own stop, (emit context node).run start = .ok (own, stop) ∧ own ∈ codes ∧
      stop.sites <+: after.sites := by
  induction h with
  | nil => exact absurd hnode List.not_mem_nil
  | @cons start _ _ _ _ own _ hrun hrest ih =>
    rcases List.mem_cons.mp hnode with rfl | hnode
    · exact ⟨start, own, _, hrun, List.mem_cons_self, hrest.sites_prefix⟩
    · obtain ⟨start, own, stop, hown, hmem, hsites⟩ := ih hnode
      exact ⟨start, own, stop, hown, List.mem_cons_of_mem _ hmem, hsites⟩

/-- **The code of a node that is emitted stands in that of the tree**, and its specifiers keep their
numbers. -/
theorem exists_run_of_emits (h : Emits context root node)
    (hrun : (emit context root).run before = .ok (code, after)) :
    ∃ start own stop, (emit context node).run start = .ok (own, stop) ∧ own <:+: code ∧
      stop.sites <+: after.sites := by
  induction h with
  | self => exact ⟨before, code, after, hrun, List.infix_rfl, List.prefix_rfl⟩
  | part _ hpart ih =>
    obtain ⟨start, own, stop, hown, hinfix, hsites⟩ := ih
    obtain ⟨⟨codes, hchain, hstand⟩, -⟩ := opened_of_run hown
    obtain ⟨start', inner, stop', hinner, hmem, hsites'⟩ := hchain.exists_run hpart
    obtain ⟨other, hother, hinfix'⟩ := hstand inner hmem
    rw [List.mem_singleton.mp hother] at hinfix'
    exact ⟨start', inner, stop', hinner, hinfix'.trans hinfix, hsites'.trans hsites⟩

end Collecting

end Trees

section Imports

variable {parser : Parser} {dialect : Dialect} {options : Options} {source : String}
  {lowered : LoweredModule} {node : Node} {specifier : Text}

/-! ## §3. Imports -/

theorem moveToFront_iff {specifier source : Text} {imports : List Text} :
    specifier ∈ moveToFront source imports ↔ specifier = source ∨ specifier ∈ imports := by
  refine ⟨fun h => ?_, mem_moveToFront⟩
  rcases List.mem_cons.mp h with heq | hmem
  · exact .inl heq
  · exact .inr (List.mem_of_mem_erase hmem)

/-- A lowered module stems from a run of its tree. -/
theorem exists_run_of_lower (hok : lower parser dialect options source = .ok lowered) :
    ∃ body state, (emit ⟨source, options⟩ (parser dialect source)).run {} = .ok (body, state) ∧
      (∀ specifier, specifier ∈ lowered.imports ↔
        specifier ∈ state.imports ∨ state.reactSource? options = some specifier) := by
  obtain ⟨-, code, after, hrun, -⟩ := lower_eq_ok hok
  unfold emitModule at hrun
  rw [StateT.run_bind] at hrun
  obtain ⟨⟨body, state⟩, hbody, hrest⟩ := Result.bind_eq_ok_iff.mp hrun
  refine ⟨body, state, hbody, fun specifier => ?_⟩
  rcases withPreamble_eq_ok hrest with ⟨hreact, -, himports, -⟩ | ⟨react, hreact, -, himports, -⟩
  · rw [himports, hreact]
    exact ⟨.inl, fun h => h.resolve_right nofun⟩
  · rw [himports, moveToFront_iff, hreact, Option.some.injEq, or_comm, eq_comm]

/-- **The imports of a module are the specifiers that its nodes record**, and `React` if it has to be
imported for the elements. -/
theorem mem_imports_iff (hok : lower parser dialect options source = .ok lowered) :
    ∃ body state, (emit ⟨source, options⟩ (parser dialect source)).run {} = .ok (body, state) ∧
      ∀ specifier, specifier ∈ lowered.imports ↔
        (∃ node, Emits ⟨source, options⟩ (parser dialect source) node ∧
          recordedSpecifier? ⟨source, options⟩ node = some specifier) ∨
        state.reactSource? options = some specifier := by
  obtain ⟨body, state, hbody, himports⟩ := exists_run_of_lower hok
  refine ⟨body, state, hbody, fun specifier => ?_⟩
  rw [himports, collected_iff (P := (specifier ∈ ·.imports)) (mem_imports_enter specifier) hbody]
  exact or_congr_left ⟨fun h => h.resolve_left List.not_mem_nil, .inr⟩

/-- The import of `React` is that of the given module. -/
theorem eq_of_reactSource? {state : State} {react : Text} (h : state.reactSource? options = some react) :
    options.importSource?.map Text.ofString = some react := by
  unfold State.reactSource? at h
  split at h
  · obtain ⟨name, hname, rfl⟩ := Option.map_eq_some_iff.mp h
    rw [(Option.filter_eq_some_iff.mp hname).1]
    rfl
  · cases h

/-- No other node that is emitted records the specifier, and it is not the module of `React`. -/
structure RecordsAlone (context : Context) (root node : Node) (specifier : Text) : Prop where
  alone : ∀ other, Emits context root other → recordedSpecifier? context other = some specifier → other = node
  unneeded : context.options.importSource?.map Text.ofString ≠ some specifier

/-- Whether a specifier is an import is up to the only node that may record it. -/
theorem mem_imports_iff_of_alone (hok : lower parser dialect options source = .ok lowered)
    (hemits : Emits ⟨source, options⟩ (parser dialect source) node)
    (h : RecordsAlone ⟨source, options⟩ (parser dialect source) node specifier) :
    specifier ∈ lowered.imports ↔ recordedSpecifier? ⟨source, options⟩ node = some specifier := by
  obtain ⟨body, state, -, himports⟩ := mem_imports_iff hok
  rw [himports]
  refine ⟨fun hmem => ?_, fun hrecorded => .inl ⟨node, hemits, hrecorded⟩⟩
  rcases hmem with ⟨other, hother, hrecorded⟩ | hreact
  · exact h.alone other hother hrecorded ▸ hrecorded
  · exact absurd (eq_of_reactSource? hreact) h.unneeded

end Imports

/-! ## §4. Literals in finished code -/

namespace Code

variable {specifiers : List Text} {position number : Nat} {front back : Code} {cs : List Char}
  {sites : List Site} {specifier : Text}

/-- The literal that fills in a placeholder is a site behind what stands in front of it. -/
theorem site_mem_of_fillFrom (hspecifier : specifiers[number]? = some specifier)
    (hok : fillFrom specifiers position ((front ++ .site number :: back).map Piece.mark) = .ok (cs, sites)) :
    ⟨position + (front.filled specifiers).length,
      position + (front.filled specifiers).length + (Json.literal specifier).toList.length, specifier⟩
      ∈ sites := by
  induction front generalizing position cs sites with
  | nil =>
    obtain ⟨found, rest, others, hfound, -, -, rfl⟩ := fillFrom_site_eq_ok hok
    rw [Option.some.inj (hfound.symm.trans hspecifier)]
    exact List.mem_cons_self
  | cons piece front ih =>
    rw [List.cons_append, List.map_cons] at hok
    have hlength : (filled specifiers (piece :: front)).length
        = (fillPiece specifiers piece).length + (filled specifiers front).length := by
      unfold filled
      rw [List.flatMap_cons, List.length_append]
    rw [hlength, ← Nat.add_assoc]
    cases piece with
    | char c =>
      obtain ⟨rest, hrest, -⟩ := fillFrom_char_eq_ok hok
      exact ih hrest
    | site other =>
      obtain ⟨found, rest, others, hfound, hrest, -, rfl⟩ := fillFrom_site_eq_ok hok
      have hpiece : fillPiece specifiers (.site other) = (Json.literal found).toList := by
        rw [fillPiece, hfound, Option.getD_some]
      rw [hpiece]
      exact List.mem_cons_of_mem _ (ih hrest)

/-- In finished code the literal stands in place of the placeholder, and is a site. -/
theorem IsClean.site_of_finish {code : Code} {text : String} (hclean : code.IsClean specifiers.length)
    (hcode : code = front ++ .site number :: back) (hspecifier : specifiers[number]? = some specifier)
    (hok : finish specifiers code = .ok (text, sites)) :
    text.toList = front.filled specifiers ++ (Json.literal specifier).toList ++ back.filled specifiers ∧
      ⟨(front.filled specifiers).length,
        (front.filled specifiers).length + (Json.literal specifier).toList.length, specifier⟩ ∈ sites := by
  have hfilled := hclean.fillFrom_of_finish hok
  refine ⟨?_, ?_⟩
  · rw [hclean.toList_finish hok, hcode, filled_append, List.append_assoc]
    unfold filled
    rw [List.flatMap_cons, fillPiece, hspecifier, Option.getD_some]
  · rw [hcode] at hfilled
    have hmem := site_mem_of_fillFrom hspecifier hfilled
    rwa [Nat.zero_add] at hmem

end Code

/-- The code of the node stands in the module, and in it stands the literal of the specifier, at a site. -/
def HasSite (lowered : LoweredModule) (context : Context) (node : Node) (specifier : Text) : Prop :=
  ∃ before after opening number closing specifiers front back,
    (emit context node).run before = .ok (opening ++ .site number :: closing, after) ∧
    lowered.code.toList = Code.filled specifiers (front ++ opening) ++ (Json.literal specifier).toList
      ++ Code.filled specifiers (closing ++ back) ∧
    ⟨(Code.filled specifiers (front ++ opening)).length,
      (Code.filled specifiers (front ++ opening)).length + (Json.literal specifier).toList.length, specifier⟩
      ∈ lowered.sites

/-- The literal of the node is collected: its specifier is an import, and it is a site in the code. -/
structure Collects (lowered : LoweredModule) (context : Context) (node literal : Node) : Prop where
  mem_imports : specifierOf context.source literal ∈ lowered.imports
  hasSite : NulFree context.options.factory → NulFree context.options.fragment →
    HasSite lowered context node (specifierOf context.source literal)

section Sites

variable {parser : Parser} {dialect : Dialect} {options : Options} {source : String}
  {lowered : LoweredModule} {node literal : Node}

/-- The literal that an emitted node records is a site of the module. -/
theorem hasSite_of_recorded (hfactory : NulFree options.factory) (hfragment : NulFree options.fragment)
    (hok : lower parser dialect options source = .ok lowered)
    (hemits : Emits ⟨source, options⟩ (parser dialect source) node)
    (hliteral : recordedLiteral? ⟨source, options⟩ node = some literal) :
    HasSite lowered ⟨source, options⟩ node (specifierOf source literal) := by
  obtain ⟨hsource, code, state, hrun, hfinish⟩ := lower_eq_ok hok
  have hclean : code.IsClean state.sites.length :=
    (emitModule_eq_ok hrun).1 ⟨hsource, hfactory, hfragment⟩
  unfold emitModule at hrun
  rw [StateT.run_bind] at hrun
  obtain ⟨⟨body, between⟩, hbody, hrest⟩ := Result.bind_eq_ok_iff.mp hrun
  -- the preamble stands in front of the body, and its specifier behind all others
  have hmodule : body <:+: code ∧ between.sites <+: state.sites := by
    rcases withPreamble_eq_ok hrest with ⟨-, rfl, -, rfl⟩ | ⟨react, -, rfl, -, rfl⟩
    · exact ⟨List.infix_rfl, List.prefix_rfl⟩
    · exact ⟨(List.suffix_append _ _).isInfix, List.prefix_append _ _⟩
  obtain ⟨start, own, stop, hown, hinfix, hsites⟩ := exists_run_of_emits hemits hbody
  obtain ⟨⟨codes, hchain, -⟩, hsite⟩ := opened_of_run hown
  obtain ⟨opening, closing, hpieces⟩ := hsite literal hliteral
  obtain ⟨front, back, hcode⟩ := hinfix.trans hmodule.1
  rw [List.append_assoc, List.singleton_append] at hpieces
  have hwhole : code = (front ++ opening) ++ .site start.sites.length :: (closing ++ back) := by
    rw [← hcode, ← hpieces]
    simp only [List.append_assoc, List.cons_append]
  have hspecifier : state.sites[start.sites.length]? = some (specifierOf source literal) := by
    have hprefix := (hchain.sites_prefix.trans hsites).trans hmodule.2
    have hrecorded : recordedSpecifier? ⟨source, options⟩ node = some (specifierOf source literal) := by
      unfold recordedSpecifier?
      rw [hliteral]
      rfl
    rw [sites_enter, hrecorded] at hprefix
    obtain ⟨others, hothers⟩ := hprefix
    rw [← hothers]
    simp
  obtain ⟨htext, hmem⟩ := hclean.site_of_finish hwhole hspecifier hfinish
  exact ⟨start, stop, opening, _, closing, state.sites, front, back, by rw [hpieces, hown], htext, hmem⟩

/-- **A literal that an emitted node records is collected.** -/
theorem collects_of_recorded (hok : lower parser dialect options source = .ok lowered)
    (hemits : Emits ⟨source, options⟩ (parser dialect source) node)
    (hliteral : recordedLiteral? ⟨source, options⟩ node = some literal) :
    Collects lowered ⟨source, options⟩ node literal where
  mem_imports := by
    obtain ⟨body, state, -, himports⟩ := mem_imports_iff hok
    refine (himports _).mpr (.inl ⟨node, hemits, ?_⟩)
    rw [recordedSpecifier?, hliteral]
    rfl
  hasSite hfactory hfragment := hasSite_of_recorded hfactory hfragment hok hemits hliteral

end Sites

end LivePreview.Lowering
