/-
  LivePreview.Proofs.Lowering.Erased.Reading
  ──────────────────────────────────────────
  **What rules read of a source.**

  A tree may be emitted over two sources in which its nodes have the same places.  The rule for
  a node takes from the source what stands between the children of the node and of some nodes in
  it, and a few texts that it copies or compares: names, keys, literals, the bindings that a
  clause keeps, and the text between elements (`readStretches`).

  Drafts of the same nodes are assembled alike if what stands between the nodes is the same and
  if what is emitted in their places is emitted alike (`Tracks.agree_assemble`).  So are imports,
  exports and calls, if what they read is the same.
-/
import LivePreview.Proofs.Lowering.Erased.Exposed
import LivePreview.Proofs.Lowering.Types.Agreement

namespace LivePreview.Lowering

open LivePreview.Syntax (Node)

variable {context other : Context} {node : Node}

/-! ## §1. What rules read -/

/-- A string literal and its parts. -/
def literalNodes (literal : Node) : List Node :=
  literal :: literal.namedChildren

/-- The names in a part of an import clause, if they are no types. -/
def bindingNodes (part : Node) : List Node :=
  if part.kind == "identifier" then [part]
  else if part.kind == "namespace_import" then part :: part.namedChildren
  else if part.kind == "named_imports" then
    (keptImports part).flatMap fun specifier => specifier :: (localName? specifier).toList
  else []

/-- What is left of an import clause.  A clause without braces may be copied as it is. -/
def importClauseNodes (clause : Node) : List Node :=
  clause.namedChildren.flatMap bindingNodes
    ++ if clause.namedChildren.any (·.kind == "named_imports") then [] else [clause]

/-- What is left of an export clause.  A clause without names is copied as it is. -/
def exportClauseNodes (clause : Node) : List Node :=
  let specifiers := clause.namedChildren.filter (·.kind == "export_specifier")
  if specifiers.isEmpty then [clause] else specifiers.filter (!isTypeOnly ·)

/-- The literal that names the source of a statement. -/
def sourceNodes (node : Node) : List Node :=
  (node.childByField? "source").toList.flatMap literalNodes

/-- The key of a member of an enumeration, and the numeral that the next member is counted on from. -/
def memberNodes (member : Node) : List Node :=
  if member.kind == "enum_assignment" then
    (member.childByField? "name" <|> member.namedChildren.head?).toList
      ++ (initializer? member).toList.filter (·.kind == "number")
  else if isBare member then [member]
  else []

/-- The name of an attribute, and its value if that is in quotes. -/
def attributeNodes (part : Node) : List Node :=
  if part.kind == "jsx_attribute" then
    part.namedChildren.head?.toList
      ++ part.namedChildren[1]?.toList.filter fun value => value.kind == "string" || value.kind == "jsx_string"
  else []

/-- The name in a tag, and what its attributes are made of. -/
def tagNodes (tag : Node) : List Node :=
  (tag.childByField? "name").toList ++ tag.namedChildren.flatMap attributeNodes

/-- The nodes whose text the rule for a node copies or reads. -/
def readNodes (node : Node) : List Node :=
  match node.kind with
  | "import_statement" =>
    if node.hasToken "type" then []
    else sourceNodes node
      ++ (node.namedChildren.find? (·.kind == "import_clause")).toList.flatMap importClauseNodes
  | "export_statement" =>
    if exportsTypes node then []
    else sourceNodes node
      ++ (node.namedChildren.find? (·.kind == "export_clause")).toList.flatMap exportClauseNodes
  | "call_expression" => (importedLiteral? node).toList.flatMap literalNodes
  | "method_definition" => parameterNames node
  | "enum_declaration" => (node.childByField? "name").toList ++ (enumMembers node).flatMap memberNodes
  | "jsx_self_closing_element" => tagNodes node
  | "jsx_element" => (openingTag? node).toList.flatMap tagNodes
  | _ => []

/-- The children between two offsets of an element that are no text. -/
def innerChildren (start stop : Nat) (node : Node) : List Node :=
  node.children.filter fun child => child.isNamed && start ≤ child.start && child.stop ≤ stop
    && child.kind != "jsx_text" && child.kind != "html_character_reference"

/-- The runs of text between the children of an element. -/
def runSpans (node : Node) : List (Nat × Nat) :=
  match node.kind with
  | "jsx_element" => (tags? node).toList.flatMap fun tags =>
    Node.spans tags.2.start tags.1.stop (innerChildren tags.1.stop tags.2.start node)
  | "jsx_fragment" => (bounds? node).toList.flatMap fun bounds =>
    Node.spans bounds.2.start bounds.1.stop (innerChildren bounds.1.stop bounds.2.start node)
  | _ => []

/-- The stretches of the source that the rule for a node copies or reads, beside what stands between its
children. -/
def readStretches (node : Node) : List (Nat × Nat) :=
  (readNodes node).map extent ++ runSpans node

/-- The method is named as constructors are. -/
def isConstructor (context : Context) (method : Node) : Bool :=
  (method.childByField? "name").any (context.text · == "constructor")

/-- What stands between the children of a node is the same in both sources. -/
def GapsAlike (context other : Context) (node : Node) : Prop :=
  Node.gaps context.source node.stop node.start node.children
    = Node.gaps other.source node.stop node.start node.children

/-- The node is emitted alike over both sources. -/
def Same (context other : Context) (node : Node) : Prop :=
  Agree (emit context node) (emit other node)

/-- The texts of some nodes are the same in both sources. -/
def TextsAlike (context other : Context) (nodes : List Node) : Prop :=
  ∀ node ∈ nodes, context.text node = other.text node

theorem any_eq_of_forall {p q : Node → Bool} {nodes : List Node} (h : ∀ node ∈ nodes, p node = q node) :
    nodes.any p = nodes.any q :=
  any_eq_of_forall₂ (List.forall₂_same.mpr h) fun _ _ => id

section Texts

variable {nodes nodes' : List Node}

theorem TextsAlike.mono (h : TextsAlike context other nodes) (hsubset : nodes' ⊆ nodes) :
    TextsAlike context other nodes' :=
  fun node hnode => h node (hsubset hnode)

theorem TextsAlike.map_eq (h : TextsAlike context other nodes) :
    nodes.map context.text = nodes.map other.text :=
  List.map_congr_left h

theorem TextsAlike.option {found? : Option Node} (h : TextsAlike context other found?.toList) {found : Node}
    (hfound : found? = some found) : context.text found = other.text found :=
  h found (Option.mem_toList.mpr hfound)

/-- What is read of one of some nodes. -/
theorem TextsAlike.flatMap {f : Node → List Node} (h : TextsAlike context other (nodes.flatMap f))
    (hnode : node ∈ nodes) : TextsAlike context other (f node) :=
  fun part hpart => h part (List.mem_flatMap.mpr ⟨node, hnode, hpart⟩)

end Texts

/-! ## §2. Drafts of the same nodes -/

/-- The drafts on both sides are those of the nodes in the places, and their steps agree if what is
emitted in the place is emitted alike. -/
inductive Tracks (context other : Context) : List Draft → List Draft → List Place → Prop where
  | nil : Tracks context other [] [] []
  | cons {draft draft' : Draft} {place : Place} {drafts drafts' : List Draft} {places : List Place}
    (hnode : draft.node = place.node) (hnode' : draft'.node = place.node)
    (hemission : (∀ part ∈ place.parts, Same context other part) → Agree draft.emission draft'.emission)
    (hrest : Tracks context other drafts drafts' places) :
    Tracks context other (draft :: drafts) (draft' :: drafts') (place :: places)

theorem tracks_map_draft (context other : Context) (nodes : List Node) :
    Tracks context other (nodes.map (draft context)) (nodes.map (draft other)) (nodes.map Place.ofNode) := by
  induction nodes with
  | nil => exact .nil
  | cons node nodes ih =>
    exact .cons (node_draft context node) (node_draft other node)
      (fun h => h node (List.mem_singleton_self node)) ih

section Tracks

variable {drafts drafts' : List Draft} {places : List Place} {p : Draft → Bool} {q : Node → Bool}
  {f f' : Draft → Emit Code} {g : Node → List Node}

/-- The steps of the first drafts that satisfy a condition are exchanged on both sides. -/
theorem Tracks.replaceFirst (h : Tracks context other drafts drafts' places) (hpq : ∀ draft, p draft = q draft.node)
    (hf : ∀ draft ∈ drafts, ∀ draft' ∈ drafts', draft.node = draft'.node → q draft.node = true →
      (∀ part ∈ g draft.node, Same context other part) → Agree (f draft) (f' draft')) :
    Tracks context other (Draft.replaceFirst p f drafts) (Draft.replaceFirst p f' drafts')
      (Place.exchangeFirst q g places) := by
  induction h with
  | nil => exact .nil
  | @cons draft draft' place drafts drafts' places hnode hnode' hemission hrest ih =>
    have hp : p draft = q place.node := (hpq draft).trans (congrArg q hnode)
    have hp' : p draft' = q place.node := (hpq draft').trans (congrArg q hnode')
    unfold Draft.replaceFirst Place.exchangeFirst
    rw [hp, hp']
    split
    · next hq =>
      refine .cons hnode hnode' (fun hparts => ?_) hrest
      exact hf draft List.mem_cons_self draft' List.mem_cons_self (hnode.trans hnode'.symm) (hnode ▸ hq)
        (hnode ▸ hparts)
    · exact .cons hnode hnode' hemission (ih fun draft hdraft draft' hdraft' =>
        hf draft (List.mem_cons_of_mem _ hdraft) draft' (List.mem_cons_of_mem _ hdraft'))

/-- The steps of all drafts that satisfy a condition are exchanged for the same step. -/
theorem Tracks.replaceEach (h : Tracks context other drafts drafts' places) (hpq : ∀ draft, p draft = q draft.node)
    {step : Emit Code} :
    Tracks context other (Draft.replaceEach p (fun _ => step) drafts) (Draft.replaceEach p (fun _ => step) drafts')
      (Place.exchangeEach q (fun _ => []) places) := by
  induction h with
  | nil => exact .nil
  | @cons draft draft' place drafts drafts' places hnode hnode' hemission hrest ih =>
    have hp : p draft = q place.node := (hpq draft).trans (congrArg q hnode)
    have hp' : p draft' = q place.node := (hpq draft').trans (congrArg q hnode')
    unfold Draft.replaceEach Place.exchangeEach at ih ⊢
    rw [List.map_cons, List.map_cons, List.map_cons, hp, hp']
    split
    · exact .cons hnode hnode' (fun _ => .refl _) ih
    · exact .cons hnode hnode' hemission ih

theorem Tracks.agree_assembleFrom (h : Tracks context other drafts drafts' places) {stop position : Nat}
    (hgaps : Node.gaps context.source stop position (places.map Place.node)
      = Node.gaps other.source stop position (places.map Place.node))
    (hparts : ∀ part ∈ Place.partsOf places, Same context other part) :
    Agree (Draft.assembleFrom context.source stop position drafts)
      (Draft.assembleFrom other.source stop position drafts') := by
  induction h generalizing position with
  | nil =>
    unfold Draft.assembleFrom
    rw [(List.cons.inj hgaps).1]
    exact .refl _
  | @cons draft draft' place drafts drafts' places hnode hnode' hemission _ ih =>
    obtain ⟨hgap, hgaps⟩ := List.cons.inj hgaps
    unfold Draft.assembleFrom
    rw [hnode, hnode']
    refine (hemission fun part hpart => hparts part (List.mem_append_left _ hpart)).bind fun code => ?_
    refine (ih hgaps fun part hpart => hparts part (List.mem_append_right _ hpart)).bind fun rest => ?_
    rw [hgap]
    exact .refl _

/-- **What is assembled from drafts of the same nodes agrees.** -/
theorem Tracks.agree_assemble (h : Tracks context other drafts drafts' places)
    (hgaps : GapsAlike context other node) (hnodes : places.map Place.node = node.children)
    (hparts : ∀ part ∈ Place.partsOf places, Same context other part) :
    Agree (Draft.assemble context node drafts) (Draft.assemble other node drafts') := by
  unfold GapsAlike at hgaps
  rw [← hnodes] at hgaps
  unfold Draft.assemble
  cases h with
  | nil =>
    -- a node without children is one gap
    have htext : context.text node = other.text node := (List.cons.inj hgaps).1
    rw [htext]
    exact .refl _
  | cons hnode hnode' hemission hrest =>
    exact (Tracks.cons hnode hnode' hemission hrest).agree_assembleFrom hgaps hparts

end Tracks

theorem map_node_exchangeEach (q : Node → Bool) (g : Node → List Node) (places : List Place) :
    (Place.exchangeEach q g places).map Place.node = places.map Place.node := by
  unfold Place.exchangeEach
  rw [List.map_map]
  refine List.map_congr_left fun place _ => ?_
  rw [Function.comp_apply]
  split <;> rfl

/-- A node that is assembled from its children. -/
theorem same_assemble (hgaps : GapsAlike context other node)
    (hparts : ∀ part ∈ node.children, Same context other part) :
    Agree (Draft.assemble context node (node.children.map (draft context)))
      (Draft.assemble other node (node.children.map (draft other))) := by
  refine (tracks_map_draft context other node.children).agree_assemble hgaps (map_node_ofNode _) ?_
  rwa [Place.partsOf_map_ofNode]

/-- A node that loses some of its tokens. -/
theorem same_dropTokens {kinds : List String} (hgaps : GapsAlike context other node)
    (hparts : ∀ part ∈ node.children.filter fun child => !(!child.isNamed && kinds.contains child.kind),
      Same context other part) :
    Agree (Draft.dropTokens context kinds node (node.children.map (draft context)))
      (Draft.dropTokens other kinds node (node.children.map (draft other))) := by
  refine Tracks.agree_assemble ((tracks_map_draft context other node.children).replaceEach
    (p := Draft.isTokenAmong kinds) (q := fun child => !child.isNamed && kinds.contains child.kind) fun _ => rfl)
    hgaps ((map_node_exchangeEach _ _ _).trans (map_node_ofNode _)) ?_
  rwa [Place.partsOf_exchangeEach_nil]

/-- The same node is demanded on both sides. -/
theorem same_demand {α : Type} {found? : Option Node} {next next' : Node → Emit α}
    (hnext : ∀ found, found? = some found → Agree (next found) (next' found)) :
    Agree (demand found? >>= next) (demand found? >>= next') := by
  cases found? with
  | none => exact .refl _
  | some found => exact hnext found rfl

theorem same_emitDemanded {found? : Option Node} (hparts : ∀ part ∈ found?.toList, Same context other part) :
    Agree (emitDemanded (found?.map (draft context))) (emitDemanded (found?.map (draft other))) := by
  unfold emitDemanded
  rw [demand_map, demand_map]
  simp only [bind_assoc, pure_bind]
  exact same_demand fun found hfound => hparts found (Option.mem_toList.mpr hfound)

/-! ## §3. Statements and calls -/

section Statements

theorem TextsAlike.specifierOf_eq {literal : Node} (h : TextsAlike context other (literalNodes literal)) :
    specifierOf context.source literal = specifierOf other.source literal := by
  obtain ⟨hliteral, hparts⟩ := List.forall_mem_cons.mp h
  have hpoints : literal.namedChildren.flatMap (partPoints context.source)
      = literal.namedChildren.flatMap (partPoints other.source) := by
    refine List.flatMap_congr fun part hpart => ?_
    have htext : part.text context.source = part.text other.source := hparts part hpart
    unfold partPoints
    rw [htext]
  have htext : literal.text context.source = literal.text other.source := hliteral
  unfold specifierOf
  rw [hpoints, htext]

theorem TextsAlike.clauseParts_eq {part : Node} (h : TextsAlike context other (bindingNodes part)) :
    clauseParts context part = clauseParts other part := by
  unfold bindingNodes at h
  unfold clauseParts
  cases hidentifier : part.kind == "identifier" with
  | true =>
    rw [if_pos hidentifier] at h
    rw [Bool.true_or, if_pos rfl, if_pos rfl, h part (List.mem_singleton_self part)]
  | false =>
    rw [if_neg (by rw [hidentifier]; exact Bool.false_ne_true)] at h
    rw [Bool.false_or]
    split
    · next hnamespace =>
      rw [if_pos hnamespace] at h
      rw [h part List.mem_cons_self]
    · next hnamespace =>
      rw [if_neg hnamespace] at h
      split
      · next hnamed =>
        rw [if_pos hnamed] at h
        have htexts : (keptImports part).map context.text = (keptImports part).map other.text :=
          List.map_congr_left fun specifier hspecifier =>
            h specifier (List.mem_flatMap.mpr ⟨specifier, hspecifier, List.mem_cons_self⟩)
        split
        · rfl
        · next hkept => rw [htexts]
      · rfl

theorem TextsAlike.partBindsReact_eq {part : Node} (h : TextsAlike context other (bindingNodes part)) :
    partBindsReact context part = partBindsReact other part := by
  have hreact {node : Node} (htext : context.text node = other.text node) :
      isReact context node = isReact other node := by
    unfold isReact
    rw [htext]
  unfold bindingNodes at h
  unfold partBindsReact
  split
  · next hidentifier =>
    rw [if_pos hidentifier] at h
    exact hreact (h part (List.mem_singleton_self part))
  · next hidentifier =>
    rw [if_neg hidentifier] at h
    split
    · next hnamespace =>
      rw [if_pos hnamespace] at h
      exact any_eq_of_forall fun name hname => hreact (h name (List.mem_cons_of_mem _ hname))
    · next hnamespace =>
      rw [if_neg hnamespace] at h
      split
      · next hnamed =>
        rw [if_pos hnamed] at h
        refine any_eq_of_forall fun specifier hspecifier => ?_
        cases hname : localName? specifier with
        | none => rfl
        | some name =>
          refine hreact (h name (List.mem_flatMap.mpr ⟨specifier, hspecifier, List.mem_cons_of_mem _ ?_⟩))
          exact Option.mem_toList.mpr hname
      · rfl

section Clause

variable {clause : Node}

theorem TextsAlike.clauseText?_eq (h : TextsAlike context other (importClauseNodes clause)) :
    clauseText? context clause = clauseText? other clause := by
  have hparts : clause.namedChildren.flatMap (clauseParts context)
      = clause.namedChildren.flatMap (clauseParts other) :=
    List.flatMap_congr fun part hpart => ((h.mono (List.subset_append_left _ _)).flatMap hpart).clauseParts_eq
  unfold clauseText?
  rw [hparts]
  split
  · split
    · rfl
    · next hnamed =>
      -- the clause names nothing in braces, and is copied
      rw [h clause (List.mem_append_right _ (by rw [if_neg hnamed]; exact List.mem_singleton_self clause))]
  · rfl

theorem TextsAlike.noteReact_eq (h : TextsAlike context other (importClauseNodes clause)) :
    noteReact context clause = noteReact other clause := by
  have hbinds : clause.namedChildren.any (partBindsReact context)
      = clause.namedChildren.any (partBindsReact other) :=
    any_eq_of_forall fun part hpart => ((h.mono (List.subset_append_left _ _)).flatMap hpart).partBindsReact_eq
  unfold noteReact
  rw [hbinds]

theorem TextsAlike.exportClauseText?_eq (h : TextsAlike context other (exportClauseNodes clause)) :
    exportClauseText? context clause = exportClauseText? other clause := by
  unfold exportClauseNodes at h
  unfold exportClauseText?
  dsimp only at h ⊢
  cases hnames : (clause.namedChildren.filter (·.kind == "export_specifier")).isEmpty with
  | true =>
    rw [if_pos hnames] at h
    rw [h clause (List.mem_singleton_self clause), List.isEmpty_iff.mp hnames]
    rfl
  | false =>
    rw [if_neg (by rw [hnames]; exact Bool.false_ne_true)] at h
    split
    · rfl
    · next hkept => rw [h.map_eq]

end Clause

variable {drafts drafts' : List Draft} {places : List Place}

/-- A statement with its source, whose clause may have been replaced. -/
theorem same_replaceSource (literal : Code) (h : Tracks context other drafts drafts' places)
    (hgaps : GapsAlike context other node) (hnodes : places.map Place.node = node.children)
    (hparts : ∀ part ∈ Place.partsOf (Place.exchangeFirst (·.field? == some "source") (fun _ => []) places),
      Same context other part) :
    Agree (Draft.assemble context node (replaceSource literal drafts))
      (Draft.assemble other node (replaceSource literal drafts')) :=
  (h.replaceFirst (fun _ => rfl) fun _ _ _ _ _ _ _ => .refl _).agree_assemble hgaps
    ((map_node_exchangeFirst _ _ _).trans hnodes) hparts

theorem same_keptImport (hsource : TextsAlike context other (sourceNodes node))
    (h : Tracks context other drafts drafts' places)
    (hgaps : GapsAlike context other node) (hnodes : places.map Place.node = node.children)
    (hparts : ∀ part ∈ Place.partsOf (Place.exchangeFirst (·.field? == some "source") (fun _ => []) places),
      Same context other part) :
    Agree (keptImport context node drafts) (keptImport other node drafts') := by
  unfold keptImport
  refine same_demand fun source hfound => ?_
  rw [(hsource.flatMap (Option.mem_toList.mpr hfound)).specifierOf_eq]
  exact .then _ fun literal => same_replaceSource literal h hgaps hnodes hparts

theorem same_keptExport (hsource : TextsAlike context other (sourceNodes node))
    (h : Tracks context other drafts drafts' places)
    (hgaps : GapsAlike context other node) (hnodes : places.map Place.node = node.children)
    (hparts : ∀ part ∈ Place.partsOf (Place.exchangeFirst (·.field? == some "source") (fun _ => []) places),
      Same context other part) :
    Agree (keptExport context node drafts) (keptExport other node drafts') := by
  unfold keptExport
  cases hfound : node.childByField? "source" with
  | none =>
    rw [exchangeFirst_source hnodes hfound] at hparts
    exact h.agree_assemble hgaps hnodes hparts
  | some source =>
    dsimp only
    rw [(hsource.flatMap (Option.mem_toList.mpr hfound)).specifierOf_eq]
    exact .then _ fun literal => same_replaceSource literal h hgaps hnodes hparts

/-- Without the clause that is a text. -/
theorem tracks_replaceClause (kind text : String) (node : Node) :
    Tracks context other (replaceClause kind text (node.children.map (draft context)))
      (replaceClause kind text (node.children.map (draft other)))
      (Place.exchangeFirst (fun child => child.isNamed && child.kind == kind) (fun _ => [])
        (node.children.map Place.ofNode)) :=
  (tracks_map_draft context other node.children).replaceFirst (fun _ => rfl) fun _ _ _ _ _ _ _ => .refl _

theorem same_importStatement (hkind : node.kind = "import_statement")
    (hgaps : node.hasToken "type" = false → GapsAlike context other node)
    (htexts : TextsAlike context other (readNodes node))
    (hparts : importsTypes context node = false →
      ∀ part ∈ statementParts "import_clause" node, Same context other part) :
    Agree (importStatement context node (node.children.map (draft context)))
      (importStatement other node (node.children.map (draft other))) := by
  have htracks := tracks_map_draft context other node.children
  have hnodes := map_node_ofNode node.children
  rw [importStatement_eq, importStatement_eq]
  cases htype : node.hasToken "type" with
  | true =>
    rw [if_pos rfl, if_pos rfl]
    exact .refl _
  | false =>
    have hread : readNodes node = sourceNodes node
        ++ (node.namedChildren.find? (·.kind == "import_clause")).toList.flatMap importClauseNodes := by
      unfold readNodes
      rw [hkind, htype]
      rfl
    rw [hread] at htexts
    have hsource := htexts.mono (List.subset_append_left _ _)
    rw [if_neg Bool.false_ne_true, if_neg Bool.false_ne_true]
    split
    · exact agree_reject
    · cases hclause : node.namedChildren.find? (·.kind == "import_clause") with
      | none =>
        refine same_keptImport hsource htracks (hgaps htype) hnodes ?_
        rw [← exchangeFirst_clause hclause]
        refine hparts ?_
        rw [importsTypes, htype, hclause]
        rfl
      | some clause =>
        have hnames := (htexts.mono (List.subset_append_right _ _)).flatMap (Option.mem_toList.mpr hclause)
        dsimp only
        rw [hnames.noteReact_eq, hnames.clauseText?_eq]
        refine .then _ fun _ => ?_
        cases htext : clauseText? other clause with
        | none => exact .refl _
        | some text =>
          refine same_keptImport hsource (tracks_replaceClause "import_clause" text node) (hgaps htype)
            ((map_node_exchangeFirst _ _ _).trans hnodes) (hparts ?_)
          rw [importsTypes, htype, hclause, Option.any_some, hnames.clauseText?_eq, htext]
          rfl

theorem same_exportStatement (hkind : node.kind = "export_statement")
    (hgaps : exportsTypes node = false → GapsAlike context other node)
    (htexts : TextsAlike context other (readNodes node))
    (hparts : exportsNothing context node = false →
      ∀ part ∈ statementParts "export_clause" node, Same context other part) :
    Agree (exportStatement context node (node.children.map (draft context)))
      (exportStatement other node (node.children.map (draft other))) := by
  have htracks := tracks_map_draft context other node.children
  have hnodes := map_node_ofNode node.children
  rw [exportStatement_eq, exportStatement_eq]
  cases htypes : exportsTypes node with
  | true =>
    rw [if_pos rfl, if_pos rfl]
    exact .refl _
  | false =>
    have hread : readNodes node = sourceNodes node
        ++ (node.namedChildren.find? (·.kind == "export_clause")).toList.flatMap exportClauseNodes := by
      unfold readNodes
      rw [hkind, htypes]
      rfl
    rw [hread] at htexts
    have hsource := htexts.mono (List.subset_append_left _ _)
    rw [if_neg Bool.false_ne_true, if_neg Bool.false_ne_true]
    split
    · exact agree_reject
    · cases hclause : node.namedChildren.find? (·.kind == "export_clause") with
      | none =>
        refine same_keptExport hsource htracks (hgaps htypes) hnodes ?_
        rw [← exchangeFirst_clause hclause]
        refine hparts ?_
        rw [exportsNothing, htypes, hclause]
        rfl
      | some clause =>
        have hnames := (htexts.mono (List.subset_append_right _ _)).flatMap (Option.mem_toList.mpr hclause)
        dsimp only
        rw [hnames.exportClauseText?_eq]
        cases htext : exportClauseText? other clause with
        | none => exact .refl _
        | some text =>
          refine same_keptExport hsource (tracks_replaceClause "export_clause" text node) (hgaps htypes)
            ((map_node_exchangeFirst _ _ _).trans hnodes) (hparts ?_)
          rw [exportsNothing, htypes, hclause, Option.any_some, hnames.exportClauseText?_eq, htext]
          rfl

/-- The arguments of a call of `import`, of which the first one is a placeholder. -/
theorem same_arguments {arguments : Node} (literal : Code) (hgaps : GapsAlike context other arguments)
    (hparts : ∀ part ∈ argumentParts arguments, Same context other part) :
    Agree (Draft.assemble context arguments
        (Draft.replaceFirst Draft.isNamed (fun _ => return literal) (arguments.children.map (draft context))))
      (Draft.assemble other arguments
        (Draft.replaceFirst Draft.isNamed (fun _ => return literal) (arguments.children.map (draft other)))) :=
  ((tracks_map_draft context other arguments.children).replaceFirst (fun _ => rfl)
    fun _ _ _ _ _ _ _ => .refl _).agree_assemble hgaps
    ((map_node_exchangeFirst _ _ _).trans (map_node_ofNode _)) hparts

theorem same_callExpression (hkind : node.kind = "call_expression") (hgaps : GapsAlike context other node)
    (hopen : ∀ part ∈ openParts node, GapsAlike context other part)
    (htexts : TextsAlike context other (readNodes node))
    (hparts : ∀ part ∈ callParts node, Same context other part) :
    Agree (callExpression context node (node.children.map (draft context)))
      (callExpression other node (node.children.map (draft other))) := by
  have hread : readNodes node = (importedLiteral? node).toList.flatMap literalNodes := by
    unfold readNodes
    rw [hkind]
    rfl
  rw [hread] at htexts
  unfold callParts at hparts
  unfold callExpression
  cases hliteral : importedLiteral? node with
  | none =>
    rw [hliteral] at hparts
    exact same_assemble hgaps hparts
  | some first =>
    rw [hliteral] at hparts
    dsimp only at hparts ⊢
    rw [(htexts.flatMap (Option.mem_toList.mpr hliteral)).specifierOf_eq]
    refine .then _ fun literal => Tracks.agree_assemble ((tracks_map_draft context other node.children).replaceFirst
      (fun _ => rfl) ?_) hgaps ((map_node_exchangeFirst _ _ _).trans (map_node_ofNode _)) hparts
    -- the arguments are taken apart on both sides
    refine List.forall_mem_map.mpr fun arguments hmem => List.forall_mem_map.mpr fun arguments' _ hsame hfield => ?_
    rw [node_draft, node_draft] at hsame
    cases hsame
    rw [node_draft] at hfield
    rw [node_draft, node_draft, children_draft, children_draft]
    refine fun hinner => same_arguments literal (hopen arguments ?_) hinner
    unfold openParts
    rw [hkind]
    exact List.mem_filter.mpr ⟨hmem, hfield⟩

end Statements

end LivePreview.Lowering
