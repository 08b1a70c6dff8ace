/-
  LivePreview.Proofs.Preview.ImportMap
  ────────────────────────────────────
  **Where the import map of a page leads.**

  The import map is written as JSON without less-than signs, and it is read back as the
  table that it was written from (`read_importMap`).  In that table stand the references
  of modules by id, and over them the URLs of externals by specifier
  (`get?_importTable`).  So each specifier leads to its URL, and each id to its
  reference unless some script imports the id itself: the configuration decides whether
  that is an external (`Document.Maps.isUnambiguous_iff`, `maps_of_build`).
-/
import LivePreview.Proofs.Json.Reading
import LivePreview.Proofs.Preview.Elements
import LivePreview.Proofs.Preview.Externals
import LivePreview.Proofs.Preview.Spelling

namespace LivePreview.Preview

open LivePreview.Json (AreBlanks IsLegible Reads fieldPoints margin enquoted)
open LivePreview.Lowering (Parser)
open LivePreview.Module (Registry)
open LivePreview.Text (replaceAll unlines)

/-! ## §1. Values in a script -/

/-- What stands in a script for a code point of JSON. -/
def shield (point : CodePoint) : List CodePoint :=
  if point = .char '<' then ("\\u003c" : Text).points else [point]

theorem flatMap_shield_of_not_mem {points : List CodePoint} (h : .char '<' ∉ points) :
    points.flatMap shield = points := by
  have hself : ∀ point ∈ points, shield point = [point] := by
    intro point hpoint
    exact if_neg (ne_of_mem_of_not_mem hpoint h)
  rw [List.flatMap_congr hself, List.flatMap_singleton']

/-- A value as it stands in a script at a level. -/
def scripted (level : Nat) (value : Json) : List CodePoint :=
  (value.page level).points.flatMap shield

theorem points_scriptJson (value : Json) : (scriptJson value).points = scripted 0 value :=
  Text.points_replaceAll_singleton _ _ _

/-- A code point of a text as it stands in a script. -/
def scriptPoint (point : CodePoint) : List CodePoint :=
  ((Json.escapePoint point).map CodePoint.char).flatMap shield

/-- A less-than sign stands there as the escape of its unit, everything else as in any literal. -/
theorem isLegible_scriptPoint : IsLegible scriptPoint := by
  intro point
  by_cases hmem : '<' ∈ Json.escapePoint point
  · rcases Json.escapePoint_cases point with ⟨c, rfl, hself, -⟩ | ⟨-, tail, hwritten, htail⟩
    · rw [hself, List.mem_singleton] at hmem
      subst hmem
      have hwritten : scriptPoint (.char '<') = (Json.unitEscape 0x3c).map CodePoint.char := by decide +kernel
      rw [hwritten]
      exact ⟨[.unit 0x3c], .inr rfl, Json.spells_unitEscape (by decide)⟩
    · rw [hwritten, List.mem_cons] at hmem
      exact absurd (htail '<' (hmem.resolve_left (by decide))) (by decide)
  · have hplain : scriptPoint point = (Json.escapePoint point).map CodePoint.char :=
      flatMap_shield_of_not_mem (by simpa using hmem)
    rw [hplain]
    exact Json.exists_spells_escapePoint point

theorem flatMap_shield_literal (text : Text) :
    (Json.literal text : Text).points.flatMap shield = enquoted scriptPoint text := by
  have hquote : shield (.char '"') = [.char '"'] := rfl
  have hbody : (literalBody text).flatMap shield = text.points.flatMap scriptPoint := by
    unfold literalBody
    rw [List.map_flatMap, List.flatMap_assoc]
    rfl
  rw [points_literal, List.flatMap_cons, List.flatMap_append, hbody, List.flatMap_singleton, hquote]
  rfl

theorem areBlanks_margin (level : Nat) : AreBlanks (margin level).points := by
  have hpoints : (margin level).points = .char '\n' :: List.replicate (2 * level) (.char ' ') := by
    show _ :: ((String.ofList _).toList.map CodePoint.char) = _
    rw [String.toList_ofList, List.map_replicate]
    rfl
  unfold AreBlanks
  rw [hpoints, List.forall_mem_cons]
  refine ⟨by decide, fun point hpoint => ?_⟩
  rw [List.eq_of_mem_replicate hpoint]
  decide

theorem flatMap_shield_margin (level : Nat) : (margin level).points.flatMap shield = (margin level).points :=
  flatMap_shield_of_not_mem fun hmem => absurd (areBlanks_margin level _ hmem) (by decide)

/-- A field as it is written on a line of a page. -/
def lineOf (level : Nat) (field : Text × Json) : Text :=
  (Json.literal field.1 : Text) ++ ": " ++ field.2.page level

theorem pageFields_eq_map (level : Nat) (fields : Json.Fields) :
    Json.pageFields level fields = fields.map (lineOf level) := by
  induction fields with
  | nil => rfl
  | cons field fields ih => rw [Json.pageFields, ih]; rfl

theorem flatMap_shield_lineOf (level : Nat) (field : Text × Json) :
    (lineOf level field).points.flatMap shield = fieldPoints scriptPoint (scripted level) field := by
  show ((Json.literal field.1 : Text).points ++ [CodePoint.char ':', CodePoint.char ' ']
    ++ (field.2.page level).points).flatMap shield = _
  rw [List.flatMap_append, List.flatMap_append, flatMap_shield_literal, List.append_assoc]
  rfl

/-- An object stands in a script with each of its fields on a line. -/
theorem scripted_object (level : Nat) {fields : Json.Fields} (hne : fields ≠ []) :
    scripted level (.object fields) = .char '\x7b' :: ((margin (level + 1)).points
      ++ (.char ',' :: (margin (level + 1)).points).intercalate
        (fields.map (fieldPoints scriptPoint (scripted (level + 1))))
      ++ ((margin level).points ++ [.char '\x7d'])) := by
  have hpage : ((Json.object fields).page level).points = .char '\x7b' :: ((margin (level + 1)).points
      ++ (.char ',' :: (margin (level + 1)).points).intercalate
        (fields.map fun field => (lineOf (level + 1) field).points)
      ++ ((margin level).points ++ [.char '\x7d'])) := by
    rw [Json.page, pageFields_eq_map]
    unfold Json.block
    rw [if_neg (by simpa using hne)]
    show [CodePoint.char '\x7b'] ++ _ ++ List.intercalate _ ((fields.map _).map Text.points) ++ _ ++ _ = _
    rw [List.map_map, List.append_assoc]
    rfl
  have hfields : ((fun line : List CodePoint => line.flatMap shield) ∘ fun field =>
      (lineOf (level + 1) field).points) = fieldPoints scriptPoint (scripted (level + 1)) :=
    funext (flatMap_shield_lineOf (level + 1))
  show ((Json.object fields).page level).points.flatMap shield = _
  rw [hpage, List.flatMap_cons, List.flatMap_append, List.flatMap_append, List.flatMap_append,
    flatMap_shield_margin, flatMap_shield_margin, Text.flatMap_intercalate, List.flatMap_cons,
    flatMap_shield_margin, List.map_map, hfields]
  rfl

/-- **An object in a script is read as the object that it is**, if the values in it are. -/
theorem reads_scripted_object {levels level : Nat} {fields : Json.Fields} {back : Json → Json}
    (hvalues : ∀ field ∈ fields, Reads levels (scripted (level + 1) field.2) (back field.2)) :
    Reads (levels + 1) (scripted level (.object fields))
      (.object (Table.ofPairs (fields.map fun field => (field.1.joined, back field.2)))) := by
  by_cases hne : fields = []
  · have hnone : AreBlanks [] := nofun
    subst hne
    exact Json.reads_object isLegible_scriptPoint hnone hnone hnone hvalues
  · rw [scripted_object level hne]
    exact Json.reads_object isLegible_scriptPoint (areBlanks_margin _) (areBlanks_margin _)
      (areBlanks_margin _) hvalues

theorem reads_scripted_text (levels level : Nat) (text : Text) :
    Reads levels (scripted level (.text text)) (.text text.joined) := by
  have hwritten : scripted level (.text text) = enquoted scriptPoint text := flatMap_shield_literal text
  rw [hwritten]
  exact Json.reads_enquoted isLegible_scriptPoint levels text

/-! ## §2. The import map -/

/-- The fields of an object whose values are texts. -/
def textFields (table : Table Text) : Json.Fields :=
  table.map fun pair => (pair.1, .text pair.2)

/-- An import map that leads from keys to URLs. -/
def importJson (imports : Table Text) : Json :=
  .object [("imports", .object (textFields imports))]

/-- Where an import map leads: to the references of modules by id, and to the URLs of externals by
specifier, which win. -/
def importTable (references : Table String) (externals : Table Text) : Table Text :=
  Table.insertAll (references.map fun pair => (pair.1, (pair.2 : Text))) externals

/-- The table that is read where another one has been written. -/
def joinedTable (imports : Table Text) : Table Text :=
  Table.ofPairs (imports.map fun pair => (pair.1.joined, pair.2.joined))

theorem joinedTable_of_isEncodable {imports : Table Text} (hnodup : imports.keys.Nodup)
    (hkeys : ∀ key ∈ imports.keys, key.isEncodable = true)
    (hvalues : ∀ url ∈ imports.values, url.isEncodable = true) : joinedTable imports = imports := by
  have hself : ∀ pair ∈ imports, (pair.1.joined, pair.2.joined) = pair := by
    intro pair hpair
    rw [Text.joined_of_isEncodable (hkeys _ (List.mem_map_of_mem hpair)),
      Text.joined_of_isEncodable (hvalues _ (List.mem_map_of_mem hpair))]
  unfold joinedTable
  rw [List.map_congr_left hself, List.map_id', Table.ofPairs_of_nodup hnodup]

/-- What a text is read as if it is written as a value. -/
def rejoined : Json → Json
  | .text text => .text text.joined
  | value => value

theorem reads_textFields (levels level : Nat) (table : Table Text) :
    Reads (levels + 1) (scripted level (.object (textFields table)))
      (.object (textFields (joinedTable table))) := by
  have hvalues : ∀ field ∈ textFields table,
      Reads levels (scripted (level + 1) field.2) (rejoined field.2) := by
    intro field hfield
    obtain ⟨pair, -, rfl⟩ := List.mem_map.mp hfield
    exact reads_scripted_text levels (level + 1) pair.2
  have hfields : Table.ofPairs ((textFields table).map fun field => (field.1.joined, rejoined field.2))
      = textFields (joinedTable table) := by
    unfold textFields joinedTable
    rw [← Table.ofPairs_map Json.text, List.map_map, List.map_map]
    rfl
  rw [← hfields]
  exact reads_scripted_object hvalues

/-- **The import map of a page can be read**, and it leads from the keys that have been written to
their URLs. -/
theorem read_importMap (references : Table String) (externals : Table Text) :
    Json.read (importMap references externals)
      = .ok (importJson (joinedTable (importTable references externals))) := by
  let imports := importTable references externals
  have hname : ("imports" : Text).joined = "imports" :=
    Text.joined_of_isEncodable (Text.isEncodable_ofString _)
  have houter : Reads Json.depthLimit (scripted 0 (importJson imports))
      (.object [(("imports" : Text).joined, .object (textFields (joinedTable imports)))]) := by
    let back : Json → Json := fun _ => .object (textFields (joinedTable imports))
    have hvalues : ∀ field ∈ [(("imports" : Text), Json.object (textFields imports))],
        Reads 989 (scripted 1 field.2) (back field.2) :=
      List.forall_mem_singleton.mpr (reads_textFields 988 1 imports)
    exact reads_scripted_object hvalues
  rw [hname] at houter
  have hwritten : (importMap references externals).points = scripted 0 (importJson imports) :=
    points_scriptJson (importJson imports)
  refine Json.readWithin_of_reads (hwritten ▸ houter) ?_
  rw [hwritten]
  unfold importJson
  rw [scripted_object 0 (List.cons_ne_nil _ _)]
  simp

/-! ## §3. Ids and specifiers -/

section ImportTable

variable {references : Table String} {externals : Table Text}

theorem mem_keys_importTable {key : Text} :
    key ∈ (importTable references externals).keys ↔ key ∈ references.keys ∨ key ∈ externals.keys := by
  unfold importTable
  rw [Table.mem_keys_insertAll, Table.keys_map]

theorem nodup_keys_importTable (h : references.keys.Nodup) :
    (importTable references externals).keys.Nodup :=
  Table.nodup_keys_insertAll (by rwa [Table.keys_map]) externals

/-- The URL of an external wins over a reference. -/
theorem get?_importTable (h : externals.keys.Nodup) (key : Text) :
    (importTable references externals).get? key
      = (externals.get? key).or ((references.get? key).map Text.ofString) := by
  unfold importTable
  rw [Table.get?_insertAll h, Table.get?_map]

theorem get?_importTable_of_external (h : externals.keys.Nodup) {specifier url : Text}
    (hurl : externals.get? specifier = some url) :
    (importTable references externals).get? specifier = some url := by
  rw [get?_importTable h, hurl, Option.some_or]

/-- An id leads to its reference unless an external with another URL has it for its specifier. -/
theorem get?_importTable_of_reference_iff (h : externals.keys.Nodup) {id : Text} {reference : String}
    (hreference : references.get? id = some reference) :
    (importTable references externals).get? id = some (reference : Text)
      ↔ ∀ url, externals.get? id = some url → url = reference := by
  rw [get?_importTable h, hreference, Option.map_some]
  cases externals.get? id with
  | none => simp
  | some url => simp

/-- What an import map leads to can be expressed in bytes if ids and externals can. -/
theorem isEncodable_importTable (hreferences : references.keys.Nodup) (hexternals : externals.keys.Nodup)
    (hids : ∀ id ∈ references.keys, id.isEncodable = true)
    (hkeys : ∀ key ∈ externals.keys, key.isEncodable = true)
    (hurls : ∀ url ∈ externals.values, url.isEncodable = true) :
    (∀ key ∈ (importTable references externals).keys, key.isEncodable = true) ∧
    ∀ url ∈ (importTable references externals).values, url.isEncodable = true := by
  refine ⟨fun key hkey => (mem_keys_importTable.mp hkey).elim (hids key) (hkeys key), fun url hurl => ?_⟩
  obtain ⟨⟨key, _⟩, hpair, rfl⟩ := List.mem_map.mp hurl
  have hget := Table.get?_of_mem (nodup_keys_importTable hreferences) hpair
  rw [get?_importTable hexternals] at hget
  rcases Option.or_eq_some_iff.mp hget with hexternal | ⟨-, hreference⟩
  · exact hurls _ (Table.mem_values_of_get? hexternal)
  · obtain ⟨reference, -, hreference⟩ := Option.map_eq_some_iff.mp hreference
    rw [← hreference]
    exact Text.isEncodable_ofString reference

end ImportTable

/-! ## §4. Documents -/

/-- Where the import map of a document leads. -/
def Document.imports (document : Document) : Table Text :=
  importTable document.references document.externals

/-- The import map of a document is in its page, and it leads from the ids of its modules and from
the specifiers of its externals, and from nowhere else. -/
structure Document.Maps (config : Config) (document : Document) : Prop where
  page : ∃ policy, document.html
    = unlines (pageLines config policy document.entry document.references document.externals)
  /-- It can be read: two halves that make up a character are read as that character. -/
  read : Json.read (importMap document.references document.externals)
    = .ok (importJson (joinedTable document.imports))
  /-- It is read as it has been written if the externals hold no halves. -/
  read_encodable : (∀ key ∈ document.externals.keys, key.isEncodable = true) →
    (∀ url ∈ document.externals.values, url.isEncodable = true) →
    Json.read (importMap document.references document.externals) = .ok (importJson document.imports)
  ids_eq : document.references.keys = document.modules.map Module.idOf
  nodup : document.imports.keys.Nodup
  mem_keys_iff : ∀ key, key ∈ document.imports.keys
    ↔ key ∈ document.references.keys ∨ key ∈ document.externals.keys
  external : ∀ specifier url, document.externals.get? specifier = some url →
    document.imports.get? specifier = some url
  /-- An id leads to its reference, unless it is the specifier of an external with another URL. -/
  reference_iff : ∀ id reference, document.references.get? id = some reference →
    (document.imports.get? id = some (reference : Text)
      ↔ ∀ url, document.externals.get? id = some url → url = reference)

/-- Each id leads to its reference and each specifier to its URL, no other key leads anywhere, and no
specifier is the id of a module. -/
structure Document.IsUnambiguous (document : Document) : Prop where
  reference : ∀ id reference, document.references.get? id = some reference →
    document.imports.get? id = some (reference : Text)
  external : ∀ specifier url, document.externals.get? specifier = some url →
    document.imports.get? specifier = some url
  mem_keys : ∀ key ∈ document.imports.keys,
    key ∈ document.references.keys ∨ key ∈ document.externals.keys
  apart : ∀ path ∈ document.modules, Module.idOf path ∉ document.externals.keys

/-- **An import map is unambiguous if and only if no specifier is the id of a module.** -/
theorem Document.Maps.isUnambiguous_iff {config : Config} {document : Document}
    (h : document.Maps config) :
    document.IsUnambiguous ↔ ∀ path ∈ document.modules, Module.idOf path ∉ document.externals.keys := by
  refine ⟨fun hplain => hplain.apart, fun hapart => ⟨fun id reference hreference => ?_, h.external,
    fun key => (h.mem_keys_iff key).mp, hapart⟩⟩
  refine (h.reference_iff id reference hreference).mpr fun url hurl => ?_
  -- the id is that of a module, so that there is no such external
  have hid := Table.mem_keys_of_get? hreference
  rw [h.ids_eq] at hid
  obtain ⟨path, hpath, rfl⟩ := List.mem_map.mp hid
  exact absurd (Table.mem_keys_of_get? hurl) (hapart path hpath)

theorem maps_of_buildTree {setting : Setting} {revision stamp : Nat} {registry : Registry}
    {cache : Module.Cache} {wanted? : Option Text} {document : Document}
    (hok : (buildTree setting revision registry cache wanted?).answer = .ok ⟨.ok document, stamp⟩) :
    document.Maps setting.config ∧ IsConfigured setting.config document.externals := by
  obtain ⟨entry, graph, hplan, hmade⟩ := documentOf_of_buildTree hok
  obtain ⟨-, below, hexplores⟩ := explores_of_plan hplan
  obtain ⟨hnodup, -⟩ := hexplores.order
  obtain ⟨-, hmodules, hkeys⟩ := keys_references_of_documentOf hnodup hmade
  obtain ⟨policy, -, hhtml⟩ := (encloses_of_documentOf hmade).2.lines
  have hof := of_documentOf hmade
  have hconfigured : IsConfigured setting.config document.externals := by
    rw [hof.externals_eq]
    exact isConfigured_of_plan hplan
  have hids : document.references.keys.Nodup := by
    rw [hkeys]
    exact hnodup.map fun p q => idOf_injective
  have hencodable : ∀ id ∈ document.references.keys, id.isEncodable = true := by
    intro id hid
    rw [hkeys] at hid
    obtain ⟨path, hpath, rfl⟩ := List.mem_map.mp hid
    obtain ⟨_, name, -, hname, -⟩ := hof.hasReference path hpath
    exact Text.isEncodable_append (Text.isEncodable_ofString _) (Text.isEncodable_of_string? hname)
  refine ⟨{
    page := ⟨policy, hhtml⟩
    read := read_importMap _ _
    read_encodable := fun hspecifiers hurls => ?_
    ids_eq := by rw [hkeys, hmodules]
    nodup := nodup_keys_importTable hids
    mem_keys_iff := fun key => mem_keys_importTable
    external := fun specifier url => get?_importTable_of_external hconfigured.nodup
    reference_iff := fun id reference => get?_importTable_of_reference_iff hconfigured.nodup },
    hconfigured⟩
  obtain ⟨hall, hvalues⟩ := isEncodable_importTable hids hconfigured.nodup hencodable hspecifiers hurls
  rw [read_importMap, joinedTable_of_isEncodable (nodup_keys_importTable hids) hall hvalues]
  rfl

/-- The import map of a page that is built can be read, and it leads from the ids of the modules to
their references, from the specifiers of the externals to their URLs, and from nowhere else; where a
specifier is the id of a module, it leads to the URL of the external.  So it is unambiguous just when
no specifier is the id of a module, as where no key of the configuration begins as ids do. -/
theorem maps_of_build (parser : Parser) (config : Config) (number : Nat) (project : Project)
    (registry : Registry) (wanted? : Option Text) {document : Document} {stamp : Nat}
    (hok : (build parser config number project registry wanted?).1 = .ok ⟨.ok document, stamp⟩) :
    document.Maps config ∧
    (document.IsUnambiguous ↔ ∀ path ∈ document.modules, Module.idOf path ∉ document.externals.keys) ∧
    ((∀ key ∈ config.externals.keys, key.startsWith Module.idStart = false) →
      document.IsUnambiguous) := by
  let setting : Setting := ⟨parser, project.tree, config⟩
  obtain ⟨hmaps, hconfigured⟩ :=
    @maps_of_buildTree setting project.revision stamp registry (project.cacheAt number) wanted? document hok
  refine ⟨hmaps, hmaps.isUnambiguous_iff, fun hkeys => hmaps.isUnambiguous_iff.mpr fun path _ => ?_⟩
  exact hconfigured.not_idOf hkeys path

/-- No key begins as ids do if nothing is configured. -/
theorem maps_of_build_styled :
    ∃ document, (build (fun _ _ => styledTree) {} 0 styledProject .empty (some "/a.js")).1
        = .ok ⟨.ok document, styledProject.revision⟩ ∧
      document.Maps {} ∧ document.IsUnambiguous := by
  obtain ⟨document, hbuild⟩ := exists_build_styled
  have hmaps := maps_of_build (fun _ _ => styledTree) {} 0 styledProject .empty (some "/a.js") hbuild
  exact ⟨document, hbuild, hmaps.1, hmaps.2.2 (by decide +kernel)⟩

/-! ## §5. A specifier that is spelled as an id -/

/-- The tree of `import "@vfs/a.js";`. -/
def mirroringTree : Syntax.Node :=
  ⟨"program", true, false, 0, 19, none,
    [⟨"import_statement", true, false, 0, 19, none,
      [⟨"import", false, false, 0, 6, none, []⟩,
        ⟨"string", true, false, 7, 18, some "source",
          [⟨"\"", false, false, 7, 8, none, []⟩, ⟨"string_fragment", true, false, 8, 17, none, []⟩,
            ⟨"\"", false, false, 17, 18, none, []⟩]⟩,
        ⟨";", false, false, 18, 19, none, []⟩]⟩]⟩

theorem lower_mirroringTree : Lowering.lower (fun _ _ => mirroringTree) .tsx {} "import \"@vfs/a.js\";"
    = .ok ⟨"import \"@vfs/a.js\";", ["@vfs/a.js"], [⟨7, 18, "@vfs/a.js"⟩], false⟩ := by
  unfold Lowering.lower
  rw [String.contains_char_eq, if_neg (by decide)]
  rfl

/-- A key of the configuration begins as ids do, and stands for all that begins with it. -/
def mirroringConfig : Config where
  externals := [("@vfs/", "https://cdn.example/")]
  mountsEntry := false

def mirroringActions : List Project.Action :=
  [.edit (.createFile "/a.js" "import \"@vfs/a.js\";")]

/-- A project that consists of a script. -/
def mirroringProject : Project :=
  (({} : Project).newCache {}).2.run (fun _ _ => mirroringTree) (({} : Project).newCache {}).1
    mirroringActions

def mirroringSetting : Setting :=
  ⟨fun _ _ => mirroringTree, mirroringProject.tree, mirroringConfig⟩

theorem consistent_mirroringProject : mirroringProject.Consistent (fun _ _ => mirroringTree) {} 0 :=
  (Project.consistent_newCache _ {} (.inl rfl : ({} : Project).tree.IsInitial)).run mirroringActions

/-- The module of the script. -/
def mirroringScript : Module :=
  ⟨"/a.js", .script, "import \"@vfs/a.js\";", ["@vfs/a.js"], [⟨7, 18, "@vfs/a.js"⟩]⟩

/-- What the script imports. -/
def mirroringExternals : Table Text :=
  [("@vfs/a.js", "https://cdn.example/a.js")]

/-- The graph of the page. -/
def mirroringGraph : Graph :=
  (({} : Graph).enter "/a.js" mirroringScript ⟨mirroringExternals, []⟩).complete "/a.js"

theorem freshModule_mirroring :
    freshModule mirroringSetting.parser {} mirroringSetting.tree "/a.js" = .ok mirroringScript :=
  freshModule_of_lower rfl rfl lower_mirroringTree

theorem start_plan_mirroring :
    ((plan mirroringSetting (some "/a.js")).start (mirroringProject.cacheAt 0)).1
      = .ok ("/a.js", mirroringGraph) :=
  start_plan_of_files_eq_nil consistent_mirroringProject.holdsTexts
    consistent_mirroringProject.hasSound.cacheAt (by decide +kernel) rfl freshModule_mirroring
    (by decide +kernel) rfl

theorem isSome_linkedCode_mirroring : ∀ path ∈ mirroringGraph.order,
    (linkedCode mirroringGraph path).string?.isSome = true ∧ path.string?.isSome = true := by
  have hcode : linkedCode mirroringGraph "/a.js"
      = link mirroringScript.code [⟨7, 18, "@vfs/a.js"⟩] [] := rfl
  show ∀ path ∈ [("/a.js" : Text)], _
  rw [List.forall_mem_singleton, hcode]
  unfold link backToFront
  rw [List.mergeSort_singleton]
  decide +kernel

/-- A reference begins with the name of its scheme. -/
theorem head?_referenceOf (code : String) (name? : Option String) :
    (Module.referenceOf code name? : Text).points.head? = some (.char 'd') := by
  unfold Module.referenceOf
  show ((_ ++ _ : String).toList.map CodePoint.char).head? = _
  rw [String.toList_append]
  rfl

/-- A script that imports its own id is given the URL of an external for it: the import map leads from
the id to the external, and from nowhere to the script. -/
theorem not_isUnambiguous_build_mirroring :
    ∃ document reference, (build (fun _ _ => mirroringTree) mirroringConfig 0 mirroringProject .empty
          (some "/a.js")).1 = .ok ⟨.ok document, mirroringProject.revision⟩ ∧
      document.references = [(("@vfs/a.js" : Text), reference)] ∧
      document.externals = mirroringExternals ∧
      Json.read (importMap document.references document.externals) = .ok (importJson mirroringExternals) ∧
      (reference : Text) ≠ "https://cdn.example/a.js" ∧
      ¬ document.IsUnambiguous := by
  obtain ⟨document, hbuild⟩ : ∃ document, (buildTree mirroringSetting mirroringProject.revision .empty
      (mirroringProject.cacheAt 0) (some "/a.js")).answer = .ok ⟨.ok document, _⟩ :=
    exists_document_of_plan start_plan_mirroring isSome_linkedCode_mirroring (by decide +kernel) _ _
  obtain ⟨hmaps, -⟩ := maps_of_buildTree hbuild
  obtain ⟨entry, graph, hplan, hof⟩ := plan_of_buildTree hbuild
  rw [start_plan_mirroring] at hplan
  cases hplan
  obtain ⟨code, name, -, -, hreference⟩ := hof.hasReference "/a.js" List.mem_cons_self
  have hkeys : document.references.keys = ["@vfs/a.js"] := by
    rw [hmaps.ids_eq, hof.modules_eq]
    decide +kernel
  have hreferences : document.references = [(("@vfs/a.js" : Text), Module.referenceOf code (some name))] := by
    obtain ⟨⟨id, reference⟩, hall, rfl⟩ := List.map_eq_singleton_iff.mp hkeys
    rw [hall, Table.get?_cons, if_pos (by decide +kernel), Option.some.injEq] at hreference
    rw [hall, hreference]
  have hexternals : document.externals = mirroringExternals := hof.externals_eq
  have himports : document.imports = mirroringExternals := by
    unfold Document.imports
    rw [hreferences, hexternals]
    rfl
  have hne : (Module.referenceOf code (some name) : Text) ≠ "https://cdn.example/a.js" := by
    intro heq
    have hhead := head?_referenceOf code (some name)
    rw [heq] at hhead
    revert hhead
    decide
  refine ⟨document, _, hbuild, hreferences, hexternals, ?_, hne, fun hplain => hne ?_⟩
  · have hread := hmaps.read_encodable (by rw [hexternals]; decide +kernel) (by rw [hexternals]; decide +kernel)
    rwa [himports] at hread
  · have hleads := hplain.reference _ _ hreference
    rw [himports] at hleads
    exact (Option.some.inj hleads).symm

end LivePreview.Preview
