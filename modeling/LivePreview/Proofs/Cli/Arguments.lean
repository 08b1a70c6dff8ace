/-
  LivePreview.Proofs.Cli.Arguments
  ────────────────────────────────
  **Options may stand anywhere.**

  An argument list consists of items: an option with the argument behind it, a flag, or a
  positional (`Item`).  Where one item ends and the next one begins is seen by reading from
  the left alone, since a value may look like anything (`itemsOf`); but no positional begins
  with a dash, and so a list has one reading at most (`itemsOf_written`).

  What has been read is told by the items in front (`told`).  One more argument is taken
  exactly if the positionals are still acceptable with it (`add_eq_ok_iff`), and by
  induction along the reading a list is accepted exactly if its items are acceptable
  (`parseFrom_eq_ok_iff`).

  What is told depends on the positionals, on the values of each option, and on which flags
  are there.  So the items may be rearranged, an option together with its value, as long as
  the positionals stay in order and the uses of each option do (`parse_exact`).
-/
import Mathlib.Logic.ExistsUnique
import LivePreview.Cli.Arguments

namespace LivePreview.Cli

/-! ## §1. Items -/

/-- The name of an option. -/
def Setting.name : Setting → String
  | .entry => "--entry"
  | .out => "--out"
  | .title => "--title"

/-- What is asked for without a value. -/
inductive Flag where
  | help
  | version
  deriving DecidableEq, Repr

/-- A flag as it is written, in full or as one letter. -/
def Flag.word : Flag → Bool → String
  | .help, false => "--help"
  | .help, true => "-h"
  | .version, false => "--version"
  | .version, true => "-v"

/-- What an argument list consists of. -/
inductive Item where
  | option (setting : Setting) (value : String)
  | flag (flag : Flag) (short : Bool)
  | positional (argument : String)
  deriving DecidableEq, Repr

/-- The arguments that an item is written as. -/
def Item.words : Item → List String
  | .option setting value => [setting.name, value]
  | .flag raised short => [raised.word short]
  | .positional argument => [argument]

/-- The argument that is a positional. -/
def Item.positional? : Item → Option String
  | .positional argument => some argument
  | _ => none

/-- The value that the item gives to an option. -/
def Item.valueFor? (setting : Setting) : Item → Option String
  | .option other value => if other = setting then some value else none
  | _ => none

/-- The item is a flag, in either spelling. -/
def Item.raises (flag : Flag) : Item → Bool
  | .flag other _ => other = flag
  | _ => false

/-- The argument list that items are written as. -/
def written (items : List Item) : List String :=
  items.flatMap Item.words

/-- The positionals, from left to right. -/
def positionals (items : List Item) : List String :=
  items.filterMap Item.positional?

/-- The values that are given to an option, from left to right. -/
def valuesFor (setting : Setting) (items : List Item) : List String :=
  items.filterMap (Item.valueFor? setting)

/-- The argument does not begin with a dash. -/
def Undashed (argument : String) : Prop :=
  argument.toList.head? ≠ some '-'

instance (argument : String) : Decidable (Undashed argument) :=
  inferInstanceAs (Decidable (_ ≠ _))

/-- No positional begins with a dash, there are at most two, and the first one names an action. -/
structure Acceptable (items : List Item) : Prop where
  undashed : ∀ argument ∈ positionals items, Undashed argument
  length_le : (positionals items).length ≤ 2
  action : ∀ first, (positionals items).head? = some first → first = "preview" ∨ first = "snapshot"

theorem acceptable_iff {items : List Item} : Acceptable items
    ↔ (∀ argument ∈ positionals items, Undashed argument) ∧ (positionals items).length ≤ 2
      ∧ ∀ first, (positionals items).head? = some first → first = "preview" ∨ first = "snapshot" :=
  ⟨fun h => ⟨h.undashed, h.length_le, h.action⟩, fun h => ⟨h.1, h.2.1, h.2.2⟩⟩

/-- What items tell: the action and the directory, the last value of each option, and the flags. -/
def told (items : List Item) : Arguments where
  action? := (positionals items).head?.bind Action.ofName?
  directory? := (positionals items)[1]?
  entryPath? := (valuesFor .entry items).getLast?
  outFile? := (valuesFor .out items).getLast?
  title? := (valuesFor .title items).getLast?
  showHelp := items.any (Item.raises .help)
  showVersion := items.any (Item.raises .version)

/-- The items in another order, with the positionals in their order and so the uses of each option. -/
structure Rearranged (items moved : List Item) : Prop where
  perm : moved.Perm items
  positionals_eq : positionals moved = positionals items
  valuesFor_eq : ∀ setting, valuesFor setting moved = valuesFor setting items

section Items

variable {items moved front : List Item} {setting : Setting} {argument : String}

theorem written_cons (item : Item) (items : List Item) :
    written (item :: items) = item.words ++ written items :=
  List.flatMap_cons

theorem positionals_append (front items : List Item) :
    positionals (front ++ items) = positionals front ++ positionals items :=
  List.filterMap_append

theorem valuesFor_append (setting : Setting) (front items : List Item) :
    valuesFor setting (front ++ items) = valuesFor setting front ++ valuesFor setting items :=
  List.filterMap_append

/-- Only the positionals decide whether items are acceptable. -/
theorem Acceptable.congr (h : Acceptable items) (heq : positionals moved = positionals items) :
    Acceptable moved := by
  refine ⟨?_, ?_, ?_⟩
  · rw [heq]
    exact h.undashed
  · rw [heq]
    exact h.length_le
  · rw [heq]
    exact h.action

/-- Behind acceptable items there may be any item that is no positional. -/
theorem Acceptable.concat (h : Acceptable front) {item : Item} (hitem : item.positional? = none) :
    Acceptable (front ++ [item]) := by
  refine h.congr ?_
  rw [positionals_append, show positionals [item] = [] by simp [positionals, hitem], List.append_nil]

/-- Items in front of others are acceptable if all are. -/
theorem Acceptable.of_append (h : Acceptable (front ++ items)) : Acceptable front := by
  have hsplit := positionals_append front items
  refine ⟨fun argument hmem => h.undashed argument ?_, ?_, fun first hfirst => h.action first ?_⟩
  · rw [hsplit]
    exact List.mem_append_left _ hmem
  · have hle := h.length_le
    rw [hsplit, List.length_append] at hle
    omega
  · rw [hsplit, List.head?_append, hfirst]
    rfl

theorem told_of_rearranged (h : Rearranged items moved) : told moved = told items := by
  have hflag : ∀ flag, moved.any (Item.raises flag) = items.any (Item.raises flag) := fun flag =>
    Bool.eq_iff_iff.mpr (by simp only [List.any_eq_true, h.perm.mem_iff])
  unfold told
  rw [h.positionals_eq, h.valuesFor_eq, h.valuesFor_eq, h.valuesFor_eq, hflag, hflag]

/-! ## §2. Spellings -/

theorem ofName?_name (setting : Setting) : Setting.ofName? setting.name = some setting := by
  cases setting <;> rfl

theorem ofName?_eq_some_iff : Setting.ofName? argument = some setting ↔ argument = setting.name := by
  constructor
  · intro h
    unfold Setting.ofName? at h
    split at h <;> cases h <;> rfl
  · rintro rfl
    exact ofName?_name setting

theorem head?_name (setting : Setting) : setting.name.toList.head? = some '-' := by
  cases setting <;> rfl

theorem head?_word (flag : Flag) (short : Bool) : (flag.word short).toList.head? = some '-' := by
  cases flag <;> cases short <;> rfl

/-- No flag is spelled as an option is. -/
theorem ofName?_word (flag : Flag) (short : Bool) : Setting.ofName? (flag.word short) = none := by
  cases flag <;> cases short <;> rfl

/-- What does not begin with a dash is no option. -/
theorem ofName?_of_undashed (h : Undashed argument) : Setting.ofName? argument = none := by
  cases hname : Setting.ofName? argument with
  | none => rfl
  | some setting =>
    rw [ofName?_eq_some_iff] at hname
    exact absurd (hname ▸ head?_name setting) h

/-- The item that an argument is by itself. -/
def Item.alone : String → Item
  | "--help" => .flag .help false
  | "-h" => .flag .help true
  | "--version" => .flag .version false
  | "-v" => .flag .version true
  | argument => .positional argument

/-- The items of an argument list, read from the left. -/
def itemsOf : List String → List Item
  | [] => []
  | argument :: rest =>
    match Setting.ofName? argument with
    | some setting =>
      match rest with
      | [] => [.positional argument]
      | value :: rest => .option setting value :: itemsOf rest
    | none => Item.alone argument :: itemsOf rest

theorem alone_word (flag : Flag) (short : Bool) : Item.alone (flag.word short) = .flag flag short := by
  cases flag <;> cases short <;> rfl

/-- An argument is a flag, or it is no flag and stands for itself. -/
theorem word_or_positional (argument : String) : (∃ flag short, argument = Flag.word flag short) ∨
    (Item.alone argument = .positional argument ∧ ∀ flag short, argument ≠ Flag.word flag short) := by
  by_cases hword : ∃ flag short, argument = Flag.word flag short
  · exact .inl hword
  · have hne : ∀ flag short, argument ≠ Flag.word flag short := by simpa using hword
    refine .inr ⟨?_, hne⟩
    unfold Item.alone
    split
    · exact absurd rfl (hne .help false)
    · exact absurd rfl (hne .help true)
    · exact absurd rfl (hne .version false)
    · exact absurd rfl (hne .version true)
    · rfl

theorem alone_of_undashed (h : Undashed argument) : Item.alone argument = .positional argument := by
  rcases word_or_positional argument with ⟨flag, short, rfl⟩ | ⟨halone, -⟩
  · exact absurd (head?_word flag short) h
  · exact halone

/-- **An argument list has one reading at most.** -/
theorem itemsOf_written (h : ∀ argument ∈ positionals items, Undashed argument) :
    itemsOf (written items) = items := by
  induction items with
  | nil => rfl
  | cons item items ih =>
    rw [written_cons]
    cases item with
    | option setting value =>
      show itemsOf (setting.name :: value :: written items) = _
      rw [itemsOf, ofName?_name]
      dsimp only
      rw [ih h]
    | flag flag short =>
      show itemsOf (flag.word short :: written items) = _
      rw [itemsOf, ofName?_word]
      dsimp only
      rw [alone_word, ih h]
    | positional argument =>
      obtain ⟨hundashed, hitems⟩ := List.forall_mem_cons.mp h
      show itemsOf (argument :: written items) = _
      rw [itemsOf, ofName?_of_undashed hundashed]
      dsimp only
      rw [alone_of_undashed hundashed, ih hitems]

theorem words_alone (argument : String) : (Item.alone argument).words = [argument] := by
  unfold Item.alone
  split <;> rfl

/-- The items that have been read are written as the argument list. -/
theorem written_itemsOf (argv : List String) : written (itemsOf argv) = argv := by
  fun_induction itemsOf argv with
  | case1 => rfl
  | case2 argument setting hname => rfl
  | case3 argument setting hname value rest ih =>
    rw [written_cons, ih, ofName?_eq_some_iff.mp hname]
    rfl
  | case4 argument rest hname ih =>
    rw [written_cons, ih, words_alone]
    rfl

/-! ## §3. Reading one item -/

theorem told_concat_option (front : List Item) (setting : Setting) (value : String) :
    told (front ++ [.option setting value]) = (told front).set setting value := by
  have hvalues : ∀ other, valuesFor other [.option setting value]
      = if setting = other then [value] else [] := by
    intro other
    by_cases heq : setting = other <;> simp [valuesFor, Item.valueFor?, heq]
  have hpositionals : positionals [.option setting value] = [] := rfl
  unfold told Arguments.set
  simp only [positionals_append, valuesFor_append, hpositionals, hvalues, List.append_nil]
  cases setting <;> simp [Item.raises]

theorem told_concat_flag (front : List Item) (flag : Flag) (short : Bool) :
    told (front ++ [.flag flag short])
      = match flag with
        | .help => { told front with showHelp := true }
        | .version => { told front with showVersion := true } := by
  have hvalues : ∀ other, valuesFor other [.flag flag short] = [] := fun _ => rfl
  have hpositionals : positionals [.flag flag short] = [] := rfl
  unfold told
  simp only [positionals_append, valuesFor_append, hpositionals, hvalues, List.append_nil]
  cases flag <;> simp [Item.raises]

theorem told_concat_positional (front : List Item) (argument : String) :
    told (front ++ [.positional argument])
      = { told front with
          action? := (positionals front ++ [argument]).head?.bind Action.ofName?
          directory? := (positionals front ++ [argument])[1]? } := by
  have hvalues : ∀ other, valuesFor other [.positional argument] = [] := fun _ => rfl
  have hpositionals : positionals [.positional argument] = [argument] := rfl
  unfold told
  simp only [positionals_append, valuesFor_append, hpositionals, hvalues, List.append_nil]
  simp [Item.raises]

theorem exists_ofName?_iff : (∃ action, Action.ofName? argument = some action)
    ↔ argument = "preview" ∨ argument = "snapshot" := by
  constructor
  · rintro ⟨action, h⟩
    unfold Action.ofName? at h
    split at h
    · exact .inl rfl
    · exact .inr rfl
    · cases h
  · rintro (rfl | rfl)
    · exact ⟨.preview, rfl⟩
    · exact ⟨.snapshot, rfl⟩

/-- The name of an action may come first, anything may come second, and nothing may come third. -/
theorem acceptable_concat_iff (h : Acceptable front) (hundashed : Undashed argument) :
    Acceptable (front ++ [.positional argument])
      ↔ match positionals front with
        | [] => argument = "preview" ∨ argument = "snapshot"
        | [_] => True
        | _ => False := by
  have hpositionals : positionals (front ++ [.positional argument]) = positionals front ++ [argument] :=
    positionals_append _ _
  have hfree := h.undashed
  have haction := h.action
  rw [acceptable_iff, hpositionals]
  match hfront : positionals front with
  | [] => simp [hundashed]
  | [first] =>
    rw [hfront] at hfree haction
    simpa [hundashed] using ⟨hfree first List.mem_cons_self, haction first rfl⟩
  | first :: second :: rest => simp

/-- A positional is taken exactly if the positionals are still acceptable with it. -/
theorem addPositional_eq_ok_iff (h : Acceptable front) (hundashed : Undashed argument)
    {result : Arguments} : (told front).addPositional argument = .ok result
      ↔ Acceptable (front ++ [.positional argument]) ∧ result = told (front ++ [.positional argument]) := by
  have haction : (told front).action? = (positionals front).head?.bind Action.ofName? := rfl
  have hdirectory : (told front).directory? = (positionals front)[1]? := rfl
  rw [acceptable_concat_iff h hundashed, told_concat_positional]
  unfold Arguments.addPositional
  rw [haction, hdirectory]
  match hfront : positionals front with
  | [] =>
    rw [← exists_ofName?_iff]
    cases hname : Action.ofName? argument with
    | none => simp [hname]
    | some action => simp [hname, eq_comm, hfront, told]
  | [first] =>
    have hfirst := h.action first (by rw [hfront]; rfl)
    obtain ⟨action, hname⟩ := exists_ofName?_iff.mpr hfirst
    simp [hname, eq_comm, told, hfront]
  | first :: second :: rest =>
    have hfirst := h.action first (by rw [hfront]; rfl)
    obtain ⟨action, hname⟩ := exists_ofName?_iff.mpr hfirst
    simp [hname]

theorem add_word (front : List Item) (flag : Flag) (short : Bool) :
    (told front).add (flag.word short) = .ok (told (front ++ [.flag flag short])) := by
  rw [told_concat_flag]
  cases flag <;> cases short <;> rfl

/-- **One more argument is taken exactly if the items are acceptable with what it is by itself**, and
then that is told as well. -/
theorem add_eq_ok_iff (h : Acceptable front) {result : Arguments} :
    (told front).add argument = .ok result
      ↔ Acceptable (front ++ [Item.alone argument]) ∧ result = told (front ++ [Item.alone argument]) := by
  rcases word_or_positional argument with ⟨flag, short, rfl⟩ | ⟨halone, hne⟩
  · have hflag : Acceptable (front ++ [.flag flag short]) := h.concat rfl
    rw [add_word, alone_word]
    simp [hflag, eq_comm]
  · rw [halone]
    have hhelp : (argument == "--help" || argument == "-h") = false := by
      simpa using ⟨hne .help false, hne .help true⟩
    have hversion : (argument == "--version" || argument == "-v") = false := by
      simpa using ⟨hne .version false, hne .version true⟩
    unfold Arguments.add
    rw [hhelp, hversion]
    by_cases hundashed : Undashed argument
    · have hdash : (argument.toList.head? == some '-') = false := beq_eq_false_iff_ne.mpr hundashed
      rw [hdash]
      exact addPositional_eq_ok_iff h hundashed
    · have hdash : (argument.toList.head? == some '-') = true := by
        simpa [Undashed] using hundashed
      rw [hdash]
      refine iff_of_false nofun fun haccepted => hundashed (haccepted.1.undashed argument ?_)
      rw [positionals_append]
      exact List.mem_append_right _ List.mem_cons_self

/-! ## §4. Reading an argument list -/

/-- **What is accepted behind items that have been read**: the rest has to go on with items that are
acceptable behind them, and all of them are told. -/
theorem parseFrom_eq_ok_iff (h : Acceptable front) {argv : List String} {result : Arguments} :
    Arguments.parseFrom (told front) argv = .ok result
      ↔ Acceptable (front ++ itemsOf argv) ∧ result = told (front ++ itemsOf argv) := by
  fun_induction itemsOf argv generalizing front with
  | case1 =>
    rw [List.append_nil]
    unfold Arguments.parseFrom
    simp [h, eq_comm]
  | case2 argument setting hname =>
    -- an option without a value stands where only a positional may stand, and begins with a dash
    unfold Arguments.parseFrom
    rw [hname]
    refine iff_of_false nofun fun haccepted => ?_
    have hundashed : Undashed argument := haccepted.1.undashed argument (by
      rw [positionals_append]
      exact List.mem_append_right _ List.mem_cons_self)
    rw [ofName?_eq_some_iff.mp hname] at hundashed
    exact hundashed (head?_name setting)
  | case3 argument setting hname value rest ih =>
    have hoption : Acceptable (front ++ [.option setting value]) := h.concat rfl
    unfold Arguments.parseFrom
    rw [hname]
    dsimp only
    rw [← told_concat_option, ih hoption, List.append_assoc]
    rfl
  | case4 argument rest hname ih =>
    unfold Arguments.parseFrom
    rw [hname]
    dsimp only
    have hassoc : front ++ Item.alone argument :: itemsOf rest
        = front ++ [Item.alone argument] ++ itemsOf rest := by rw [List.append_assoc]; rfl
    cases hadd : (told front).add argument with
    | ok arguments =>
      obtain ⟨hitem, rfl⟩ := (add_eq_ok_iff h).mp hadd
      dsimp only
      rw [ih hitem, hassoc]
    | error fault =>
      refine iff_of_false nofun fun haccepted => ?_
      rw [hassoc] at haccepted
      have hok := (add_eq_ok_iff h).mpr ⟨haccepted.1.of_append, rfl⟩
      rw [hadd] at hok
      cases hok

theorem parse_eq_ok_iff {argv : List String} {result : Arguments} :
    Arguments.parse argv = .ok result ↔ Acceptable (itemsOf argv) ∧ result = told (itemsOf argv) := by
  have hnone : Acceptable [] := ⟨nofun, Nat.zero_le 2, nofun⟩
  exact parseFrom_eq_ok_iff hnone

end Items

/-- **Options may stand anywhere.**  An argument list is accepted exactly if it is written as acceptable
items, of which there is one reading only, and it tells what they do; and these items may be rearranged as
long as the positionals and the uses of each option stay in order. -/
theorem parse_exact (argv : List String) :
    (∀ result, Arguments.parse argv = .ok result
      ↔ ∃! items, argv = written items ∧ Acceptable items ∧ result = told items) ∧
    ∀ result, Arguments.parse argv = .ok result →
      ∀ items, argv = written items → Acceptable items →
        ∀ moved, Rearranged items moved → Arguments.parse (written moved) = .ok result := by
  have hreading : ∀ items, Acceptable items → itemsOf (written items) = items := fun items hitems =>
    itemsOf_written hitems.undashed
  refine ⟨fun result => ?_, fun result hok items hargv hitems moved hmoved => ?_⟩
  · rw [parse_eq_ok_iff]
    constructor
    · rintro ⟨haccepted, htold⟩
      refine ⟨itemsOf argv, ⟨(written_itemsOf argv).symm, haccepted, htold⟩, ?_⟩
      rintro items ⟨rfl, hitems, -⟩
      exact (hreading items hitems).symm
    · rintro ⟨items, ⟨rfl, hitems, htold⟩, -⟩
      rw [hreading items hitems]
      exact ⟨hitems, htold⟩
  · subst hargv
    obtain ⟨-, rfl⟩ := parse_eq_ok_iff.mp hok
    have haccepted : Acceptable moved := hitems.congr hmoved.positionals_eq
    rw [parse_eq_ok_iff, hreading moved haccepted, hreading items hitems]
    exact ⟨haccepted, (told_of_rearranged hmoved).symm⟩

/-- A title that looks like an option, given behind another one, with a flag and both positionals. -/
def scatteredItems : List Item :=
  [.option .title "Draft", .positional "preview", .option .title "--out", .flag .help true,
    .positional "./my-app"]

/-- The flag may go to the front and the titles behind the positionals, and the last title stays the one
that counts. -/
theorem parse_exact_scattered :
    Arguments.parse ["-h", "preview", "./my-app", "--title", "Draft", "--title", "--out"]
      = .ok { action? := some .preview, directory? := some "./my-app", title? := some "--out",
              showHelp := true } := by
  have hitems : Acceptable scatteredItems :=
    ⟨by decide, by decide, fun first hfirst => .inl (Option.some.inj hfirst).symm⟩
  have hmoved : Rearranged scatteredItems
      [.flag .help true, .positional "preview", .positional "./my-app", .option .title "Draft",
        .option .title "--out"] :=
    ⟨by decide, by decide, fun setting => by cases setting <;> decide⟩
  exact (parse_exact (written scatteredItems)).2 _ rfl scatteredItems rfl hitems _ hmoved

end LivePreview.Cli
