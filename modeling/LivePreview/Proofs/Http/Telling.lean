/-
  LivePreview.Proofs.Http.Telling
  ───────────────────────────────
  **What is told of a call that has changed something can be written down.**

  A call comes with an object of any fields, or with a command, or with neither.  If the
  texts of all calls can be expressed in bytes, then so can the paths of all workspaces,
  behind every call (`isTellable_of_effect`).  What a handler reports of a workspace that
  it has created, changed or shown can be expressed in bytes then, too
  (`isEncodable_summary` and those behind it).

  The framework that the server runs with reads commands and writes texts as frameworks do
  (`readsCommands_stack`, `writesTexts_stack`).
-/
import LivePreview.Http.Server
import LivePreview.Proofs.Http.Effect
import LivePreview.Proofs.Preview.Encodable
import LivePreview.Proofs.Tool.Telling
import LivePreview.Proofs.Workspace.Keeping

namespace LivePreview

open LivePreview.Lowering (Options Parser)
open LivePreview.Preview (BuildResult Config Document)
open LivePreview.Text (isEncodable_ofString)

/-! ## §1. Calls -/

namespace Http

/-- The object of any fields that a call comes with. -/
def Call.object? : Call → Option Json.Fields
  | .createWorkspace snapshot? => snapshot?
  | .replaceSnapshot _ snapshot => some snapshot
  | .callTool _ _ arguments => some arguments
  | _ => none

/-- All texts of the object, and the paths of the command, can be expressed in bytes. -/
structure Call.IsTellable (call : Call) : Prop where
  object : ∀ fields, call.object? = some fields → Json.areEncodableFields fields = true
  command : ∀ id request, call = .runCommand id request → request.command.IsTellable

/-- A framework that reads commands takes only such as can be told of. -/
theorem isTellable_command {framework : Framework} (hreads : framework.ReadsCommands) {request : Request}
    {id : String} {form : CommandRequest} (hcall : framework.call? request = some (.runCommand id form)) :
    form.command.IsTellable := by
  obtain ⟨hpath, hnew⟩ := hreads request id form hcall
  refine ⟨fun path heq => ?_, hnew⟩
  cases heq
  exact hpath

theorem isTellable_ofFields {fields : Json.Fields} (h : Json.areEncodableFields fields = true) :
    (Tree.Snapshot.ofFields fields).IsTellable := by
  intro entry hentry
  obtain ⟨field, hfield, rfl⟩ := List.mem_map.mp hentry
  exact Json.areEncodableFields_iff.mp h field hfield

end Http

/-! ## §2. Workspaces -/

namespace Workspace

/-- The paths of the workspace can be expressed in bytes, and so can the origins of its externals. -/
structure IsTellable (workspace : Workspace) : Prop where
  tree : workspace.project.tree.IsTellable
  origins : workspace.config.HasEncodableOrigins

variable {workspace after : Workspace} {parser : Parser} {wanted? : Option Text}

theorem IsTellable.refresh (h : workspace.IsTellable) :
    (workspace.refresh parser wanted?).2.IsTellable := by
  obtain ⟨cache, hproject, -, hconfig⟩ := project_refresh parser workspace wanted?
  refine ⟨?_, ?_⟩
  · rw [hproject]
    exact h.tree
  · rw [hconfig]
    exact h.origins

/-- The page that comes on screen can be expressed in bytes. -/
theorem IsTellable.html (h : workspace.IsTellable) {document : Document} {stamp : Nat}
    (hrefresh : workspace.refresh parser wanted? = (.ok ⟨.ok document, stamp⟩, after)) :
    document.html.isEncodable = true := by
  unfold Workspace.refresh at hrefresh
  dsimp only at hrefresh
  split at hrefresh
  · next result built hbuild =>
    cases hrefresh
    have hanswer : (workspace.begin.2.build parser wanted?).1 = .ok ⟨.ok document, stamp⟩ := by rw [hbuild]
    let setting : Preview.Setting := ⟨parser, workspace.project.tree, workspace.config⟩
    have horigins : setting.config.HasEncodableOrigins := h.origins
    exact Preview.isEncodable_html_of_buildTree horigins hanswer
  · cases hrefresh

/-- What takes the place of the tree of a workspace is what the snapshot describes. -/
theorem ofSnapshot_of_replace {snapshot : Tree.Snapshot}
    (hok : workspace.edit (·.replace snapshot) = (.ok (), after)) :
    Tree.ofSnapshot snapshot = .ok after.project.tree ∧ after.config = workspace.config := by
  have hresult : (workspace.project.edit (·.replace snapshot)).1 = .ok () := congrArg Prod.fst hok
  obtain rfl := eq_of_edit hok
  refine ⟨?_, rfl⟩
  show _ = Except.ok (workspace.project.edit (·.replace snapshot)).2.tree
  rw [Project.tree_edit]
  unfold Project.edit at hresult
  dsimp only at hresult
  cases hreplace : workspace.project.tree.replace snapshot with
  | error error =>
    rw [hreplace] at hresult
    cases hresult
  | ok outcome => exact Tree.replace_eq_ok hreplace

theorem isTellable_of_seed {snapshot? : Option Tree.Snapshot} {project : Project}
    (h : ∀ snapshot, snapshot? = some snapshot → snapshot.IsTellable)
    (hok : Store.seed snapshot? = .ok project) : project.tree.IsTellable := by
  unfold Store.seed at hok
  split at hok
  · cases hok
    exact Tree.isTellable_empty
  · obtain ⟨tree, htree, rfl⟩ := Result.map_eq_ok_iff.mp hok
    exact Tree.isTellable_ofSnapshot (h _ rfl) htree

/-- All workspaces of the store can be told of, and new ones can be, too. -/
structure Store.IsTellable (store : Store) : Prop where
  origins : store.config.HasEncodableOrigins
  workspaces : ∀ entry ∈ store.workspaces, entry.2.IsTellable

theorem Store.isTellable_default : ({} : Store).IsTellable :=
  ⟨Preview.hasEncodableOrigins_default, nofun⟩

variable {store : Store} {id : String}

theorem Store.IsTellable.get? (h : store.IsTellable) (hget : store.get? id = some workspace) :
    workspace.IsTellable :=
  store.forall_get? h.workspaces hget

theorem Store.IsTellable.set (h : store.IsTellable) (hnew : workspace.IsTellable) :
    (store.set id workspace).IsTellable :=
  ⟨h.origins, store.forall_set h.workspaces hnew⟩

end Workspace

/-! ## §3. Behind a call -/

namespace Http

open LivePreview.Workspace (Store)

variable {parser : Parser} {newId id : String} {store after : Store} {workspace : Workspace} {call : Call}
  {handled : Handled}

theorem isTellable_tree_of_create {snapshot? : Option Json.Fields}
    (hcall : Call.IsTellable (.createWorkspace snapshot?))
    (hcreate : store.create newId (snapshot?.map .ofFields) = (.ok workspace, after)) :
    workspace.project.tree.IsTellable := by
  obtain ⟨-, project, hseed, rfl, -⟩ := Workspace.Store.create_eq_ok hcreate
  show project.tree.IsTellable
  refine Workspace.isTellable_of_seed (fun snapshot hsnapshot => ?_) hseed
  obtain ⟨fields, hfields, rfl⟩ := Option.map_eq_some_iff.mp hsnapshot
  exact isTellable_ofFields (hcall.object fields hfields)

/-- **All paths can be expressed in bytes behind a call whose texts can be.** -/
theorem isTellable_of_effect (h : Effect parser newId store call handled after)
    (hcall : call.IsTellable) (hstore : store.IsTellable) : after.IsTellable := by
  cases h with
  | nothing => exact hstore
  | created hcreate =>
    have htree := isTellable_tree_of_create hcall hcreate
    obtain ⟨-, project, -, rfl, rfl⟩ := Workspace.Store.create_eq_ok hcreate
    refine ⟨hstore.origins, List.forall_mem_append.mpr ⟨hstore.workspaces, ?_⟩⟩
    exact List.forall_mem_singleton.mpr ⟨htree, hstore.origins⟩
  | deleted hdelete =>
    obtain ⟨workspace, -, -, rfl⟩ := Workspace.Store.delete_eq_some hdelete
    exact ⟨hstore.origins, fun entry hentry => hstore.workspaces entry (List.mem_of_mem_filter hentry)⟩
  | replaced hget hreplace =>
    obtain ⟨hsnapshot, hconfig⟩ := Workspace.ofSnapshot_of_replace hreplace
    have hfields := isTellable_ofFields (hcall.object _ rfl)
    refine hstore.set ⟨Tree.isTellable_ofSnapshot hfields hsnapshot, ?_⟩
    rw [hconfig]
    exact (hstore.get? hget).origins
  | @commanded id request workspace _ project hget hrun =>
    have hworkspace := hstore.get? hget
    have hcommand := hcall.command id request rfl
    have hproject : project = (Command.run workspace.project request.command).2 := by rw [hrun]
    refine hstore.set ⟨?_, hworkspace.origins⟩
    rw [hproject]
    exact (Command.editedTo_run _ fun _ => hcommand.covers).tree hworkspace.tree fun _ =>
      hworkspace.tree.perform
  | called hget htool =>
    have hworkspace := hstore.get? hget
    have harguments : Json.areEncodableFields _ = true := hcall.object _ rfl
    refine hstore.set ⟨?_, hworkspace.origins⟩
    rw [← Tool.behind_of_call htool]
    exact Tool.isTellable_behind hworkspace.tree harguments
  | @shown _ _ path? workspace after _ hget hrefresh =>
    have hafter : after = (workspace.refresh parser path?).2 := by rw [hrefresh]
    rw [hafter]
    exact hstore.set (hstore.get? hget).refresh
  | @brokeDown _ _ path? workspace after _ hget hrefresh =>
    have hafter : after = (workspace.refresh parser path?).2 := by rw [hrefresh]
    rw [hafter]
    exact hstore.set (hstore.get? hget).refresh

/-! ## §4. Reports -/

theorem depth_summary_le (id : String) (workspace : Workspace) : (summary id workspace).toJson.depth ≤ 4 := by
  have hpaths : (Json.array ((workspace.project.tree.files.map Prod.fst).map .text)).depth ≤ 1 + 1 :=
    Json.depth_array_le (List.forall_mem_map.mpr fun _ _ => Nat.le_refl 1)
  refine Json.depth_object_le ?_
  rw [List.forall_mem_cons, List.forall_mem_cons, List.forall_mem_singleton]
  exact ⟨Nat.le_add_left 1 2, Nat.le_trans hpaths (Nat.le_succ 2), Nat.le_add_left 1 2⟩

theorem isEncodable_summary (h : workspace.project.tree.IsTellable) (id : String) :
    (summary id workspace).toJson.isEncodable = true := by
  have hpaths : Json.areEncodableItems ((workspace.project.tree.files.map Prod.fst).map .text) = true := by
    refine Json.areEncodableItems_iff.mpr (List.forall_mem_map.mpr ?_)
    exact List.forall_mem_map.mpr h.isEncodable_files
  refine Json.areEncodableFields_iff.mpr ?_
  rw [List.forall_mem_cons, List.forall_mem_cons, List.forall_mem_singleton]
  exact ⟨⟨rfl, isEncodable_ofString id⟩, ⟨rfl, hpaths⟩, rfl, rfl⟩

/-- A tree that has been read from a snapshot is reported without much depth. -/
theorem depth_snapshot_le {tree : Tree} (h : tree.HoldsTexts) (revision : Nat) :
    (Report.snapshot tree.serialize revision).toJson.depth ≤ 4 := by
  refine Json.depth_object_le ?_
  rw [List.forall_mem_cons, List.forall_mem_singleton]
  exact ⟨h.depth_serialize_le, Nat.le_add_left 1 2⟩

theorem isEncodable_snapshot {snapshot : Tree.Snapshot} {tree : Tree} (h : snapshot.IsTellable)
    (hok : Tree.ofSnapshot snapshot = .ok tree) (revision : Nat) :
    (Report.snapshot tree.serialize revision).toJson.isEncodable = true := by
  refine Json.areEncodableFields_iff.mpr ?_
  rw [List.forall_mem_cons, List.forall_mem_singleton]
  exact ⟨⟨rfl, Tree.isEncodable_serialize h hok⟩, rfl, rfl⟩

theorem isTyped_tool (label : Text) (reply : Tool.Reply) : (Report.tool label reply.toJson).isTyped = true := by
  cases reply with
  | editor reply => rfl
  | manager reply => cases reply <;> rfl

theorem depth_tool_le (label : Text) (reply : Tool.Reply) :
    (Report.tool label reply.toJson).toJson.depth ≤ 4 := by
  have hreply : reply.toJson.depth ≤ 3 := by
    cases reply with
    | editor reply => exact Nat.le_add_left 1 2
    | manager reply => cases reply <;> exact Nat.le_succ 2
  refine Json.depth_object_le ?_
  rw [List.forall_mem_cons, List.forall_mem_singleton]
  exact ⟨Nat.le_add_left 1 2, hreply⟩

theorem isEncodable_tool {label : Text} {result : Json} (hlabel : label.isEncodable = true)
    (hresult : result.isEncodable = true) : (Report.tool label result).toJson.isEncodable = true := by
  refine Json.areEncodableFields_iff.mpr ?_
  rw [List.forall_mem_cons, List.forall_mem_singleton]
  exact ⟨⟨rfl, hlabel⟩, rfl, hresult⟩

/-! ## §5. The framework that the server runs with -/

section Stack

open Stack (Checked asTextWithin callFor readCommand receiveAt)

theorem isEncodable_of_asTextWithin {name text : Text} {least most : Nat} {value : Json}
    (hok : asTextWithin name least most value = .ok text) : text.isEncodable = true := by
  unfold asTextWithin at hok
  obtain ⟨all, -, hok⟩ := Result.bind_eq_ok_iff.mp hok
  dsimp only at hok
  split at hok
  · cases hok
  · next hencodable =>
    split at hok
    · cases hok
    · split at hok <;> cases hok
      simpa using hencodable

theorem exists_of_optional {α : Type} {fields : Json.Fields} {name : Text} {f : Json → Checked α} {a : α}
    (hok : Stack.optional fields name f = .ok (some a)) : ∃ value, f value = .ok a := by
  unfold Stack.optional at hok
  split at hok
  · cases hok
  · cases hok
  · next value _ _ =>
    obtain ⟨b, hb, heq⟩ := Result.map_eq_ok_iff.mp hok
    exact ⟨value, hb.trans (congrArg _ (Option.some.inj heq))⟩

/-- The paths of a command that a body describes can be expressed in bytes. -/
theorem isEncodable_of_readCommand {body : String} {form : CommandRequest}
    (hok : readCommand body = .ok form) :
    form.path.isEncodable = true ∧
      ∀ newPath, form.newPath? = some newPath → newPath.isEncodable = true := by
  unfold readCommand at hok
  obtain ⟨all, -, hok⟩ := Result.bind_eq_ok_iff.mp hok
  dsimp only at hok
  split at hok
  · next operation path content? newPath? _ hpath _ hnew _ =>
    cases hok
    refine ⟨?_, fun newPath hsome => ?_⟩
    · obtain ⟨value, -, htext⟩ := Result.bind_eq_ok_iff.mp hpath
      exact isEncodable_of_asTextWithin htext
    · have hsome : newPath? = some newPath := hsome
      subst hsome
      obtain ⟨value, htext⟩ := exists_of_optional hnew
      exact isEncodable_of_asTextWithin htext
  · cases hok

/-- A call of a command comes from a body that describes it. -/
theorem exists_of_receiveAt {target : Stack.Target} {request : Request} {id : String} {form : CommandRequest}
    (hok : receiveAt target request = .ok (.runCommand id form)) : readCommand request.body = .ok form := by
  unfold receiveAt at hok
  split at hok
  · cases hok
  · cases hok
  · split at hok
    · cases hok
    · next action _ =>
      cases action with
      | runCommand named =>
        obtain ⟨read, hread, heq⟩ := Result.map_eq_ok_iff.mp (Result.mapError_eq_ok_iff.mp hok)
        cases heq
        exact hread
      | createWorkspace =>
        obtain ⟨read, -, heq⟩ := Result.map_eq_ok_iff.mp (Result.mapError_eq_ok_iff.mp hok)
        cases heq
      | replaceSnapshot named =>
        obtain ⟨read, -, heq⟩ := Result.map_eq_ok_iff.mp (Result.mapError_eq_ok_iff.mp hok)
        cases heq
      | callTool named name =>
        obtain ⟨read, -, heq⟩ := Result.map_eq_ok_iff.mp (Result.mapError_eq_ok_iff.mp hok)
        cases heq
      | _ => cases hok

theorem readsCommands_stack : stack.ReadsCommands := by
  intro request id form hcall
  have hreceive : Stack.receive request = .ok (.runCommand id form) := call?_eq_some_iff.mp hcall
  unfold Stack.receive at hreceive
  split at hreceive
  · cases hreceive
  · split at hreceive
    · exact isEncodable_of_readCommand (exists_of_receiveAt (Result.mapError_eq_ok_iff.mp hreceive))
    · exact isEncodable_of_readCommand (exists_of_receiveAt hreceive)

theorem exists_writeValue {value : Json} (hstandard : value.isStandard = true)
    (hencodable : value.isEncodable = true) : ∃ content, Stack.writeValue value = .ok content := by
  refine ⟨.json value, ?_⟩
  unfold Stack.writeValue Stack.flaw?
  rw [hstandard, hencodable]
  rfl

theorem writesTexts_stack : stack.WritesTexts := by
  intro outcome hplain hencodable hdepth
  cases outcome with
  | report status told =>
    have htyped : Stack.misfitFile? told = none := by
      cases told with
      | files contents revision =>
        show (contents.find? fun entry => entry.2.text?.isNone).map Prod.fst = none
        rw [Option.map_eq_none_iff, List.find?_eq_none]
        intro entry hmem hmissing
        have hfound : entry.2.text?.isSome = true := List.all_eq_true.mp hplain entry hmem
        rw [Option.isNone_iff_eq_none.mp hmissing] at hfound
        cases hfound
      | _ => rfl
    have hwithin : (told.toJson.isEncodable && told.toJson.depth ≤ Stack.depthLimit) = true :=
      Bool.and_eq_true_iff.mpr ⟨hencodable, decide_eq_true (Nat.le_trans hdepth (by decide))⟩
    refine ⟨.json told.toJson.toStandard, ?_⟩
    show Stack.write (.report status told) = _
    unfold Stack.write Stack.writeReport
    dsimp only
    rw [htyped, hwithin]
    rfl
  | value status told => exact exists_writeValue hplain hencodable
  | page html =>
    have hhtml : html.isEncodable = true := hencodable
    exact ⟨.html html, if_pos hhtml⟩
  | refused status detail => exact exists_writeValue rfl hencodable

end Stack

end Http

end LivePreview
