/-
  LivePreview.Proofs.Http.Effect
  ──────────────────────────────
  **What a request does to the workspaces of a server.**

  A call has one effect on the store, or none (`Effect`): it creates or deletes a
  workspace, or puts another one in the place of the workspace that it names.  What such
  a workspace is, and what the handler comes to, stands in the cases of `Effect`;
  everything else that is said of runs follows from them.

  The requests of a run go through any framework.  A step of the run is either no call at
  all, and leaves the store as it is, or it has the effect of its call (`stepOf_cases`).
-/
import LivePreview.Http.Framework
import LivePreview.Proofs.Tool.Contents
import LivePreview.Proofs.Workspace.Store

namespace LivePreview

/-! ## §1. Labels -/

namespace Tool

/-- What can be taken as a text has a short name. -/
theorem exists_shortName_of_textOr {misfit : Json → Misfit} {value : Json} {text : Text}
    (hok : textOr misfit value = .ok text) (substitute : Text) :
    ∃ target, shortName value substitute = .ok target := by
  unfold textOr at hok
  unfold shortName
  split at hok
  · exact ⟨_, rfl⟩
  · next hother =>
    split at hok
    · cases hok
    · next hblank =>
      split
      · next hfilled => exact absurd hfilled hblank
      · exact ⟨_, rfl⟩

/-- A call that replies has a label. -/
theorem exists_label_of_call {project after : Project} {name : String} {arguments : Json}
    {reply : Reply} (hcall : call project name arguments = .ok (reply, after)) :
    ∃ text, label name arguments = .ok text := by
  obtain ⟨tool, command, path, htool, hcommand, hpath, hfield, hrun⟩ := call_eq_ok hcall
  unfold label
  rw [hpath, hcommand, htool]
  cases tool with
  | editor => exact ⟨_, rfl⟩
  | manager =>
    show ∃ text, managerLabel command _ arguments = .ok text
    unfold managerLabel
    split
    · next hrename =>
      -- the new path is a text or blank, since the call has renamed something
      unfold runOn at hrun
      rw [hfield, if_neg nofun] at hrun
      obtain ⟨result, hresult, -⟩ := Result.map_eq_ok_iff.mp hrun
      unfold Manager.run at hresult
      rw [hrename] at hresult
      obtain ⟨newPath, hnew, -⟩ := Result.bind_eq_ok_iff.mp hresult
      obtain ⟨destination, hdestination⟩ := exists_shortName_of_textOr hnew "new location"
      rw [hdestination]
      exact ⟨_, rfl⟩
    · exact ⟨_, rfl⟩
    · exact ⟨_, rfl⟩

end Tool

namespace Http

open LivePreview.Lowering (Parser)
open LivePreview.Workspace (Store)

/-! ## §2. Effects -/

/-- What a handler comes to that does not report a new workspace, and that has a status if it tells of
a failed command. -/
structure Ordinary (handled : Handled) : Prop where
  ne_created : ∀ report, handled ≠ .ok (.report 201 report)
  ne_noStatus : ∀ kind, handled ≠ .error (.noStatus kind)

theorem ordinary_refuse (status : Nat) (detail : Text) : Ordinary (refuse status detail) :=
  ⟨nofun, nofun⟩

theorem ordinary_respond (report : Report) : Ordinary (respond 200 report) :=
  ⟨nofun, nofun⟩

theorem ordinary_handledFault (fault : Tool.CallFault) : Ordinary (handledFault fault) := by
  unfold handledFault
  split
  · exact ⟨nofun, nofun⟩
  · exact ⟨nofun, nofun⟩
  · exact ⟨nofun, nofun⟩
  · exact ordinary_refuse _ _

/-- What may become of a store when a call is handled, and what the handler comes to then. -/
inductive Effect (parser : Parser) (newId : String) (store : Store) : Call → Handled → Store → Prop
  /-- The store is read, or the request is refused. -/
  | nothing {call : Call} {handled : Handled} (hordinary : Ordinary handled) :
      Effect parser newId store call handled store
  | created {snapshot? : Option Json.Fields} {workspace : Workspace} {after : Store}
      (hcreate : store.create newId (snapshot?.map .ofFields) = (.ok workspace, after)) :
      Effect parser newId store (.createWorkspace snapshot?) (respond 201 (summary newId workspace)) after
  | deleted {id : String} {closed : Workspace} {after : Store}
      (hdelete : store.delete id = (some closed, after)) :
      Effect parser newId store (.deleteWorkspace id) (respond 200 .deleted) after
  | replaced {id : String} {fields : Json.Fields} {workspace after : Workspace}
      (hget : store.get? id = some workspace)
      (hreplace : workspace.edit (·.replace (.ofFields fields)) = (.ok (), after)) :
      Effect parser newId store (.replaceSnapshot id fields) (readSnapshot after) (store.set id after)
  | commanded {id : String} {request : CommandRequest} {workspace : Workspace} {reply : Command.Reply}
      {project : Project} (hget : store.get? id = some workspace)
      (hrun : Command.run workspace.project request.command = (reply, project)) :
      Effect parser newId store (.runCommand id request) (handledReply reply)
        (store.set id { workspace with project })
  | called {id name : String} {arguments : Json.Fields} {workspace : Workspace} {reply : Tool.Reply}
      {project : Project} {label : Text} (hget : store.get? id = some workspace)
      (hcall : Tool.call workspace.project name (.object arguments) = .ok (reply, project))
      (hlabel : Tool.label name (.object arguments) = .ok label) :
      Effect parser newId store (.callTool id name arguments) (respond 200 (.tool label reply.toJson))
        (store.set id { workspace with project })
  | shown {id : String} {wanted? path? : Option Text} {workspace after : Workspace}
      {result : Preview.BuildResult} (hget : store.get? id = some workspace)
      (hrefresh : workspace.refresh parser path? = (.ok result, after)) :
      Effect parser newId store (.showPreview id wanted?) (handledBuild result) (store.set id after)
  | brokeDown {id : String} {wanted? path? : Option Text} {workspace after : Workspace}
      {breakdown : Preview.Breakdown} (hget : store.get? id = some workspace)
      (hrefresh : workspace.refresh parser path? = (.error breakdown, after)) :
      Effect parser newId store (.showPreview id wanted?) (.error (.preview breakdown))
        (store.set id after)

/-- What a handler comes to, and the store behind it, are an effect of the call. -/
def HasEffect (parser : Parser) (newId : String) (store : Store) (call : Call)
    (behind : Handled × Store) : Prop :=
  Effect parser newId store call behind.1 behind.2

variable {parser : Parser} {newId id : String} {store : Store} {call : Call}

theorem hasEffect_refuse (status : Nat) (detail : Text) :
    HasEffect parser newId store call (refuse status detail, store) :=
  .nothing (ordinary_refuse status detail)

theorem hasEffect_respond (report : Report) :
    HasEffect parser newId store call (respond 200 report, store) :=
  .nothing (ordinary_respond report)

theorem hasEffect_withWorkspace {f : Workspace → Handled × Store}
    (hf : ∀ workspace, store.get? id = some workspace →
      HasEffect parser newId store call (f workspace)) :
    HasEffect parser newId store call (withWorkspace store id f) := by
  unfold withWorkspace
  split
  · next workspace hget => exact hf workspace hget
  · exact hasEffect_refuse _ _

theorem hasEffect_createWorkspace (snapshot? : Option Json.Fields) :
    HasEffect parser newId store (.createWorkspace snapshot?)
      (createWorkspace store newId snapshot?) := by
  unfold createWorkspace
  split
  · next workspace after hcreate => exact .created hcreate
  · next limit after hcreate =>
    rw [Workspace.Store.create_eq_error hcreate]
    exact hasEffect_refuse _ _
  · next error after hcreate =>
    rw [Workspace.Store.create_eq_error hcreate]
    exact hasEffect_refuse _ _

theorem hasEffect_deleteWorkspace (id : String) :
    HasEffect parser newId store (.deleteWorkspace id) (deleteWorkspace store id) := by
  unfold deleteWorkspace
  split
  · next closed after hdelete => exact .deleted hdelete
  · next after hdelete =>
    rw [Workspace.Store.delete_eq_none hdelete]
    exact hasEffect_refuse _ _

section Named

variable {workspace : Workspace} (hget : store.get? id = some workspace)
include hget

theorem hasEffect_replaceSnapshot (fields : Json.Fields) :
    HasEffect parser newId store (.replaceSnapshot id fields)
      (replaceSnapshot store id workspace (.ofFields fields)) := by
  unfold replaceSnapshot
  split
  · next after hreplace => exact .replaced hget hreplace
  · exact hasEffect_refuse _ _

theorem hasEffect_callTool (name : String) (arguments : Json.Fields) :
    HasEffect parser newId store (.callTool id name arguments)
      (callTool store id name workspace arguments) := by
  unfold callTool
  split
  · exact hasEffect_refuse _ _
  · split
    · exact .nothing (ordinary_handledFault _)
    · next reply project hcall =>
      obtain ⟨label, hlabel⟩ := Tool.exists_label_of_call hcall
      dsimp only
      rw [hlabel]
      exact .called hget hcall hlabel

theorem hasEffect_showPreview (wanted? : Option Text) :
    HasEffect parser newId store (.showPreview id wanted?)
      (showPreview parser store id workspace wanted?) := by
  unfold showPreview Workspace.Store.preview
  rcases hrefresh : workspace.refresh parser (store.entryFor workspace wanted?) with
    ⟨breakdown | result, after⟩
  · exact .brokeDown hget hrefresh
  · exact .shown hget hrefresh

end Named

/-- **Every call has an effect.** -/
theorem hasEffect_handle (parser : Parser) (newId : String) (store : Store) (call : Call) :
    HasEffect parser newId store call (handle parser newId store call) := by
  cases call with
  | checkHealth => exact hasEffect_respond _
  | createWorkspace snapshot? => exact hasEffect_createWorkspace snapshot?
  | deleteWorkspace id => exact hasEffect_deleteWorkspace id
  | listFiles id => exact hasEffect_withWorkspace fun _ _ => hasEffect_respond _
  | readSnapshot id => exact hasEffect_withWorkspace fun _ _ => hasEffect_respond _
  | replaceSnapshot id fields =>
    exact hasEffect_withWorkspace fun _ hget => hasEffect_replaceSnapshot hget fields
  | runCommand id request => exact hasEffect_withWorkspace fun _ hget => .commanded hget rfl
  | callTool id name arguments =>
    exact hasEffect_withWorkspace fun _ hget => hasEffect_callTool hget name arguments
  | showPreview id wanted? =>
    exact hasEffect_withWorkspace fun _ hget => hasEffect_showPreview hget wanted?

/-! ## §3. Runs -/

/-- A request, and the id of the workspace that it creates if it creates one. -/
structure Visit where
  newId : String
  request : Request
  deriving DecidableEq

/-- A visit as it is made: the store in front of it, what a handler comes to if one is called, what is
answered, and the store behind it. -/
structure Step where
  before : Store
  visit : Visit
  handled? : Option Handled
  answering : Answering
  after : Store

/-- The step in which a visit is made. -/
def stepOf (framework : Framework) (parser : Parser) (store : Store) (visit : Visit) : Step :=
  { before := store
    visit
    handled? := (framework.call? visit.request).map fun call =>
      (handle parser visit.newId store call).1
    answering := (framework.answer parser visit.newId store visit.request).1
    after := (framework.answer parser visit.newId store visit.request).2 }

/-- The steps of a run. -/
def steps (framework : Framework) (parser : Parser) (store : Store) : List Visit → List Step
  | [] => []
  | visit :: visits =>
    stepOf framework parser store visit
      :: steps framework parser (stepOf framework parser store visit).after visits

/-- The store behind a run. -/
def behind (framework : Framework) (parser : Parser) (store : Store) (visits : List Visit) : Store :=
  visits.foldl (fun store visit => (stepOf framework parser store visit).after) store

variable {framework : Framework} {visits : List Visit}

theorem call?_eq_some_iff {request : Request} :
    framework.call? request = some call ↔ framework.receive request = .ok call := by
  unfold Framework.call?
  cases framework.receive request with
  | error answering => exact ⟨nofun, nofun⟩
  | ok other => exact ⟨fun h => congrArg _ (Option.some.inj h), fun h => congrArg _ (Except.ok.inj h)⟩

/-- A request that leads to a call is answered with what the handler comes to. -/
theorem answer_of_call? {request : Request} (hcall : framework.call? request = some call) :
    framework.answer parser newId store request
      = (framework.respond (handle parser newId store call).1, (handle parser newId store call).2) := by
  unfold Framework.answer
  rw [call?_eq_some_iff.mp hcall]

/-- **A step calls nothing and changes nothing, or it has the effect of its call.** -/
theorem stepOf_cases (framework : Framework) (parser : Parser) (store : Store) (visit : Visit) :
    (framework.call? visit.request = none ∧ (stepOf framework parser store visit).handled? = none
      ∧ (stepOf framework parser store visit).after = store) ∨
    ∃ call handled, framework.call? visit.request = some call
      ∧ (stepOf framework parser store visit).handled? = some handled
      ∧ (stepOf framework parser store visit).answering = framework.respond handled
      ∧ Effect parser visit.newId store call handled (stepOf framework parser store visit).after := by
  unfold stepOf
  cases hcall : framework.call? visit.request with
  | none =>
    refine .inl ⟨rfl, rfl, ?_⟩
    unfold Framework.call? at hcall
    unfold Framework.answer
    cases hreceive : framework.receive visit.request with
    | error answering => rfl
    | ok call =>
      rw [hreceive] at hcall
      cases hcall
  | some call =>
    rw [answer_of_call? hcall]
    exact .inr ⟨call, _, rfl, rfl, rfl, hasEffect_handle parser visit.newId store call⟩

theorem eq_stepOf_of_mem {step : Step} (hmem : step ∈ steps framework parser store visits) :
    step = stepOf framework parser step.before step.visit := by
  induction visits generalizing store with
  | nil =>
    rw [steps] at hmem
    cases hmem
  | cons visit visits ih =>
    rw [steps] at hmem
    rcases List.mem_cons.mp hmem with rfl | hmem
    · rfl
    · exact ih hmem

theorem visit_mem_of_mem {step : Step} (hmem : step ∈ steps framework parser store visits) :
    step.visit ∈ visits := by
  induction visits generalizing store with
  | nil =>
    rw [steps] at hmem
    cases hmem
  | cons visit visits ih =>
    rw [steps] at hmem
    rcases List.mem_cons.mp hmem with rfl | hmem
    · exact List.mem_cons_self
    · exact List.mem_cons_of_mem _ (ih hmem)

/-- What every step preserves, if it is one of some kind, holds in front of every step of a run of such
steps and behind the run. -/
theorem forall_of_steps {P : Store → Prop} {Q : Step → Prop}
    (hstep : ∀ store visit, P store → Q (stepOf framework parser store visit) →
      P (stepOf framework parser store visit).after)
    (hstart : P store) (hrun : ∀ step ∈ steps framework parser store visits, Q step) :
    (∀ step ∈ steps framework parser store visits, P step.before)
      ∧ P (behind framework parser store visits) := by
  induction visits generalizing store with
  | nil =>
    refine ⟨fun step hmem => ?_, hstart⟩
    rw [steps] at hmem
    cases hmem
  | cons visit visits ih =>
    rw [steps, List.forall_mem_cons] at hrun
    obtain ⟨hrest, hbehind⟩ := ih (hstep store visit hstart hrun.1) hrun.2
    refine ⟨?_, hbehind⟩
    rw [steps, List.forall_mem_cons]
    exact ⟨hstart, hrest⟩

theorem behind_append (framework : Framework) (parser : Parser) (store : Store)
    (earlier later : List Visit) :
    behind framework parser store (earlier ++ later)
      = behind framework parser (behind framework parser store earlier) later :=
  List.foldl_append

theorem steps_append (framework : Framework) (parser : Parser) (store : Store)
    (earlier later : List Visit) :
    steps framework parser store (earlier ++ later)
      = steps framework parser store earlier
        ++ steps framework parser (behind framework parser store earlier) later := by
  induction earlier generalizing store with
  | nil => rfl
  | cons visit earlier ih =>
    rw [List.cons_append, steps, steps, ih, List.cons_append]
    rfl

/-! ## §4. A framework that is told its calls -/

/-- The content of a response that tells what a handler returns. -/
def contentOf : Outcome → Content
  | .page html => .html html
  | outcome => .json outcome.toJson

/-- The framework that knows what calls some requests lead to, and finds nothing for all others.  It
writes down what can be expressed in bytes. -/
def Framework.told (calls : List (Request × Call)) : Framework where
  receive request :=
    match calls.lookup request with
    | some call => .ok call
    | none => .error (.ok ⟨404, .json (.object [("detail", .text "Not Found")])⟩)
  write outcome :=
    if outcome.isPlain && outcome.toJson.isEncodable then .ok (contentOf outcome)
    else .error .notEncodable

theorem writesTexts_told (calls : List (Request × Call)) : (Framework.told calls).WritesTexts := by
  intro outcome hplain hencodable _
  refine ⟨contentOf outcome, ?_⟩
  unfold Framework.told
  dsimp only
  rw [hplain, hencodable]
  rfl

theorem readsCommands_told {calls : List (Request × Call)}
    (h : ∀ entry ∈ calls, ∀ id form, entry.2 = .runCommand id form → form.path.isEncodable = true ∧
      ∀ newPath, form.newPath? = some newPath → newPath.isEncodable = true) :
    (Framework.told calls).ReadsCommands := by
  intro request id form hcall
  have hlookup : calls.lookup request = some (.runCommand id form) := by
    have hreceive := call?_eq_some_iff.mp hcall
    unfold Framework.told at hreceive
    dsimp only at hreceive
    split at hreceive
    · next call hlookup => rw [hlookup, Except.ok.inj hreceive]
    · cases hreceive
  obtain ⟨entry, hmem, heq⟩ := List.mem_map.mp (Table.mem_values_of_get? hlookup)
  exact h entry hmem id form heq

/-- The visit that creates a workspace without files. -/
def Visit.creation (newId : String) : Visit :=
  ⟨newId, { method := "POST", target := "/api/workspaces", body := "\x7b\x7d" }⟩

end Http

end LivePreview
