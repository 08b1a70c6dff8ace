/-
  LivePreview.Proofs.Http.Refusal
  ───────────────────────────────
  **What an error response changes.**

  What the users of a workspace see of it is its tree, its revision and the document on
  screen (`Workspace.outline`).  A call that a handler refuses, and one that makes it
  break down, leave the outlines of all workspaces as they are (`effect_done_or_same`).

  There is one error response that may change something.  A handler has done what it was
  called for, and then what it returns cannot be written down, since a text in it holds
  half of a surrogate pair (`Step.IsUntold`).  The sender learns of an internal error,
  and the work has been done (`not_sameWorkspaces_of_half`).  As long as all texts that
  come with requests can be expressed in bytes, this does not happen.

  A command that is rejected always gets the status of its kind of failure
  (`answer_of_rejected`).
-/
import LivePreview.Proofs.Http.Telling

namespace LivePreview

open LivePreview.Lowering (Parser)
open LivePreview.Preview (BuildResult Document Session)
open LivePreview.Workspace (Store)

/-! ## §1. Showing a page -/

namespace Workspace

variable {parser : Parser} {workspace after : Workspace} {wanted? : Option Text}

/-- What is seen of a workspace: its tree, its revision, and the document on screen. -/
def outline (workspace : Workspace) : Tree × Nat × Option Document :=
  (workspace.project.tree, workspace.project.revision, workspace.session.document?)

theorem document?_accept_of_error (session : Session) (registry : Module.Registry) (ticket : Nat)
    (error : Preview.BuildError) (stamp : Nat) :
    (session.accept registry ticket ⟨.error error, stamp⟩).2.1.document? = session.document? := by
  unfold Session.accept
  split <;> rfl

/-- Only a document takes the place of the document on screen. -/
theorem outline_refresh {answer : Except Preview.Breakdown BuildResult}
    (hrefresh : workspace.refresh parser wanted? = (answer, after))
    (hfailed : ∀ document stamp, answer ≠ .ok ⟨.ok document, stamp⟩) : after.outline = workspace.outline := by
  have hdocument : after.session.document? = workspace.session.document? := by
    unfold refresh at hrefresh
    dsimp only at hrefresh
    split at hrefresh
    · next result built hbuild =>
      cases hrefresh
      have hbuilt : built = (workspace.begin.2.build parser wanted?).2 := by rw [hbuild]
      subst hbuilt
      obtain ⟨outcome, stamp⟩ := result
      cases outcome with
      | ok document => exact absurd rfl (hfailed document stamp)
      | error error => exact document?_accept_of_error _ _ _ error stamp
    · next breakdown built hbuild =>
      cases hrefresh
      have hbuilt : after = (workspace.begin.2.build parser wanted?).2 := by rw [hbuild]
      subst hbuilt
      rfl
  obtain ⟨cache, hproject, -, -⟩ := project_refresh parser workspace wanted?
  rw [hrefresh] at hproject
  unfold outline
  rw [hproject, hdocument]
  rfl

end Workspace

/-! ## §2. Stores that look the same -/

namespace Http

open LivePreview.Workspace (outline)

/-- The workspaces are the same, and what is seen of each of them is. -/
structure SameWorkspaces (before after : Store) : Prop where
  ids : after.ids = before.ids
  outline : ∀ id, (after.get? id).map outline = (before.get? id).map outline

theorem SameWorkspaces.refl (store : Store) : SameWorkspaces store store :=
  ⟨rfl, fun _ => rfl⟩

variable {framework : Framework} {parser : Parser} {newId id : String} {store after : Store}
  {workspace : Workspace} {call : Call} {handled : Handled}

/-- A workspace that looks like the one with an id may take its place. -/
theorem sameWorkspaces_set {other : Workspace} (hget : store.get? id = some workspace)
    (hsame : other.outline = workspace.outline) : SameWorkspaces store (store.set id other) := by
  refine ⟨store.ids_set id other, fun key => ?_⟩
  by_cases hkey : key = id
  · subst hkey
    rw [Workspace.Store.get?_set_self hget, hget, Option.map_some, Option.map_some, hsame]
  · rw [Workspace.Store.get?_set_of_ne hkey]

theorem sameWorkspaces_set_get? (hget : store.get? id = some workspace) :
    SameWorkspaces store (store.set id workspace) :=
  sameWorkspaces_set hget rfl

/-! ## §3. What is done and what is refused -/

/-- A call has been carried out, and the handler returns something plain that tells of no error.  It
can be expressed in bytes if everything that has come before can be. -/
structure IsDone (tellable : Prop) (outcome : Outcome) : Prop where
  status_lt : outcome.status < 400
  isPlain : outcome.isPlain = true
  depth_le : outcome.toJson.depth ≤ 4
  isEncodable : tellable → outcome.toJson.isEncodable = true

theorem isDone_reply {tellable : Prop} {answer : Command.Answer} {paths : List Text}
    (hpaths : answer.paths? = some paths)
    (htell : tellable → ∀ path ∈ paths, path.isEncodable = true) :
    IsDone tellable (.value 200 (Command.Reply.toJson (.ok answer))) :=
  { status_lt := show 200 < 400 by decide
    isPlain := Command.isStandard_toJson_of_paths? hpaths
    depth_le := Nat.le_succ_of_le (Command.depth_toJson_of_paths? hpaths)
    isEncodable := fun h => Command.isEncodable_toJson_of_paths? hpaths (htell h) }

/-- **Whatever a call does, it has been carried out or all workspaces look the same.** -/
theorem effect_done_or_same (h : Effect parser newId store call handled after) :
    (∃ outcome, handled = .ok outcome ∧ IsDone (call.IsTellable ∧ store.IsTellable) outcome) ∨
      SameWorkspaces store after := by
  cases h with
  | nothing => exact .inr (.refl store)
  | @created snapshot? workspace _ hcreate =>
    refine .inl ⟨_, rfl, show 201 < 400 by decide, rfl, depth_summary_le newId workspace, fun ⟨hcall, _⟩ => ?_⟩
    exact isEncodable_summary (isTellable_tree_of_create hcall hcreate) newId
  | deleted => exact .inl ⟨_, rfl, by decide, rfl, by decide, fun _ => rfl⟩
  | @replaced id fields workspace after hget hreplace =>
    have hsnapshot := (Workspace.ofSnapshot_of_replace hreplace).1
    refine .inl ⟨_, rfl, show 200 < 400 by decide, rfl, ?_, fun ⟨hcall, _⟩ => ?_⟩
    · exact depth_snapshot_le (Tree.holdsTexts_ofSnapshot hsnapshot) _
    · exact isEncodable_snapshot (isTellable_ofFields (hcall.object fields rfl)) hsnapshot _
  | @commanded id request workspace reply project hget hrun =>
    have hreply : reply = (Command.run workspace.project request.command).1 := by rw [hrun]
    have hproject : project = (Command.run workspace.project request.command).2 := by rw [hrun]
    cases reply with
    | error failure =>
      rw [hproject, (Command.run_of_error hreply.symm).1]
      exact .inr (sameWorkspaces_set_get? hget)
    | ok answer =>
      rcases Command.tellsPaths_or_unchanged hreply.symm with ⟨paths, hpaths, htell⟩ | hsame
      · refine .inl ⟨_, rfl, isDone_reply hpaths fun ⟨hcall, hstore⟩ => ?_⟩
        exact htell (hcall.command id request rfl) (hstore.get? hget).tree
      · rw [hproject, hsame]
        exact .inr (sameWorkspaces_set_get? hget)
  | @called id name arguments workspace reply project label hget htool hlabel =>
    by_cases hsame : project = workspace.project
    · rw [hsame]
      exact .inr (sameWorkspaces_set_get? hget)
    · refine .inl ⟨_, rfl, show 200 < 400 by decide, isTyped_tool label reply,
        depth_tool_le label reply, ?_⟩
      intro ⟨hcall, _⟩
      have harguments : (Json.object arguments).isEncodable = true := hcall.object arguments rfl
      have hreply := ((Tool.isTold_or_unchanged harguments htool).resolve_right hsame).1
      exact isEncodable_tool (Tool.isEncodable_label harguments hlabel) hreply
  | @shown _ _ path? workspace after result hget hrefresh =>
    obtain ⟨outcome, stamp⟩ := result
    cases outcome with
    | error error =>
      exact .inr (sameWorkspaces_set hget (Workspace.outline_refresh hrefresh nofun))
    | ok document =>
      refine .inl ⟨_, rfl, show 200 < 400 by decide, rfl, Nat.le_add_left 1 3, fun ⟨_, hstore⟩ => ?_⟩
      exact (hstore.get? hget).html hrefresh
  | brokeDown hget hrefresh =>
    exact .inr (sameWorkspaces_set hget (Workspace.outline_refresh hrefresh nofun))

/-! ## §4. Rejected commands -/

/-- A command that is rejected is answered with the status of its kind of failure, and its reply. -/
theorem answer_of_rejected (hwrites : framework.WritesTexts) (hreads : framework.ReadsCommands)
    {request : Request} {form : CommandRequest} {failure : Command.Failure}
    (hcall : framework.call? request = some (.runCommand id form)) (hget : store.get? id = some workspace)
    (hfailed : (Command.run workspace.project form.command).1 = .error failure) :
    ∃ status content, failureStatus? failure.kind = some status ∧
      framework.write (.value status (Command.Reply.toJson (.error failure))) = .ok content ∧
      (framework.answer parser newId store request).1 = .ok ⟨status, content⟩ := by
  obtain ⟨status, hstatus⟩ := (Command.run_of_error hfailed).2
  have htell := Command.isTellable_of_run (isTellable_command hreads hcall) hfailed
  obtain ⟨content, hcontent⟩ := hwrites (.value status (Command.Reply.toJson (.error failure)))
    (Command.isStandard_toJson_error failure) (Command.isEncodable_toJson_error htell ⟨status, hstatus⟩)
    (Nat.le_succ_of_le (Command.depth_toJson_error failure))
  refine ⟨status, content, hstatus, hcontent, ?_⟩
  have hhandle : (handle parser newId store (.runCommand id form)).1
      = .ok (.value status (Command.Reply.toJson (.error failure))) := by
    show (withWorkspace store id fun workspace => runCommand store id workspace form.command).1 = _
    unfold withWorkspace
    rw [hget]
    show handledReply (Command.run workspace.project form.command).1 = _
    rw [hfailed]
    unfold handledReply
    dsimp only
    rw [hstatus]
  rw [answer_of_call? hcall, hhandle]
  unfold Framework.respond
  dsimp only
  rw [hcontent]
  rfl

/-! ## §5. Behind every run -/

/-- The call has been carried out, but what the handler returns cannot be written down, since a text
in it holds half of a surrogate pair. -/
def Step.IsUntold (step : Step) : Prop :=
  ∃ outcome breakdown, step.handled? = some (.ok outcome) ∧ outcome.status < 400 ∧
    outcome.toJson.isEncodable = false ∧ step.answering = .error breakdown

/-- What a step does if it is refused. -/
structure Step.RefusesCleanly (framework : Framework) (step : Step) : Prop where
  /-- An error response changes no workspace, unless it stands for something that has been carried out
  and cannot be told. -/
  error : 400 ≤ status step.answering → SameWorkspaces step.before step.after ∨ step.IsUntold
  /-- There is a status for every failure of a command. -/
  hasStatus : ∀ kind, step.handled? ≠ some (.error (.noStatus kind))
  /-- A command that is rejected is answered with the status of its kind of failure, and its reply. -/
  command : ∀ id form workspace failure,
    framework.call? step.visit.request = some (.runCommand id form) →
    step.before.get? id = some workspace →
    (Command.run workspace.project form.command).1 = .error failure →
    ∃ status content, failureStatus? failure.kind = some status ∧
      framework.write (.value status (Command.Reply.toJson (.error failure))) = .ok content ∧
      step.answering = .ok ⟨status, content⟩

/-- What has been carried out is answered without an error, or it is untold. -/
theorem untold_of_isDone (hwrites : framework.WritesTexts) {tellable : Prop} {outcome : Outcome}
    (hdone : IsDone tellable outcome) (hstatus : 400 ≤ status (framework.respond (.ok outcome))) :
    outcome.toJson.isEncodable = false ∧
      ∃ breakdown, framework.respond (.ok outcome) = .error breakdown := by
  cases hwrite : framework.write outcome with
  | ok content =>
    have hlt := hdone.status_lt
    have hrespond : framework.respond (.ok outcome) = .ok ⟨outcome.status, content⟩ := by
      unfold Framework.respond
      dsimp only
      rw [hwrite]
      rfl
    rw [hrespond] at hstatus
    exact absurd hstatus (Nat.not_le.mpr hlt)
  | error breakdown =>
    refine ⟨?_, breakdown, ?_⟩
    · by_contra hencodable
      obtain ⟨content, hcontent⟩ := hwrites outcome hdone.isPlain
        (Bool.eq_true_of_not_eq_false hencodable) hdone.depth_le
      cases hwrite.symm.trans hcontent
    · unfold Framework.respond
      dsimp only
      rw [hwrite]
      rfl

/-- An error response changes no workspace, or it stands for something untold that has been carried
out, where not everything that has come before can be expressed in bytes. -/
theorem same_or_untold_stepOf (hwrites : framework.WritesTexts) (visit : Visit)
    (hstatus : 400 ≤ status (stepOf framework parser store visit).answering) :
    SameWorkspaces store (stepOf framework parser store visit).after ∨
      (stepOf framework parser store visit).IsUntold ∧
        ¬((∀ call, framework.call? visit.request = some call → call.IsTellable) ∧ store.IsTellable) := by
  rcases stepOf_cases framework parser store visit with
    ⟨-, -, hafter⟩ | ⟨call, handled, hcall, hhandled, hanswering, heffect⟩
  · rw [hafter]
    exact .inl (.refl store)
  · rcases effect_done_or_same heffect with ⟨outcome, rfl, hdone⟩ | hsame
    · rw [hanswering] at hstatus
      obtain ⟨hencodable, breakdown, hbreakdown⟩ := untold_of_isDone hwrites hdone hstatus
      refine .inr ⟨⟨outcome, breakdown, hhandled, hdone.status_lt, hencodable, hanswering.trans hbreakdown⟩, ?_⟩
      rintro ⟨hcalls, hstore⟩
      have htold := hdone.isEncodable ⟨hcalls call hcall, hstore⟩
      rw [hencodable] at htold
      cases htold
    · exact .inl hsame

theorem ne_noStatus_of_effect (h : Effect parser newId store call handled after)
    (kind : Command.FailureKind) : handled ≠ .error (.noStatus kind) := by
  cases h with
  | nothing hordinary => exact hordinary.ne_noStatus kind
  | @commanded id request workspace reply project hget hrun =>
    unfold handledReply
    cases reply with
    | ok answer => exact nofun
    | error failure =>
      have hfailed : (Command.run workspace.project request.command).1 = .error failure := by rw [hrun]
      obtain ⟨status, hstatus⟩ := (Command.run_of_error hfailed).2
      dsimp only
      rw [hstatus]
      exact nofun
  | @shown _ _ _ _ _ result =>
    unfold handledBuild
    split <;> exact nofun
  | _ => exact nofun

theorem refusesCleanly_stepOf (hwrites : framework.WritesTexts) (hreads : framework.ReadsCommands)
    (parser : Parser) (store : Store) (visit : Visit) :
    (stepOf framework parser store visit).RefusesCleanly framework := by
  refine ⟨fun hstatus => ?_, fun kind hkind => ?_, fun id form workspace failure hcall hget hfailed => ?_⟩
  · exact (same_or_untold_stepOf hwrites visit hstatus).imp_right And.left
  · rcases stepOf_cases framework parser store visit with
      ⟨-, hnone, -⟩ | ⟨call, handled, -, hhandled, -, heffect⟩
    · rw [hnone] at hkind
      cases hkind
    · exact ne_noStatus_of_effect heffect kind (Option.some.inj (hhandled.symm.trans hkind))
  · exact answer_of_rejected hwrites hreads hcall hget hfailed

/-- In a run of calls whose texts can be expressed in bytes, all paths can be, too. -/
theorem isTellable_of_run {start : Store} {visits : List Visit} (hstart : start.IsTellable)
    (hcalls : ∀ visit ∈ visits, ∀ call, framework.call? visit.request = some call → call.IsTellable) :
    ∀ step ∈ steps framework parser start visits, step.before.IsTellable := by
  have hstep : ∀ store visit, store.IsTellable →
      (∀ call, framework.call? visit.request = some call → call.IsTellable) →
      (stepOf framework parser store visit).after.IsTellable := by
    intro store visit hstore hcalls
    rcases stepOf_cases framework parser store visit with
      ⟨-, -, hafter⟩ | ⟨call, handled, hcall, -, -, heffect⟩
    · rw [hafter]
      exact hstore
    · exact isTellable_of_effect heffect (hcalls call hcall) hstore
  exact (forall_of_steps hstep hstart fun step hmem => hcalls _ (visit_mem_of_mem hmem)).1

/-- In every run of requests: an error response changes no workspace unless it stands for something
that has been carried out and cannot be told, which does not happen where all texts that come with
requests can be expressed in bytes; and every command that is rejected is answered with the status of
its kind of failure. -/
theorem refusesCleanly_of_run {framework : Framework} (hwrites : framework.WritesTexts)
    (hreads : framework.ReadsCommands) (parser : Parser) (start : Store) (visits : List Visit) :
    (∀ step ∈ steps framework parser start visits, step.RefusesCleanly framework) ∧
      (start.IsTellable →
        (∀ visit ∈ visits, ∀ call fields, framework.call? visit.request = some call →
          call.object? = some fields → Json.areEncodableFields fields = true) →
        ∀ step ∈ steps framework parser start visits, 400 ≤ status step.answering →
          SameWorkspaces step.before step.after) := by
  refine ⟨fun step hmem => ?_, fun hstart hobjects step hmem hstatus => ?_⟩
  · rw [eq_stepOf_of_mem hmem]
    exact refusesCleanly_stepOf hwrites hreads parser step.before step.visit
  · have hcalls : ∀ visit ∈ visits, ∀ call, framework.call? visit.request = some call →
        call.IsTellable := by
      rintro visit hvisit call hcall
      refine ⟨fun fields => hobjects visit hvisit call fields hcall, ?_⟩
      rintro id form rfl
      exact isTellable_command hreads hcall
    have hbefore := isTellable_of_run hstart hcalls step hmem
    rw [eq_stepOf_of_mem hmem] at hstatus ⊢
    refine (same_or_untold_stepOf hwrites step.visit hstatus).resolve_right fun huntold => ?_
    exact huntold.2 ⟨hcalls _ (visit_mem_of_mem hmem), hbefore⟩

/-! ## §6. Half of a surrogate pair -/

/-- The visit that reads a file that is not there. -/
def missingVisit : Visit :=
  ⟨"", { method := "POST", target := "/api/workspaces/w/commands",
         body := "\x7b\"op\": \"read_file\", \"path\": \"/a.js\"\x7d" }⟩

/-- The visit that puts the tree of a snapshot in place of an empty one.  The text of the one file is
half of a surrogate pair. -/
def halfVisit : Visit :=
  ⟨"", { method := "PUT", target := "/api/workspaces/w/snapshot", body :=
    "\x7b\"snapshot\": \x7b\"/\": \x7b\"kind\": \"directory\"\x7d, " ++
      "\"/a.js\": \x7b\"kind\": \"file\", \"content\": \"\\ud800\"\x7d\x7d\x7d" }⟩

def halfFramework : Framework :=
  .told [((Visit.creation "w").request, .createWorkspace none),
    (missingVisit.request, .runCommand "w" { op := "read_file", path := "/a.js" }),
    (halfVisit.request, .replaceSnapshot "w" [("/", .object [("kind", .text "directory")]),
      ("/a.js", .object [("kind", .text "file"), ("content", .text ⟨[.half 0]⟩)])])]

theorem readsCommands_half : halfFramework.ReadsCommands := by
  refine readsCommands_told ?_
  rw [List.forall_mem_cons, List.forall_mem_cons, List.forall_mem_singleton]
  refine ⟨nofun, fun id form heq => ?_, nofun⟩
  cases heq
  exact ⟨by decide +kernel, nofun⟩

/-- The step in which the file is looked for. -/
def missingStep : Step :=
  stepOf halfFramework (Lowering.parserOf []) (behind halfFramework (Lowering.parserOf []) {} [.creation "w"])
    missingVisit

/-- The step in which the snapshot is put in place. -/
def halfStep : Step :=
  stepOf halfFramework (Lowering.parserOf [])
    (behind halfFramework (Lowering.parserOf []) {} [.creation "w", missingVisit]) halfVisit

theorem halfStep_mem :
    halfStep ∈ steps halfFramework (Lowering.parserOf []) {} [.creation "w", missingVisit, halfVisit] :=
  List.mem_cons_of_mem _ (List.mem_cons_of_mem _ List.mem_cons_self)

theorem status_halfStep : status halfStep.answering = 500 := by
  decide +kernel

/-- The workspace has a new tree behind it. -/
theorem not_same_halfStep : ¬SameWorkspaces halfStep.before halfStep.after := by
  intro hsame
  have hrevision := congrArg (Option.map fun outline => outline.2.1) (hsame.outline "w")
  revert hrevision
  decide +kernel

/-- An error response, and a workspace that has changed. -/
theorem not_sameWorkspaces_of_half :
    halfFramework.WritesTexts ∧ halfFramework.ReadsCommands ∧
      ∃ step ∈ steps halfFramework (Lowering.parserOf []) {} [.creation "w", missingVisit, halfVisit],
        400 ≤ status step.answering ∧ ¬SameWorkspaces step.before step.after := by
  refine ⟨writesTexts_told _, readsCommands_half, halfStep, halfStep_mem, ?_, not_same_halfStep⟩
  rw [status_halfStep]
  decide

/-- The file that is not there changes nothing; the snapshot is put in place and cannot be told. -/
theorem refusesCleanly_of_run_half :
    (status missingStep.answering = 404 ∧ SameWorkspaces missingStep.before missingStep.after) ∧
      status halfStep.answering = 500 ∧ halfStep.IsUntold := by
  have hwrites : halfFramework.WritesTexts := writesTexts_told _
  have hencodable : ∀ visit ∈ [.creation "w", missingVisit], ∀ call fields,
      halfFramework.call? visit.request = some call → call.object? = some fields →
        Json.areEncodableFields fields = true := by
    rw [List.forall_mem_cons, List.forall_mem_singleton]
    refine ⟨fun call fields hcall hobject => ?_, fun call fields hcall hobject => ?_⟩
    · have hnone : halfFramework.call? (Visit.creation "w").request = some (.createWorkspace none) := rfl
      cases hnone.symm.trans hcall
      cases hobject
    · have hcommand : halfFramework.call? missingVisit.request
          = some (.runCommand "w" { op := "read_file", path := "/a.js" }) := rfl
      cases hcommand.symm.trans hcall
      cases hobject
  have hmissing : status missingStep.answering = 404 := by decide +kernel
  have hsame := (refusesCleanly_of_run hwrites readsCommands_half (Lowering.parserOf []) {}
    [.creation "w", missingVisit]).2 Workspace.Store.isTellable_default hencodable missingStep
    (List.mem_cons_of_mem _ List.mem_cons_self) (by rw [hmissing]; decide)
  have hclean := (refusesCleanly_of_run hwrites readsCommands_half (Lowering.parserOf []) {}
    [.creation "w", missingVisit, halfVisit]).1 halfStep halfStep_mem
  refine ⟨⟨hmissing, hsame⟩, status_halfStep, (hclean.error ?_).resolve_left not_same_halfStep⟩
  rw [status_halfStep]
  decide

end Http

end LivePreview
