/-
  LivePreview.Proofs.Http.Isolation
  ─────────────────────────────────
  **Workspaces do not affect one another.**

  A call is about the workspace that it names, or about the one that it is to create
  (`Visit.subject?`).  It leaves every other workspace as it is, whatever it asks for
  (`only_of_subject?_ne`).  And it is answered from the part of the store that holds its
  workspace alone (`stepOf_only`), unless the whole store has no room for a new one.  So
  the visits of a run that are about one workspace are a run of their own, with the same
  answers (`exchanges_own`).

  A store never holds more workspaces than it may, and a workspace stays in it until it
  is deleted.  As long as no build breaks down all workspaces are kept in order, so that
  each of them leaves no trace when it is closed: the one that is deleted, and all of
  them when the store is cleared (`Closes`).
-/
import LivePreview.Proofs.Http.Effect
import LivePreview.Proofs.Preview.Spelling
import LivePreview.Proofs.Workspace.Keeping

namespace LivePreview.Http

open LivePreview.Lowering (Parser)
open LivePreview.Workspace (Store)

/-! ## §1. What a visit is about -/

/-- The workspace that a call is about: the one that it names, or the new one. -/
def Call.subject? (newId : String) : Call → Option String
  | .checkHealth => none
  | .createWorkspace _ => some newId
  | .deleteWorkspace id | .listFiles id | .readSnapshot id | .replaceSnapshot id _ | .runCommand id _
  | .callTool id _ _ | .showPreview id _ => some id

/-- The workspace that a visit is about. -/
def Visit.subject? (framework : Framework) (visit : Visit) : Option String :=
  (framework.call? visit.request).bind (Call.subject? visit.newId)

variable {framework : Framework} {parser : Parser} {newId id : String} {store after : Store} {call : Call}
  {handled : Handled} {visits : List Visit}

/-! ## §2. Other workspaces -/

/-- **A call leaves every workspace that it is not about as it is.** -/
theorem only_of_subject?_ne (h : Effect parser newId store call handled after)
    (hother : call.subject? newId ≠ some id) : after.only id = store.only id := by
  have hne : ∀ {other : String}, some other ≠ some id → id ≠ other :=
    fun hother heq => hother (congrArg some heq.symm)
  cases h with
  | nothing => rfl
  | @created snapshot? workspace after hcreate =>
    have hafter : after = (store.create newId (snapshot?.map .ofFields)).2 := by rw [hcreate]
    rw [hafter]
    exact Workspace.Store.only_create_of_ne (hne hother)
  | @deleted other closed after hdelete =>
    have hafter : after = (store.delete other).2 := by rw [hdelete]
    rw [hafter]
    exact Workspace.Store.only_delete_of_ne (hne hother)
  | replaced => exact Workspace.Store.only_set_of_ne (hne hother)
  | commanded => exact Workspace.Store.only_set_of_ne (hne hother)
  | called => exact Workspace.Store.only_set_of_ne (hne hother)
  | shown => exact Workspace.Store.only_set_of_ne (hne hother)
  | brokeDown => exact Workspace.Store.only_set_of_ne (hne hother)

theorem only_stepOf_of_subject?_ne {visit : Visit} (hother : visit.subject? framework ≠ some id) :
    (stepOf framework parser store visit).after.only id = store.only id := by
  rcases stepOf_cases framework parser store visit with
    ⟨-, -, hafter⟩ | ⟨call, handled, hcall, -, -, heffect⟩
  · rw [hafter]
  · unfold Visit.subject? at hother
    rw [hcall] at hother
    exact only_of_subject?_ne heffect hother

/-! ## §3. The workspace itself -/

/-- The handler comes to the same from the part of the store with an id as from the whole store. -/
def IsLocal (store : Store) (id : String) (f : Store → Handled × Store) : Prop :=
  f (store.only id) = ((f store).1, (f store).2.only id)

theorem isLocal_const (handled : Handled) : IsLocal store id fun store => (handled, store) :=
  rfl

theorem isLocal_set (handled : Handled) (workspace : Workspace) :
    IsLocal store id fun store => (handled, store.set id workspace) := by
  unfold IsLocal
  rw [Workspace.Store.only_set_self]

theorem isLocal_withWorkspace {f : Store → Workspace → Handled × Store}
    (hf : ∀ workspace, IsLocal store id (f · workspace)) :
    IsLocal store id fun store => withWorkspace store id (f store) := by
  unfold IsLocal withWorkspace
  dsimp only
  rw [Workspace.Store.get?_only]
  cases store.get? id with
  | none => rfl
  | some workspace => exact hf workspace

theorem isLocal_deleteWorkspace : IsLocal store id (deleteWorkspace · id) := by
  unfold IsLocal deleteWorkspace
  dsimp only
  rw [Workspace.Store.delete_only]
  rcases store.delete id with ⟨_ | closed, after⟩ <;> rfl

theorem isLocal_replaceSnapshot (workspace : Workspace) (snapshot : Tree.Snapshot) :
    IsLocal store id (replaceSnapshot · id workspace snapshot) := by
  unfold IsLocal replaceSnapshot
  split
  · exact isLocal_set _ _
  · rfl

theorem isLocal_callTool (workspace : Workspace) (name : String) (arguments : Json.Fields) :
    IsLocal store id (callTool · id name workspace arguments) := by
  unfold IsLocal callTool
  split
  · rfl
  · split
    · rfl
    · dsimp only
      split
      · exact isLocal_set _ _
      · exact isLocal_set _ _

theorem isLocal_showPreview (workspace : Workspace) (wanted? : Option Text) :
    IsLocal store id (showPreview parser · id workspace wanted?) := by
  unfold IsLocal showPreview Workspace.Store.preview
  dsimp only
  have hentry : (store.only id).entryFor workspace wanted? = store.entryFor workspace wanted? := rfl
  rw [hentry]
  rcases workspace.refresh parser (store.entryFor workspace wanted?) with ⟨breakdown | result, after⟩
  · exact isLocal_set _ _
  · exact isLocal_set _ _

/-- The handler refuses to create a workspace for want of room. -/
def isFull : Handled → Bool
  | .ok (.refused 429 _) => true
  | _ => false

theorem isFull_createWorkspace (snapshot? : Option Json.Fields)
    (hfull : ¬(store.workspaces.length : Int) < store.limit) :
    isFull (createWorkspace store newId snapshot?).1 = true := by
  unfold createWorkspace Workspace.Store.create
  rw [if_pos (Int.not_lt.mp hfull)]
  rfl

theorem isLocal_createWorkspace (snapshot? : Option Json.Fields)
    (hroom : isFull (createWorkspace store id snapshot?).1 = false) :
    IsLocal store id (createWorkspace · id snapshot?) := by
  have hlimit : (store.workspaces.length : Int) < store.limit := by
    by_contra hfull
    rw [isFull_createWorkspace snapshot? hfull] at hroom
    cases hroom
  unfold IsLocal createWorkspace
  dsimp only
  rw [Workspace.Store.create_only hlimit]
  rcases store.create id (snapshot?.map .ofFields) with ⟨(limit | error) | workspace, after⟩ <;> rfl

/-- A call that is about a workspace is handled in the same way where there is no other one. -/
theorem isLocal_handle (hsubject : call.subject? newId = some id)
    (hroom : isFull (handle parser newId store call).1 = false) :
    IsLocal store id (handle parser newId · call) := by
  cases call with
  | checkHealth => cases hsubject
  | createWorkspace snapshot? =>
    cases hsubject
    exact isLocal_createWorkspace snapshot? hroom
  | deleteWorkspace other =>
    cases hsubject
    exact isLocal_deleteWorkspace
  | listFiles other =>
    cases hsubject
    exact isLocal_withWorkspace fun workspace => isLocal_const _
  | readSnapshot other =>
    cases hsubject
    exact isLocal_withWorkspace fun workspace => isLocal_const _
  | replaceSnapshot other fields =>
    cases hsubject
    exact isLocal_withWorkspace fun workspace => isLocal_replaceSnapshot workspace _
  | runCommand other request =>
    cases hsubject
    exact isLocal_withWorkspace fun workspace => isLocal_set _ _
  | callTool other name arguments =>
    cases hsubject
    exact isLocal_withWorkspace fun workspace => isLocal_callTool workspace name arguments
  | showPreview other wanted? =>
    cases hsubject
    exact isLocal_withWorkspace fun workspace => isLocal_showPreview workspace _

/-! ## §4. Runs -/

/-- A visit, and what is answered. -/
def Step.exchange (step : Step) : Visit × Answering :=
  (step.visit, step.answering)

/-- The step is about the workspace with an id.  A visit that would have created it and has found no
room is about none. -/
def Step.isAbout (framework : Framework) (id : String) (step : Step) : Bool :=
  step.visit.subject? framework == some id && !step.handled?.any isFull

/-- A visit that is about a workspace is made in the same way where there is no other one. -/
theorem stepOf_only {visit : Visit}
    (habout : (stepOf framework parser store visit).isAbout framework id = true) :
    (stepOf framework parser (store.only id) visit).exchange
        = (stepOf framework parser store visit).exchange ∧
      (stepOf framework parser (store.only id) visit).after
        = (stepOf framework parser store visit).after.only id := by
  obtain ⟨hsubject, hroom⟩ := Bool.and_eq_true_iff.mp habout
  obtain ⟨call, hcall, hsubject⟩ := Option.bind_eq_some_iff.mp (beq_iff_eq.mp hsubject)
  have hcall : framework.call? visit.request = some call := hcall
  have hroom : isFull (handle parser visit.newId store call).1 = false := by
    unfold stepOf at hroom
    dsimp only at hroom
    rw [hcall, Option.map_some, Option.any_some] at hroom
    exact Bool.not_eq_true' _ ▸ hroom
  have hlocal : handle parser visit.newId (store.only id) call = _ := isLocal_handle hsubject hroom
  unfold stepOf Step.exchange
  dsimp only
  rw [answer_of_call? hcall, answer_of_call? hcall, hlocal]
  exact ⟨rfl, rfl⟩

/-- A visit that finds no room leaves the store as it is. -/
theorem after_eq_of_isFull (h : Effect parser newId store call handled after)
    (hfull : isFull handled = true) : after = store := by
  cases h with
  | nothing => rfl
  | created => cases hfull
  | deleted => cases hfull
  | replaced => cases hfull
  | @commanded _ _ _ reply =>
    unfold handledReply at hfull
    split at hfull
    · cases hfull
    · split at hfull <;> cases hfull
  | called => cases hfull
  | shown =>
    unfold handledBuild at hfull
    split at hfull <;> cases hfull
  | brokeDown => cases hfull

/-- A visit leaves the part of the store with an id as it is if it is not about that workspace. -/
theorem only_stepOf_of_not_isAbout {visit : Visit}
    (hother : ¬(stepOf framework parser store visit).isAbout framework id = true) :
    (stepOf framework parser store visit).after.only id = store.only id := by
  by_cases hsubject : visit.subject? framework = some id
  · rcases stepOf_cases framework parser store visit with
      ⟨-, -, hafter⟩ | ⟨call, handled, -, hhandled, -, heffect⟩
    · rw [hafter]
    · have hfull : isFull handled = true := by
        by_contra hroom
        refine hother (Bool.and_eq_true_iff.mpr ⟨beq_iff_eq.mpr hsubject, ?_⟩)
        rw [hhandled, Option.any_some, Bool.eq_false_iff.mpr hroom]
        rfl
      rw [after_eq_of_isFull heffect hfull]
  · exact only_stepOf_of_subject?_ne hsubject

/-- The steps of a run that are about the workspace with an id. -/
def ownSteps (framework : Framework) (parser : Parser) (store : Store) (visits : List Visit)
    (id : String) : List Step :=
  (steps framework parser store visits).filter (·.isAbout framework id)

/-- **The visits that are about one workspace are a run of their own, with the same answers.** -/
theorem exchanges_own (framework : Framework) (parser : Parser) (store : Store) (visits : List Visit)
    (id : String) :
    (steps framework parser (store.only id)
          ((ownSteps framework parser store visits id).map Step.visit)).map Step.exchange
        = (ownSteps framework parser store visits id).map Step.exchange ∧
      behind framework parser (store.only id)
          ((ownSteps framework parser store visits id).map Step.visit)
        = (behind framework parser store visits).only id := by
  induction visits generalizing store with
  | nil => exact ⟨rfl, rfl⟩
  | cons visit visits ih =>
    obtain ⟨hexchanges, hbehind⟩ := ih (stepOf framework parser store visit).after
    have hcons : ownSteps framework parser store (visit :: visits) id =
        if (stepOf framework parser store visit).isAbout framework id then
          stepOf framework parser store visit
            :: ownSteps framework parser (stepOf framework parser store visit).after visits id
        else ownSteps framework parser (stepOf framework parser store visit).after visits id := by
      unfold ownSteps
      rw [steps, List.filter_cons]
    rw [hcons]
    split
    · next hown =>
      obtain ⟨hexchange, hafter⟩ := stepOf_only hown
      rw [← hafter] at hexchanges hbehind
      rw [List.map_cons, List.map_cons, steps, List.map_cons]
      exact ⟨congrArg₂ List.cons hexchange hexchanges, hbehind⟩
    · next hother =>
      rw [only_stepOf_of_not_isAbout hother] at hexchanges hbehind
      exact ⟨hexchanges, hbehind⟩

/-! ## §5. Room and reach -/

/-- A visit never makes the store hold more workspaces than it may, if it did not before. -/
theorem length_le_of_effect (h : Effect parser newId store call handled after) :
    after.limit = store.limit ∧
      (after.workspaces.length : Int) ≤ max store.limit store.workspaces.length := by
  have hset : ∀ (id : String) (workspace : Workspace), (store.set id workspace).workspaces.length
      = store.workspaces.length := fun _ _ => List.length_map _
  cases h with
  | nothing => exact ⟨rfl, Int.le_max_right _ _⟩
  | created hcreate =>
    obtain ⟨hroom, project, -, -, rfl⟩ := Workspace.Store.create_eq_ok hcreate
    refine ⟨rfl, Int.le_trans ?_ (Int.le_max_left _ _)⟩
    dsimp only
    rw [List.length_append, List.length_singleton]
    exact Int.add_one_le_of_lt hroom
  | deleted hdelete =>
    obtain ⟨workspace, -, -, rfl⟩ := Workspace.Store.delete_eq_some hdelete
    refine ⟨rfl, Int.le_trans ?_ (Int.le_max_right _ _)⟩
    exact Int.ofNat_le.mpr (List.length_filter_le _ _)
  | replaced => exact ⟨rfl, by rw [hset]; exact Int.le_max_right _ _⟩
  | commanded => exact ⟨rfl, by rw [hset]; exact Int.le_max_right _ _⟩
  | called => exact ⟨rfl, by rw [hset]; exact Int.le_max_right _ _⟩
  | shown => exact ⟨rfl, by rw [hset]; exact Int.le_max_right _ _⟩
  | brokeDown => exact ⟨rfl, by rw [hset]; exact Int.le_max_right _ _⟩

/-- A workspace stays in the store unless it is deleted. -/
theorem isSome_get?_of_effect (h : Effect parser newId store call handled after)
    (hkeeps : call ≠ .deleteWorkspace id) (hget : (store.get? id).isSome = true) :
    (after.get? id).isSome = true := by
  cases h with
  | nothing => exact hget
  | @created snapshot? workspace after hcreate =>
    have hafter : after = (store.create newId (snapshot?.map .ofFields)).2 := by rw [hcreate]
    rw [hafter]
    exact Workspace.Store.isSome_get?_create_of_isSome hget
  | @deleted other closed after hdelete =>
    have hafter : after = (store.delete other).2 := by rw [hdelete]
    have hne : id ≠ other := fun heq => hkeeps (by rw [heq])
    rw [hafter, Workspace.Store.get?_eq_of_only (Workspace.Store.only_delete_of_ne hne)]
    exact hget
  | replaced => exact Workspace.Store.isSome_get?_set hget
  | commanded => exact Workspace.Store.isSome_get?_set hget
  | called => exact Workspace.Store.isSome_get?_set hget
  | shown => exact Workspace.Store.isSome_get?_set hget
  | brokeDown => exact Workspace.Store.isSome_get?_set hget

theorem isSome_get?_behind
    (hkeeps : ∀ visit ∈ visits, framework.call? visit.request ≠ some (.deleteWorkspace id))
    (hget : (store.get? id).isSome = true) :
    ((behind framework parser store visits).get? id).isSome = true := by
  induction visits generalizing store with
  | nil => exact hget
  | cons visit visits ih =>
    rw [List.forall_mem_cons] at hkeeps
    refine ih hkeeps.2 (?_ : ((stepOf framework parser store visit).after.get? id).isSome = true)
    rcases stepOf_cases framework parser store visit with
      ⟨-, -, hafter⟩ | ⟨call, handled, hcall, -, -, heffect⟩
    · rw [hafter]
      exact hget
    · exact isSome_get?_of_effect heffect (fun heq => hkeeps.1 (hcall.trans (congrArg some heq))) hget

/-- What reports a new workspace has created one, and reports that one if its id is new. -/
theorem get?_of_created {report : Report} (h : Effect parser newId store call handled after)
    (hreport : handled = .ok (.report 201 report)) :
    (after.get? newId).isSome = true ∧
      (store.get? newId = none → ∃ workspace, after.get? newId = some workspace ∧
        report = summary newId workspace) := by
  cases h with
  | nothing hordinary => exact absurd hreport (hordinary.ne_created report)
  | @created snapshot? workspace after hcreate =>
    refine ⟨Workspace.Store.isSome_get?_create hcreate, fun hnew => ⟨workspace, ?_, ?_⟩⟩
    · exact Workspace.Store.get?_create hnew hcreate
    · cases hreport
      rfl
  | deleted => cases hreport
  | replaced => cases hreport
  | @commanded _ _ _ reply =>
    unfold handledReply at hreport
    split at hreport
    · cases hreport
    · split at hreport <;> cases hreport
  | called => cases hreport
  | shown =>
    unfold handledBuild at hreport
    split at hreport <;> cases hreport
  | brokeDown => cases hreport

/-! ## §6. Workspaces in order -/

/-- Every workspace of the store is kept in order. -/
def AllKept (store : Store) : Prop :=
  ∀ entry ∈ store.workspaces, entry.2.IsKept

/-- Nobody listens to the project that a new workspace starts with. -/
theorem listeners_of_seed {snapshot? : Option Tree.Snapshot} {project : Project}
    (hok : Workspace.Store.seed snapshot? = .ok project) : project.listeners = [] := by
  cases snapshot? with
  | none =>
    cases hok
    rfl
  | some snapshot =>
    obtain ⟨tree, -, rfl⟩ := Result.map_eq_ok_iff.mp hok
    rfl

/-- As long as no build breaks down, all workspaces are kept in order. -/
theorem AllKept.of_effect (hkept : AllKept store) (h : Effect parser newId store call handled after)
    (hbuilt : ∀ breakdown, handled ≠ .error (.preview breakdown)) : AllKept after := by
  cases h with
  | nothing => exact hkept
  | created hcreate =>
    obtain ⟨-, project, hseed, rfl, rfl⟩ := Workspace.Store.create_eq_ok hcreate
    intro entry hmem
    rcases List.mem_append.mp hmem with hmem | hmem
    · exact hkept entry hmem
    · obtain rfl := List.mem_singleton.mp hmem
      exact Workspace.isKept_start (listeners_of_seed hseed) {} store.config
  | deleted hdelete =>
    obtain ⟨workspace, -, -, rfl⟩ := Workspace.Store.delete_eq_some hdelete
    exact fun entry hmem => hkept entry (List.mem_of_mem_filter hmem)
  | replaced hget hreplace =>
    refine Workspace.Store.forall_set hkept ?_
    rw [Workspace.eq_of_edit hreplace]
    exact (Workspace.Store.forall_get? hkept hget).withProject (Project.listeners_edit _ _)
  | @commanded id request workspace reply project hget hrun =>
    refine Workspace.Store.forall_set hkept ?_
    have hproject : project = (Command.run workspace.project request.command).2 := by rw [hrun]
    rw [hproject]
    exact (Workspace.Store.forall_get? hkept hget).withProject (Command.listeners_run _ _)
  | called hget hcall =>
    refine Workspace.Store.forall_set hkept ?_
    rw [← Tool.behind_of_call hcall]
    exact (Workspace.Store.forall_get? hkept hget).withProject (Tool.listeners_behind _ _ _)
  | shown hget hrefresh =>
    exact Workspace.Store.forall_set hkept ((Workspace.Store.forall_get? hkept hget).refresh hrefresh)
  | brokeDown => exact absurd rfl (hbuilt _)

/-- No build breaks down in the step. -/
def Step.IsBuilt (step : Step) : Prop :=
  ∀ breakdown, step.handled? ≠ some (.error (.preview breakdown))

/-- A step of a run that is not answered with an internal error is one. -/
theorem isBuilt_of_status {step : Step} (hmem : step ∈ steps framework parser store visits)
    (hstatus : status step.answering ≠ 500) : step.IsBuilt := by
  intro breakdown hbroken
  rw [eq_stepOf_of_mem hmem] at hstatus hbroken
  rcases stepOf_cases framework parser step.before step.visit with
    ⟨-, hnone, -⟩ | ⟨call, handled, -, hhandled, hanswering, -⟩
  · rw [hnone] at hbroken
    cases hbroken
  · cases hhandled.symm.trans hbroken
    rw [hanswering] at hstatus
    exact hstatus rfl

theorem AllKept.stepOf (hkept : AllKept store) {visit : Visit}
    (hbuilt : (stepOf framework parser store visit).IsBuilt) :
    AllKept (stepOf framework parser store visit).after := by
  rcases stepOf_cases framework parser store visit with
    ⟨-, -, hafter⟩ | ⟨call, handled, -, hhandled, -, heffect⟩
  · rw [hafter]
    exact hkept
  · refine hkept.of_effect heffect fun breakdown heq => hbuilt breakdown ?_
    rw [hhandled, heq]

/-- A workspace of the store that is deleted is closed without a trace, and the store does not have it
any more; and when the store is cleared this happens to all of them. -/
structure Closes (store : Store) : Prop where
  delete : ∀ id workspace, store.get? id = some workspace → workspace.close.IsClosed ∧
    ∃ after, store.delete id = (some workspace.close, after) ∧ after.get? id = none
  clear : store.clear.1 = store.workspaces.map (fun entry => entry.2.close) ∧
    (∀ closed ∈ store.clear.1, closed.IsClosed) ∧ store.clear.2.workspaces = []

theorem AllKept.closes (hkept : AllKept store) : Closes store := by
  refine ⟨fun id workspace hget => ⟨?_, ?_⟩, rfl, fun closed hclosed => ?_, rfl⟩
  · exact (Workspace.Store.forall_get? hkept hget).isClosed
  · refine ⟨(store.delete id).2, ?_, Workspace.Store.get?_delete_self store id⟩
    unfold Store.delete
    rw [hget]
  · obtain ⟨entry, hentry, rfl⟩ := List.mem_map.mp hclosed
    exact (hkept entry hentry).isClosed

/-! ## §7. Behind every run -/

/-- How the workspaces of a run stand to one another. -/
structure Isolated (framework : Framework) (parser : Parser) (start : Store) (visits : List Visit) :
    Prop where
  /-- The store never holds more workspaces than it may. -/
  capped : ∀ step ∈ steps framework parser start visits,
    (step.after.workspaces.length : Int) ≤ max 0 start.limit
  /-- A workspace that is reported as a new one is in the store, and it is the one that is found under
  its id if the id is new. -/
  created : ∀ step ∈ steps framework parser start visits, ∀ report,
    step.handled? = some (.ok (.report 201 report)) →
      (step.after.get? step.visit.newId).isSome = true ∧
        (step.before.get? step.visit.newId = none →
          ∃ workspace, step.after.get? step.visit.newId = some workspace ∧
            report = summary step.visit.newId workspace)
  /-- A workspace stays in the store until it is deleted. -/
  stays : ∀ earlier later id, visits = earlier ++ later →
    ((behind framework parser start earlier).get? id).isSome = true →
    (∀ visit ∈ later, framework.call? visit.request ≠ some (.deleteWorkspace id)) →
    ((behind framework parser start visits).get? id).isSome = true
  /-- A visit leaves every workspace that it is not about exactly as it is. -/
  apart : ∀ step ∈ steps framework parser start visits, ∀ id, step.visit.subject? framework ≠ some id →
    step.after.get? id = step.before.get? id
  /-- The visits that are about one workspace have the answers that they have on their own, and they
  leave the workspace behind that they leave behind on their own. -/
  projected : ∀ id,
    (steps framework parser start
          ((ownSteps framework parser start visits id).map Step.visit)).map Step.exchange
        = (ownSteps framework parser start visits id).map Step.exchange ∧
      (behind framework parser start ((ownSteps framework parser start visits id).map Step.visit)).get? id
        = (behind framework parser start visits).get? id
  /-- If no build breaks down, a visit that deletes a workspace takes it out of the store and closes it:
  it has no live reference then, and its module cache does not listen any more. -/
  deleted : (∀ step ∈ steps framework parser start visits, step.IsBuilt) →
    ∀ step ∈ steps framework parser start visits, ∀ id workspace,
      framework.call? step.visit.request = some (.deleteWorkspace id) →
      step.before.get? id = some workspace →
      step.handled? = some (respond 200 .deleted) ∧
        step.before.delete id = (some workspace.close, step.after) ∧ workspace.close.IsClosed ∧
        step.after.get? id = none
  /-- The same holds behind the run of every workspace that is deleted, and of all of them when the
  store is cleared. -/
  closes : (∀ step ∈ steps framework parser start visits, step.IsBuilt) →
    Closes (behind framework parser start visits)

theorem length_le_stepOf (framework : Framework) (parser : Parser) (store : Store) (visit : Visit) :
    (stepOf framework parser store visit).after.limit = store.limit ∧
      ((stepOf framework parser store visit).after.workspaces.length : Int)
        ≤ max store.limit store.workspaces.length := by
  rcases stepOf_cases framework parser store visit with
    ⟨-, -, hafter⟩ | ⟨call, handled, -, -, -, heffect⟩
  · rw [hafter]
    exact ⟨rfl, Int.le_max_right _ _⟩
  · exact length_le_of_effect heffect

theorem allKept_of_run {start : Store} (hstart : start.workspaces = [])
    (hbuilt : ∀ step ∈ steps framework parser start visits, step.IsBuilt) :
    (∀ step ∈ steps framework parser start visits, AllKept step.before) ∧
      AllKept (behind framework parser start visits) := by
  have hempty : AllKept start := by
    unfold AllKept
    rw [hstart]
    exact nofun
  exact forall_of_steps (fun store visit hkept => hkept.stepOf) hempty hbuilt

/-- A visit that deletes a workspace of a store that is kept in order. -/
theorem stepOf_deleteWorkspace (parser : Parser) {visit : Visit} {workspace : Workspace} (hkept : AllKept store)
    (hcall : framework.call? visit.request = some (.deleteWorkspace id))
    (hget : store.get? id = some workspace) :
    (stepOf framework parser store visit).handled? = some (respond 200 .deleted) ∧
      store.delete id = (some workspace.close, (stepOf framework parser store visit).after) ∧
      workspace.close.IsClosed ∧ (stepOf framework parser store visit).after.get? id = none := by
  obtain ⟨hclosed, after, hdelete, hnone⟩ := hkept.closes.delete id workspace hget
  have hhandle : handle parser visit.newId store (.deleteWorkspace id) = (respond 200 .deleted, after) := by
    show deleteWorkspace store id = _
    unfold deleteWorkspace
    rw [hdelete]
  unfold stepOf
  dsimp only
  rw [answer_of_call? hcall, hcall, Option.map_some, hhandle]
  exact ⟨rfl, hdelete, hclosed, hnone⟩

/-- In every run of requests on a store that starts without workspaces, the workspaces do not affect
one another, there are never too many of them, and each of them is closed without a trace when it
leaves the store. -/
theorem isolated_of_run (framework : Framework) (parser : Parser) {start : Store}
    (hstart : start.workspaces = []) (visits : List Visit) :
    Isolated framework parser start visits := by
  refine ⟨fun step hmem => ?_, fun step hmem report hreport => ?_, ?_, fun step hmem id hother => ?_,
    fun id => ?_, fun hbuilt step hmem id workspace hcall hget => ?_,
    fun hbuilt => (allKept_of_run hstart hbuilt).2.closes⟩
  · -- the limit never changes, and a workspace is created only below it
    have hstep : ∀ store visit,
        (store.limit = start.limit ∧ (store.workspaces.length : Int) ≤ max 0 start.limit) → True →
        (stepOf framework parser store visit).after.limit = start.limit ∧
          ((stepOf framework parser store visit).after.workspaces.length : Int)
            ≤ max 0 start.limit := by
      intro store visit hroom _
      obtain ⟨hlimit, hlength⟩ := length_le_stepOf framework parser store visit
      omega
    have hempty : (start.workspaces.length : Int) ≤ max 0 start.limit := by
      rw [hstart]
      exact Int.le_max_left _ _
    have hbefore := (forall_of_steps hstep ⟨rfl, hempty⟩ fun _ _ => trivial).1 step hmem
    rw [eq_stepOf_of_mem hmem]
    exact (hstep step.before step.visit hbefore trivial).2
  · rw [eq_stepOf_of_mem hmem] at hreport ⊢
    rcases stepOf_cases framework parser step.before step.visit with
      ⟨-, hnone, -⟩ | ⟨call, handled, -, hhandled, -, heffect⟩
    · rw [hnone] at hreport
      cases hreport
    · exact get?_of_created heffect (Option.some.inj (hhandled.symm.trans hreport))
  · rintro earlier later id rfl hget hkeeps
    rw [behind_append]
    exact isSome_get?_behind hkeeps hget
  · rw [eq_stepOf_of_mem hmem]
    exact Workspace.Store.get?_eq_of_only (only_stepOf_of_subject?_ne hother)
  · have honly : start.only id = start := by
      unfold Workspace.Store.only
      rw [hstart, List.filter_nil, ← hstart]
    obtain ⟨hexchanges, hbehind⟩ := exchanges_own framework parser start visits id
    rw [honly] at hexchanges hbehind
    refine ⟨hexchanges, ?_⟩
    rw [hbehind, Workspace.Store.get?_only]
  · have hkept := (allKept_of_run hstart hbuilt).1 step hmem
    have hdeleted := stepOf_deleteWorkspace parser hkept hcall hget
    rwa [← eq_stepOf_of_mem hmem] at hdeleted

/-! ## §8. Two workspaces -/

/-- The visit that makes a file in the first workspace. -/
def fileVisit (path content : String) : Visit :=
  ⟨"", { method := "POST", target := "/api/workspaces/a/commands", body :=
    "\x7b\"op\": \"create_file\", \"path\": \"" ++ path ++ "\", \"content\": \"" ++ content ++ "\"\x7d" }⟩

/-- The visit that shows the page of the first workspace. -/
def pageVisit : Visit :=
  ⟨"", { method := "GET", target := "/api/workspaces/a/preview?entry=/a.js" }⟩

/-- The visit that deletes the first workspace. -/
def deletionVisit : Visit :=
  ⟨"", { method := "DELETE", target := "/api/workspaces/a" }⟩

/-- Two workspaces are created, the first one with a script and its style sheet.  There is no room for
a third one. -/
def pairVisits : List Visit :=
  [.creation "a", fileVisit "/a.js" "import './b.css';", fileVisit "/b.css" "p {}", .creation "b",
    .creation "c"]

def pairFramework : Framework :=
  .told [((Visit.creation "").request, .createWorkspace none),
    ((fileVisit "/a.js" "import './b.css';").request,
      .runCommand "a" { op := "create_file", path := "/a.js", content? := some "import './b.css';" }),
    ((fileVisit "/b.css" "p {}").request,
      .runCommand "a" { op := "create_file", path := "/b.css", content? := some "p {}" }),
    (pageVisit.request, .showPreview "a" (some "/a.js")),
    (deletionVisit.request, .deleteWorkspace "a")]

def pairParser : Parser :=
  fun _ _ => Preview.styledTree

/-- The first workspace, in front of its page. -/
def styledWorkspace : Workspace :=
  { project := Preview.styledProject, cache := 0, config := {} }

/-- The store with both workspaces, where the first one is as given. -/
def pairStore (first : Workspace) : Store :=
  { limit := 2, workspaces := [("a", first), ("b", .start {} {} {})] }

theorem behind_pairVisits :
    behind pairFramework pairParser { limit := 2 } pairVisits = pairStore styledWorkspace := rfl

theorem isBuilt_pairVisits :
    ∀ step ∈ steps pairFramework pairParser { limit := 2 } pairVisits, step.IsBuilt := by
  have hstatuses : (steps pairFramework pairParser { limit := 2 } pairVisits).map
      (fun step => status step.answering) = [201, 200, 200, 201, 429] := rfl
  intro step hmem
  have hstatus := List.mem_map_of_mem (f := fun step => status step.answering) hmem
  rw [hstatuses] at hstatus
  refine isBuilt_of_status hmem fun heq => ?_
  rw [heq] at hstatus
  exact absurd hstatus (by decide)

/-- The page of the first workspace is shown. -/
theorem exists_stepOf_pageVisit : ∃ document shown,
    (stepOf pairFramework pairParser (pairStore styledWorkspace) pageVisit).handled?
        = some (.ok (.page document.html)) ∧
      (stepOf pairFramework pairParser (pairStore styledWorkspace) pageVisit).after = pairStore shown ∧
      shown.session.document? = some document ∧ document.references.values ≠ [] ∧
      ∀ reference ∈ document.references.values, shown.registry.isLive reference = true := by
  obtain ⟨document, hbuild⟩ := Preview.exists_build_styled
  have hkept : styledWorkspace.IsKept := ⟨rfl, Preview.accounts_empty⟩
  obtain ⟨shown, hrefresh, hdocument⟩ :=
    @Workspace.refresh_of_build styledWorkspace pairParser (some "/a.js") document _ hbuild
  have hcall : pairFramework.call? pageVisit.request = some (.showPreview "a" (some "/a.js")) := rfl
  have hhandle : handle pairParser "" (pairStore styledWorkspace) (.showPreview "a" (some "/a.js"))
      = (.ok (.page document.html), pairStore shown) := by
    show showPreview _ (pairStore styledWorkspace) "a" styledWorkspace (some "/a.js") = _
    unfold showPreview Workspace.Store.preview Workspace.Store.entryFor
    dsimp only
    rw [hrefresh]
    rfl
  refine ⟨document, shown, ?_, ?_, hdocument, ?_, fun reference => (hkept.refresh hrefresh).isLive hdocument⟩
  · unfold stepOf
    dsimp only
    rw [hcall, Option.map_some]
    exact congrArg (fun behind => some behind.1) hhandle
  · unfold stepOf
    dsimp only
    rw [answer_of_call? hcall]
    exact congrArg Prod.snd hhandle
  · exact Preview.values_ne_nil_of_buildTree Preview.consistent_styledProject.wellFormed hbuild

/-- The first workspace is deleted while its page is on screen, with live references.  It is closed
without a trace then, and the second one is what it was. -/
theorem isolated_of_run_two : ∃ document shown,
    (behind pairFramework pairParser { limit := 2 } (pairVisits ++ [pageVisit])).get? "a" = some shown ∧
      shown.session.document? = some document ∧ document.references.values ≠ [] ∧
      (∀ reference ∈ document.references.values, shown.registry.isLive reference = true) ∧
      Isolated pairFramework pairParser { limit := 2 } (pairVisits ++ [pageVisit, deletionVisit]) ∧
      shown.close.IsClosed ∧
      behind pairFramework pairParser { limit := 2 } (pairVisits ++ [pageVisit, deletionVisit])
        = { limit := 2, workspaces := [("b", .start {} {} {})] } := by
  obtain ⟨document, shown, hpage, hafter, hdocument, hnonempty, hlive⟩ := exists_stepOf_pageVisit
  have hsteps : steps pairFramework pairParser { limit := 2 } (pairVisits ++ [pageVisit, deletionVisit])
      = steps pairFramework pairParser { limit := 2 } pairVisits
        ++ [stepOf pairFramework pairParser (pairStore styledWorkspace) pageVisit,
          stepOf pairFramework pairParser (pairStore shown) deletionVisit] := by
    rw [steps_append, behind_pairVisits, steps, hafter]
    rfl
  have hisolated := isolated_of_run pairFramework pairParser
    (show ({ limit := 2 } : Store).workspaces = [] from rfl) (pairVisits ++ [pageVisit, deletionVisit])
  have hbuilt : ∀ step ∈ steps pairFramework pairParser { limit := 2 }
      (pairVisits ++ [pageVisit, deletionVisit]), step.IsBuilt := by
    rw [hsteps, List.forall_mem_append, List.forall_mem_cons, List.forall_mem_singleton]
    refine ⟨isBuilt_pairVisits, fun breakdown hbroken => ?_, ?_⟩
    · cases hpage.symm.trans hbroken
    · have hmem : stepOf pairFramework pairParser (pairStore shown) deletionVisit
          ∈ steps pairFramework pairParser (pairStore shown) [deletionVisit] := List.mem_singleton_self _
      exact isBuilt_of_status hmem (show 200 ≠ 500 by decide)
  have hdeleted := hisolated.deleted hbuilt (stepOf pairFramework pairParser (pairStore shown) deletionVisit)
    (by rw [hsteps]; exact List.mem_append_right _ (List.mem_cons_of_mem _ List.mem_cons_self))
    "a" shown rfl rfl
  refine ⟨document, shown, ?_, hdocument, hnonempty, hlive, hisolated, hdeleted.2.2.1, ?_⟩
  · rw [behind_append, behind_pairVisits]
    show (stepOf pairFramework pairParser (pairStore styledWorkspace) pageVisit).after.get? "a" = _
    rw [hafter]
    rfl
  · rw [behind_append, behind_pairVisits]
    show (stepOf pairFramework pairParser
      (stepOf pairFramework pairParser (pairStore styledWorkspace) pageVisit).after deletionVisit).after = _
    rw [hafter]
    rfl

end LivePreview.Http
