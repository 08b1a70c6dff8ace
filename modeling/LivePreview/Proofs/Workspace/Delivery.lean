/-
  LivePreview.Proofs.Workspace.Delivery
  ─────────────────────────────────────
  **What is handed over twice is given back twice.**

  A session does not know whether it has seen a result before.  Each time that a document
  is handed over, either its references are given back or those of the document whose
  place it takes on screen.  So behind every run, in whatever order and however often
  results are handed over, each reference is counted so that

      built + on screen  ≤  live + handed over        (`Reckoned`).

  If no document has been handed over twice, at most what has been built has been handed
  over, and all references of the document on screen are live.  A document on screen that
  is handed over once more takes its own place: it stays on screen, and its references
  are given back (`accept_again`), so that they need not be live any more
  (`not_isLive_run_again`).
-/
import LivePreview.Proofs.Preview.Spelling
import LivePreview.Proofs.Workspace.Accounting
import Mathlib.Data.List.Flatten

namespace LivePreview

open LivePreview.Lowering (Parser)
open LivePreview.Module (Registry)
open LivePreview.Preview (BuildResult Config Document Session allReferences release releaseIfAny)

/-! ## §1. What is given back -/

namespace Preview

theorem count_releaseIfAny (registry : Registry) (document? : Option Document) (reference : String) :
    (releaseIfAny registry document?).count reference
      = registry.count reference - (allReferences document?.toList).count reference := by
  cases document? with
  | none => rfl
  | some document =>
    show (registry.releaseAll document.references.values).count reference = _
    rw [Module.Registry.count_releaseAll, Option.toList_some, allReferences, List.flatMap_singleton]

/-- Of the document on screen and the one that is handed over, one is given back and the other one is
on screen then; neither is given back if the result is a current error. -/
theorem accept_returns (session : Session) (registry : Registry) (ticket : Nat) (result : BuildResult) :
    ∃ returned? : Option Document,
      (session.accept registry ticket result).2.2 = releaseIfAny registry returned?
        ∧ (returned?.toList ++ (session.accept registry ticket result).2.1.document?.toList).Perm
          (session.document?.toList ++ result.document?.toList) := by
  unfold Session.accept
  split
  · -- the result is stale
    exact ⟨result.document?, rfl, List.perm_append_comm⟩
  · obtain ⟨outcome, stamp⟩ := result
    cases outcome with
    | error error => exact ⟨none, rfl, (List.append_nil _).symm ▸ List.Perm.refl _⟩
    | ok document => exact ⟨session.document?, rfl, List.Perm.refl _⟩

/-- A build gives nothing back, whether or not it breaks down, and gives out what its document holds. -/
theorem count_build_le (parser : Parser) (config : Config) (number : Nat) (project : Project)
    (registry : Registry) (wanted? : Option Text) (reference : String) :
    let (answer, _, after) := build parser config number project registry wanted?
    registry.count reference
        + (allReferences (answer.toOption.toList.filterMap BuildResult.document?)).count reference
      ≤ after.count reference := by
  let built := buildTree ⟨parser, project.tree, config⟩ project.revision registry (project.cacheAt number)
    wanted?
  show registry.count reference
      + (allReferences (built.answer.toOption.toList.filterMap BuildResult.document?)).count reference
    ≤ built.registry.count reference
  rcases hanswer : built.answer with breakdown | ⟨error | document, stamp⟩
  · -- what has been given out before the breakdown stays given out
    have hregistry : built.registry = _ := registry_buildTree _ _ _ _ _
    rw [hregistry, Module.Registry.count_foldl_add]
    exact Nat.add_le_add_left (Nat.zero_le _) _
  · rw [registry_buildTree_of_error hanswer]
    exact Nat.le_refl _
  · rw [registry_buildTree_of_document hanswer, Module.Registry.count_foldl_add]
    exact Nat.le_of_eq (congrArg (_ + List.count _ ·) (List.flatMap_singleton _ _))

end Preview

/-! ## §2. Runs in which results are handed over again -/

/-- A workspace in use, with the results of its builds. -/
structure Delivery where
  workspace : Workspace
  /-- The results of all builds, in the order in which they came. -/
  results : List BuildResult := []
  /-- The numbers of the results that have been handed over, as often as they have been, the latest
  first. -/
  delivered : List Nat := []

namespace Delivery

/-- What may be done. -/
inductive Action where
  /-- Something with the project and the module cache: an edit, a request for a module, … -/
  | project (action : Project.Action)
  | begin
  | build (wanted? : Option Text)
  /-- Hand over the result with a number, with whatever ticket, for the first time or again. -/
  | accept (ticket number : Nat)
  | close

/-- The document on screen. -/
def shown? (delivery : Delivery) : Option Document :=
  delivery.workspace.session.document?

/-- The document of the result with a number. -/
def documentAt? (delivery : Delivery) (number : Nat) : Option Document :=
  delivery.results[number]?.bind BuildResult.document?

/-- What is behind an action.  A build that breaks down has no result, and a result that has not come
cannot be handed over. -/
def perform (parser : Parser) (delivery : Delivery) : Action → Delivery
  | .project action =>
    let project := delivery.workspace.project.perform parser delivery.workspace.cache action
    { delivery with workspace := { delivery.workspace with project } }
  | .begin => { delivery with workspace := delivery.workspace.begin.2 }
  | .build wanted? =>
    let (answer, workspace) := delivery.workspace.build parser wanted?
    { delivery with workspace, results := delivery.results ++ answer.toOption.toList }
  | .accept ticket number =>
    match delivery.results[number]? with
    | some result =>
      { delivery with
        workspace := (delivery.workspace.accept ticket result).2
        delivered := number :: delivery.delivered }
    | none => delivery
  | .close => { delivery with workspace := delivery.workspace.closeSession }

/-- What is behind a run of actions. -/
def run (parser : Parser) (delivery : Delivery) (actions : List Action) : Delivery :=
  actions.foldl (perform parser) delivery

/-! ## §3. The reckoning -/

/-- How often the reference is held by the documents that have been built. -/
def builtCount (delivery : Delivery) (reference : String) : Nat :=
  (allReferences (delivery.results.filterMap BuildResult.document?)).count reference

/-- How often the document on screen holds the reference. -/
def shownCount (delivery : Delivery) (reference : String) : Nat :=
  (allReferences delivery.shown?.toList).count reference

/-- How often the reference is held by the documents that have been handed over, each as often as it
has been. -/
def deliveredCount (delivery : Delivery) (reference : String) : Nat :=
  (allReferences (delivery.delivered.filterMap delivery.documentAt?)).count reference

/-- A reference is live, or has been handed over, as often as it has been built and is on screen. -/
structure Reckoned (delivery : Delivery) : Prop where
  lt_length : ∀ number ∈ delivery.delivered, number < delivery.results.length
  le_add : ∀ reference, delivery.builtCount reference + delivery.shownCount reference
    ≤ delivery.workspace.registry.count reference + delivery.deliveredCount reference

variable {parser : Parser} {delivery : Delivery}

theorem reckoned_start (project : Project) (number : Nat) (config : Config) :
    Reckoned { workspace := { project, cache := number, config } } :=
  ⟨nofun, fun _ => Nat.zero_le _⟩

theorem count_allReferences_append (a b : List Document) (reference : String) :
    (allReferences (a ++ b)).count reference
      = (allReferences a).count reference + (allReferences b).count reference := by
  unfold allReferences
  rw [List.flatMap_append, List.count_append]

/-- What is done to the screen and to the registry by giving a document back. -/
theorem Reckoned.giveBack (h : delivery.Reckoned) (document? : Option Document) {workspace : Workspace}
    {returned? : Option Document} {delivered : List Nat}
    (hlt : ∀ number ∈ delivered, number < delivery.results.length)
    (hregistry : workspace.registry = releaseIfAny delivery.workspace.registry returned?)
    (hperm : (returned?.toList ++ workspace.session.document?.toList).Perm
      (delivery.shown?.toList ++ document?.toList))
    (hdelivered : delivered.filterMap delivery.documentAt?
      = document?.toList ++ delivery.delivered.filterMap delivery.documentAt?) :
    Reckoned { delivery with workspace, delivered } := by
  refine ⟨hlt, fun reference => ?_⟩
  have hbefore := h.le_add reference
  have hmoved : (allReferences (returned?.toList ++ workspace.session.document?.toList)).count reference
      = (allReferences (delivery.shown?.toList ++ document?.toList)).count reference :=
    (hperm.flatMap_right _).count_eq reference
  rw [count_allReferences_append, count_allReferences_append] at hmoved
  show delivery.builtCount reference + (allReferences workspace.session.document?.toList).count reference
    ≤ workspace.registry.count reference
      + (allReferences (delivered.filterMap delivery.documentAt?)).count reference
  rw [hregistry, Preview.count_releaseIfAny, hdelivered, count_allReferences_append]
  unfold shownCount deliveredCount at hbefore
  -- a count that would fall below zero stays zero, and then there is nothing left to be reckoned
  omega

theorem Reckoned.build (h : delivery.Reckoned) (wanted? : Option Text) :
    (delivery.perform parser (.build wanted?)).Reckoned := by
  let results := delivery.results ++ (delivery.workspace.build parser wanted?).1.toOption.toList
  -- the numbers of earlier results lead to the same documents
  have hdelivered : delivery.delivered.filterMap (fun number => results[number]?.bind BuildResult.document?)
      = delivery.delivered.filterMap delivery.documentAt? :=
    List.filterMap_congr fun number hmem => by
      rw [List.getElem?_append_left (h.lt_length number hmem)]
      rfl
  refine ⟨fun number hmem => ?_, fun reference => ?_⟩
  · show number < results.length
    rw [List.length_append]
    exact Nat.lt_add_right _ (h.lt_length number hmem)
  · have hbefore := h.le_add reference
    have hbuild : delivery.workspace.registry.count reference
        + (allReferences ((delivery.workspace.build parser wanted?).1.toOption.toList.filterMap
          BuildResult.document?)).count reference
      ≤ (delivery.workspace.build parser wanted?).2.registry.count reference :=
      Preview.count_build_le parser delivery.workspace.config delivery.workspace.cache
        delivery.workspace.project delivery.workspace.registry wanted? reference
    show (allReferences (results.filterMap BuildResult.document?)).count reference
        + delivery.shownCount reference
      ≤ (delivery.workspace.build parser wanted?).2.registry.count reference
        + (allReferences (delivery.delivered.filterMap
          fun number => results[number]?.bind BuildResult.document?)).count reference
    rw [hdelivered, List.filterMap_append, count_allReferences_append]
    unfold builtCount deliveredCount at hbefore
    omega

theorem Reckoned.accept (h : delivery.Reckoned) (ticket number : Nat) :
    (delivery.perform parser (.accept ticket number)).Reckoned := by
  rw [perform]
  split
  · next result hresult =>
    obtain ⟨returned?, hregistry, hperm⟩ := Preview.accept_returns delivery.workspace.session
      delivery.workspace.registry ticket result
    have hdocument : delivery.documentAt? number = result.document? := by
      rw [documentAt?, hresult, Option.bind_some]
    refine h.giveBack result.document? ?_ hregistry hperm ?_
    · rw [List.forall_mem_cons]
      exact ⟨(List.getElem?_eq_some_iff.mp hresult).1, h.lt_length⟩
    · rw [List.filterMap_cons, hdocument]
      cases result.document? <;> rfl
  · exact h

theorem Reckoned.close (h : delivery.Reckoned) : (delivery.perform parser .close).Reckoned :=
  h.giveBack none h.lt_length rfl (List.Perm.refl _) rfl

/-- **Every action keeps the reckoning.** -/
theorem Reckoned.perform (h : delivery.Reckoned) (action : Action) :
    (delivery.perform parser action).Reckoned := by
  cases action with
  | project action => exact ⟨h.lt_length, h.le_add⟩
  | begin => exact ⟨h.lt_length, h.le_add⟩
  | build wanted? => exact h.build wanted?
  | accept ticket number => exact h.accept ticket number
  | close => exact h.close

theorem Reckoned.run (h : delivery.Reckoned) (actions : List Action) :
    (delivery.run parser actions).Reckoned := by
  unfold Delivery.run
  induction actions generalizing delivery with
  | nil => exact h
  | cons action actions ih => exact ih (h.perform action)

/-! ## §4. What is on screen -/

/-- No result with a document has been handed over twice. -/
def Once (delivery : Delivery) : Prop :=
  ∀ number, (delivery.documentAt? number).isSome → delivery.delivered.count number ≤ 1

theorem filterMap_range_getElem? {α β : Type} (f : α → Option β) (l : List α) :
    (List.range l.length).filterMap (fun number => l[number]?.bind f) = l.filterMap f := by
  induction l with
  | nil => rfl
  | cons a l ih =>
    rw [List.length_cons, List.range_succ_eq_map, List.filterMap_cons, List.filterMap_map,
      List.filterMap_cons]
    show (match f a with
      | none => (List.range l.length).filterMap fun number => l[number]?.bind f
      | some b => b :: (List.range l.length).filterMap fun number => l[number]?.bind f) = _
    rw [ih]
    cases f a <;> rfl

/-- What is handed over once at most has been built as often as it is handed over. -/
theorem Reckoned.deliveredCount_le (h : delivery.Reckoned) (honce : delivery.Once) (reference : String) :
    delivery.deliveredCount reference ≤ delivery.builtCount reference := by
  let numbers := delivery.delivered.filter fun number => (delivery.documentAt? number).isSome
  have hnodup : numbers.Nodup := by
    rw [List.nodup_iff_count_le_one]
    intro number
    by_cases hdocument : (delivery.documentAt? number).isSome
    · exact (List.filter_sublist.count_le number).trans (honce number hdocument)
    · have hzero : numbers.count number = 0 :=
        List.count_eq_zero_of_not_mem fun hmem => hdocument (List.mem_filter.mp hmem).2
      rw [hzero]
      exact Nat.zero_le 1
  have hsubset : numbers ⊆ List.range delivery.results.length := fun number hmem =>
    List.mem_range.mpr (h.lt_length number (List.mem_filter.mp hmem).1)
  have hdelivered : delivery.delivered.filterMap delivery.documentAt?
      = numbers.filterMap delivery.documentAt? := by
    rw [List.filterMap_filter]
    refine List.filterMap_congr fun number _ => ?_
    cases delivery.documentAt? number <;> rfl
  obtain ⟨chosen, hperm, hsublist⟩ := hnodup.subperm hsubset
  unfold deliveredCount builtCount allReferences
  rw [hdelivered, ← filterMap_range_getElem? BuildResult.document? delivery.results,
    ← ((hperm.filterMap delivery.documentAt?).flatMap_right _).count_eq reference]
  exact ((hsublist.filterMap delivery.documentAt?).flatMap _).count_le reference

/-- A reference of the document on screen is live unless the documents that hold it have been handed
over more often than they have been built. -/
theorem Reckoned.isLive (h : delivery.Reckoned) {document : Document}
    (hshown : delivery.shown? = some document) {reference : String}
    (hmem : reference ∈ document.references.values)
    (hle : delivery.deliveredCount reference ≤ delivery.builtCount reference) :
    delivery.workspace.registry.isLive reference = true := by
  have hcount : 0 < delivery.shownCount reference := by
    unfold shownCount
    rw [hshown]
    exact List.count_pos_iff.mpr (List.mem_flatMap.mpr ⟨document, List.mem_cons_self, hmem⟩)
  have hbefore := h.le_add reference
  unfold Module.Registry.isLive
  rw [decide_eq_true_eq]
  omega

/-- **A document on screen that is handed over once more takes its own place**, and its references are
given back. -/
theorem accept_again (parser : Parser) (delivery : Delivery) (number : Nat) {result : BuildResult}
    {document : Document} (hresult : delivery.results[number]? = some result)
    (hdocument : result.outcome = .ok document) (hshown : delivery.shown? = some document) :
    let next := delivery.perform parser (.accept delivery.workspace.session.ticket number)
    next.shown? = some document ∧ ∀ reference, next.workspace.registry.count reference
      = delivery.workspace.registry.count reference - document.references.values.count reference := by
  obtain ⟨outcome, stamp⟩ := result
  cases hdocument
  have haccept : delivery.workspace.session.accept delivery.workspace.registry
        delivery.workspace.session.ticket ⟨.ok document, stamp⟩
      = (true, { delivery.workspace.session with document? := some document, lastError? := none },
        releaseIfAny delivery.workspace.registry delivery.shown?) := if_neg (not_not.mpr rfl)
  intro next
  have hnext : next.workspace = (delivery.workspace.accept delivery.workspace.session.ticket
      ⟨.ok document, stamp⟩).2 := by
    show (delivery.perform parser (.accept _ number)).workspace = _
    rw [perform, hresult]
  unfold shown?
  rw [hnext, Workspace.accept, haccept, hshown]
  exact ⟨rfl, Module.Registry.count_releaseAll _ _⟩

/-- Behind every run of a workspace that starts with an empty registry and nothing on screen, in which
results are handed over in any order, with any tickets and as often as one likes: built and on screen
is at most live and handed over, for each reference; a reference of the document on screen is live
unless what holds it has been handed over more often than it has been built, and so all of them are
if no document has been handed over twice; and handing over the document on screen once more, with
the current ticket, gives its references back and leaves it on screen. -/
theorem alive_of_run (parser : Parser) (project : Project) (number : Nat) (config : Config)
    (actions : List Action) {delivery : Delivery}
    (hrun : run parser { workspace := { project, cache := number, config } } actions = delivery) :
    (∀ reference, delivery.builtCount reference + delivery.shownCount reference
        ≤ delivery.workspace.registry.count reference + delivery.deliveredCount reference)
      ∧ (∀ document, delivery.shown? = some document → ∀ reference ∈ document.references.values,
        delivery.deliveredCount reference ≤ delivery.builtCount reference ∨ delivery.Once →
          delivery.workspace.registry.isLive reference = true)
      ∧ (∀ number result document, delivery.results[number]? = some result →
        result.outcome = .ok document → delivery.shown? = some document →
          let next := delivery.perform parser (.accept delivery.workspace.session.ticket number)
          next.shown? = some document ∧ ∀ reference, next.workspace.registry.count reference
            = delivery.workspace.registry.count reference - document.references.values.count reference) := by
  subst hrun
  have hreckoned : (run parser _ actions).Reckoned := (reckoned_start project number config).run actions
  refine ⟨hreckoned.le_add, fun document hshown reference hmem hle => ?_,
    fun number result document => accept_again parser _ number⟩
  exact hreckoned.isLive hshown hmem (hle.elim id fun honce => hreckoned.deliveredCount_le honce reference)

/-! ## §5. The page of a script -/

def styledDelivery (accepts : List Action) : Delivery :=
  run (fun _ _ => Preview.styledTree)
    { workspace := { project := Preview.styledProject, cache := 0, config := {} } }
    ([.build (some "/a.js"), .begin, .accept 1 0] ++ accepts)

/-- The page is built, and its document put on screen. -/
theorem exists_shown_styled :
    ∃ (document : Document) (workspace : Workspace), document.references.values ≠ []
      ∧ styledDelivery [] = ⟨workspace, [⟨.ok document, Preview.styledProject.revision⟩], [0]⟩
      ∧ workspace.session.document? = some document ∧ workspace.session.ticket = 1
      ∧ ∀ reference, workspace.registry.count reference = document.references.values.count reference := by
  obtain ⟨document, hbuild⟩ := Preview.exists_build_styled
  let workspace : Workspace := { project := Preview.styledProject, cache := 0, config := {} }
  let built := (workspace.build (fun _ _ => Preview.styledTree) (some "/a.js")).2
  let result : BuildResult := ⟨.ok document, Preview.styledProject.revision⟩
  have hanswer : workspace.build (fun _ _ => Preview.styledTree) (some "/a.js") = (.ok result, built) :=
    Prod.ext hbuild rfl
  have hfirst : ({ workspace } : Delivery).perform (fun _ _ => Preview.styledTree) (.build (some "/a.js"))
      = ⟨built, [result], []⟩ := by
    rw [perform, hanswer]
    rfl
  have hregistry : built.registry = document.references.values.foldl .add .empty :=
    Preview.registry_buildTree_of_document hbuild
  refine ⟨document, (built.begin.2.accept 1 result).2,
    Preview.values_ne_nil_of_buildTree Preview.consistent_styledProject.wellFormed hbuild, ?_, rfl, rfl,
    fun reference => ?_⟩
  · show List.foldl _ (({ workspace } : Delivery).perform _ _) _ = _
    rw [hfirst]
    rfl
  · show built.registry.count reference = _
    rw [hregistry, Module.Registry.count_foldl_add, Module.Registry.count_empty, Nat.zero_add]

/-- The references of the page are live. -/
theorem alive_of_run_styled :
    ∃ document, (styledDelivery []).shown? = some document ∧ (styledDelivery []).Once
      ∧ document.references.values ≠ [] ∧ ∀ reference ∈ document.references.values,
        (styledDelivery []).workspace.registry.isLive reference = true := by
  obtain ⟨document, workspace, hnonempty, hstyled, hdocument, -, -⟩ := exists_shown_styled
  have hshown : (styledDelivery []).shown? = some document := by
    rw [hstyled]
    exact hdocument
  have honce : (styledDelivery []).Once := by
    rw [hstyled]
    exact fun number _ => List.count_le_length
  have halive := (alive_of_run (fun _ _ => Preview.styledTree) Preview.styledProject 0 {}
    [.build (some "/a.js"), .begin, .accept 1 0] rfl).2.1 document hshown
  exact ⟨document, hshown, honce, hnonempty, fun reference hmem => halive reference hmem (.inr honce)⟩

/-- The page is handed over again, with the ticket that is current still: it stays on screen, and no
reference of it is live. -/
theorem not_isLive_run_again :
    ∃ document, (styledDelivery [.accept 1 0]).shown? = some document
      ∧ document.references.values ≠ [] ∧ ∀ reference ∈ document.references.values,
        (styledDelivery [.accept 1 0]).workspace.registry.isLive reference = false := by
  obtain ⟨document, workspace, hnonempty, hstyled, hdocument, hticket, hcount⟩ := exists_shown_styled
  have hagain : styledDelivery [.accept 1 0]
      = (styledDelivery []).perform (fun _ _ => Preview.styledTree) (.accept 1 0) := rfl
  obtain ⟨hsame, hreturned⟩ := accept_again (fun _ _ => Preview.styledTree)
    ⟨workspace, [⟨.ok document, Preview.styledProject.revision⟩], [0]⟩ 0 rfl rfl hdocument
  rw [hagain, hstyled, ← hticket]
  refine ⟨document, hsame, hnonempty, fun reference _ => ?_⟩
  unfold Module.Registry.isLive
  rw [hreturned, hcount, Nat.sub_self]
  rfl

end Delivery

end LivePreview
