/-
  LivePreview.Proofs.Workspace.Accounting
  ───────────────────────────────────────
  **Every live reference belongs to a document.**

  A client of a workspace holds the documents that it has built until it hands them
  over, to be put on screen or to be given back.  A registry accounts for documents if
  the count of each reference is the number of times that they hold it (`Accounts`).
  Whatever the client does, the registry of its workspace accounts for the document on
  screen together with those that the client holds (`Accounted.step`), in whatever
  order builds overlap, results arrive and the page is closed (`accounts_of_run`).

  Tickets are given out in ascending order, and closing the page uses one up.  So a
  ticket that is current belongs to the build that has begun last, and only the result
  of that build replaces the document on screen.
-/
import LivePreview.Proofs.Preview.Publishing
import LivePreview.Workspace.Basic

namespace LivePreview

open LivePreview.Lowering (Parser)
open LivePreview.Module (Registry)
open LivePreview.Preview (BuildResult Config Document Session release releaseIfAny)

/-! ## §1. Registries and documents -/

namespace Preview

/-- All references of some documents. -/
def allReferences (documents : List Document) : List String :=
  documents.flatMap fun document => document.references.values

/-- The count of each reference is the number of times that the documents hold it. -/
structure Accounts (registry : Registry) (documents : List Document) : Prop where
  count_eq : ∀ reference, registry.count reference = (allReferences documents).count reference
  tidy : registry.Tidy

variable {registry : Registry} {document : Document} {documents others : List Document}

theorem accounts_empty : Accounts .empty [] :=
  ⟨Module.Registry.count_empty, Module.Registry.tidy_empty⟩

theorem Accounts.perm (h : Accounts registry documents) (hperm : documents.Perm others) :
    Accounts registry others := by
  refine ⟨fun reference => ?_, h.tidy⟩
  rw [h.count_eq]
  exact (hperm.flatMap_right _).count_eq reference

/-- The references of one document are given back. -/
theorem Accounts.release (h : Accounts registry (document :: documents)) :
    Accounts (release registry document) documents := by
  refine ⟨fun reference => ?_, h.tidy.releaseAll _⟩
  have hcount := h.count_eq reference
  unfold allReferences at hcount ⊢
  rw [List.flatMap_cons, List.count_append] at hcount
  unfold Preview.release
  rw [Module.Registry.count_releaseAll, hcount, Nat.add_sub_cancel_left]

theorem Accounts.releaseIfAny {document? : Option Document}
    (h : Accounts registry (document?.toList ++ documents)) :
    Accounts (releaseIfAny registry document?) documents := by
  cases document? with
  | none => exact h
  | some document => exact Accounts.release h

/-- The references of one document are given out. -/
theorem Accounts.give (h : Accounts registry documents) (document : Document) :
    Accounts (document.references.values.foldl .add registry) (document :: documents) := by
  refine ⟨fun reference => ?_, h.tidy.foldl_add _⟩
  have hcount := h.count_eq reference
  unfold allReferences at hcount ⊢
  rw [Module.Registry.count_foldl_add, hcount, List.flatMap_cons, List.count_append, Nat.add_comm]

/-- A build that ends with a result adds its document, if there is one. -/
theorem Accounts.build (h : Accounts registry documents) {parser : Parser} {config : Config}
    {number : Nat} {project : Project} {wanted? : Option Text} {result : BuildResult}
    (hok : (build parser config number project registry wanted?).1 = .ok result) :
    Accounts (build parser config number project registry wanted?).2.2
      (result.document?.toList ++ documents) := by
  obtain ⟨outcome, stamp⟩ := result
  cases outcome with
  | error error =>
    show Accounts (buildTree _ _ _ _ _).registry documents
    rw [registry_buildTree_of_error hok]
    exact h
  | ok document =>
    show Accounts (buildTree _ _ _ _ _).registry (document :: documents)
    rw [registry_buildTree_of_document hok]
    exact h.give document

/-- Whether a result is current or stale, its document is handed over: it is put on screen, or its
references are given back. -/
theorem Accounts.accept {session : Session} {result : BuildResult}
    (h : Accounts registry (session.document?.toList ++ (result.document?.toList ++ documents)))
    (ticket : Nat) : Accounts (session.accept registry ticket result).2.2
      ((session.accept registry ticket result).2.1.document?.toList ++ documents) := by
  unfold Session.accept
  split
  · -- the result is stale
    exact (h.perm (List.perm_append_comm_assoc _ _ _)).releaseIfAny
  · -- a document takes the place of the one on screen, and an error leaves it there
    obtain ⟨outcome, stamp⟩ := result
    cases outcome with
    | error error => exact h
    | ok document => exact h.releaseIfAny

end Preview

/-! ## §2. Clients -/

open Preview (Accounts allReferences)

/-- A workspace in use. -/
structure Client where
  workspace : Workspace
  /-- The documents that have been built and not yet been handed over. -/
  held : List Document := []
  /-- The tickets of the builds that have begun, the latest first. -/
  begun : List Nat := []

namespace Client

/-- What a client may do. -/
inductive Action where
  /-- Something with the project and the module cache: an edit, a request for a module, … -/
  | project (action : Project.Action)
  | begin
  | build (wanted? : Option Text)
  | refresh (wanted? : Option Text)
  /-- Hand over a result, with whatever ticket. -/
  | accept (ticket : Nat) (result : BuildResult)
  /-- Hand over a document to be given back. -/
  | release (document : Document)
  | close

/-- The document on screen. -/
def shown? (client : Client) : Option Document :=
  client.workspace.session.document?

/-- The document on screen and those that the client holds. -/
def documents (client : Client) : List Document :=
  client.shown?.toList ++ client.held

/-- What is held when a document has been handed over, if there is one; nothing can be handed over
that is not held. -/
def handOver (held : List Document) : Option Document → Option (List Document)
  | none => some held
  | some document => if document ∈ held then some (held.erase document) else none

/-- The client behind an action; none if a build breaks down, or if what is to be handed over is not
held. -/
def step (parser : Parser) (client : Client) : Action → Option Client
  | .project action =>
    let project := client.workspace.project.perform parser client.workspace.cache action
    some { client with workspace := { client.workspace with project } }
  | .begin =>
    let (ticket, workspace) := client.workspace.begin
    some { client with workspace, begun := ticket :: client.begun }
  | .build wanted? =>
    match client.workspace.build parser wanted? with
    | (.ok result, workspace) =>
      some { client with workspace, held := result.document?.toList ++ client.held }
    | (.error _, _) => none
  | .refresh wanted? =>
    match client.workspace.refresh parser wanted? with
    | (.ok _, workspace) =>
      some { client with workspace, begun := workspace.session.ticket :: client.begun }
    | (.error _, _) => none
  | .accept ticket result =>
    (handOver client.held result.document?).map fun held =>
      { client with workspace := (client.workspace.accept ticket result).2, held }
  | .release document =>
    (handOver client.held (some document)).map fun held =>
      { client with workspace := client.workspace.release document, held }
  | .close => some { client with workspace := client.workspace.closeSession }

/-- The client behind a run of actions. -/
def run (parser : Parser) (client : Client) (actions : List Action) : Option Client :=
  actions.foldlM (step parser) client

/-! ## §3. What every step preserves -/

/-- The registry accounts for the documents, and a ticket that is current was given out last. -/
structure Accounted (client : Client) : Prop where
  accounts : Accounts client.workspace.registry client.documents
  le_ticket : ∀ ticket ∈ client.begun, ticket ≤ client.workspace.session.ticket
  head?_eq : client.workspace.session.ticket ∈ client.begun →
    client.begun.head? = some client.workspace.session.ticket

variable {parser : Parser} {client next : Client}

theorem accounted_start (project : Project) (number : Nat) (config : Config) :
    Accounted { workspace := { project, cache := number, config } } :=
  ⟨Preview.accounts_empty, nofun, nofun⟩

/-- What is handed over is one of the documents that were held. -/
theorem perm_of_handOver {held rest : List Document} {document? : Option Document}
    (h : handOver held document? = some rest) : held.Perm (document?.toList ++ rest) := by
  cases document? with
  | none =>
    cases h
    exact .refl held
  | some document =>
    rw [handOver] at h
    split at h
    · next hmem =>
      cases h
      exact List.perm_cons_erase hmem
    · cases h

/-- What was built last can be handed over. -/
theorem handOver_append (held : List Document) (document? : Option Document) :
    handOver (document?.toList ++ held) document? = some held := by
  cases document? with
  | none => rfl
  | some document =>
    show (if document ∈ document :: held then some ((document :: held).erase document) else none) = _
    rw [if_pos List.mem_cons_self, List.erase_cons_head]

theorem step_build_eq_some {wanted? : Option Text}
    (h : client.step parser (.build wanted?) = some next) :
    ∃ result, (client.workspace.build parser wanted?).1 = .ok result
      ∧ next = { client with
          workspace := (client.workspace.build parser wanted?).2
          held := result.document?.toList ++ client.held } := by
  rw [step] at h
  rcases hbuild : client.workspace.build parser wanted? with ⟨breakdown | result, workspace⟩
  · rw [hbuild] at h
    cases h
  · rw [hbuild] at h
    cases h
    exact ⟨result, rfl, rfl⟩

theorem ticket_accept (session : Session) (registry : Registry) (ticket : Nat) (result : BuildResult) :
    (session.accept registry ticket result).2.1.ticket = session.ticket := by
  unfold Session.accept
  split
  · rfl
  · split <;> rfl

/-- Refreshing the page is beginning a build, building, and handing over the result. -/
theorem step_refresh_eq_some {wanted? : Option Text}
    (h : client.step parser (.refresh wanted?) = some next) :
    ∃ result between built, client.step parser .begin = some between
      ∧ between.step parser (.build wanted?) = some built
      ∧ (client.workspace.refresh parser wanted?).1 = .ok result
      ∧ built.step parser (.accept (client.workspace.session.ticket + 1) result) = some next := by
  let begun := client.workspace.session.ticket + 1
  have hrefresh : client.workspace.refresh parser wanted? =
      match client.workspace.begin.2.build parser wanted? with
      | (.ok result, built) => (.ok result, (built.accept begun result).2)
      | (.error breakdown, built) => (.error breakdown, built) := rfl
  rw [step, hrefresh] at h
  rw [hrefresh]
  rcases hbuild : client.workspace.begin.2.build parser wanted? with ⟨breakdown | result, workspace⟩
  · rw [hbuild] at h
    cases h
  · rw [hbuild] at h
    cases h
    -- the session of the workspace is the one in which the build has begun
    have hsession : workspace.session = client.workspace.begin.2.session := by
      rw [show workspace = (client.workspace.begin.2.build parser wanted?).2 by rw [hbuild]]
      rfl
    have hticket : (workspace.accept begun result).2.session.ticket = begun := by
      refine (ticket_accept workspace.session workspace.registry begun result).trans ?_
      rw [hsession]
      rfl
    refine ⟨result, ⟨client.workspace.begin.2, client.held, begun :: client.begun⟩,
      ⟨workspace, result.document?.toList ++ client.held, begun :: client.begun⟩, rfl, ?_, rfl, ?_⟩
    · rw [step, hbuild]
    · rw [step, handOver_append, Option.map_some, hticket]

section Accounted

theorem Accounted.begin (h : client.Accounted) (hstep : client.step parser .begin = some next) :
    next.Accounted := by
  cases hstep
  refine ⟨h.accounts, ?_, fun _ => rfl⟩
  show ∀ ticket ∈ (client.workspace.session.ticket + 1) :: client.begun, _
  rw [List.forall_mem_cons]
  exact ⟨Nat.le_refl _, fun ticket hmem => Nat.le_succ_of_le (h.le_ticket ticket hmem)⟩

theorem Accounted.build (h : client.Accounted) {wanted? : Option Text}
    (hstep : client.step parser (.build wanted?) = some next) : next.Accounted := by
  obtain ⟨result, hresult, rfl⟩ := step_build_eq_some hstep
  refine ⟨?_, h.le_ticket, h.head?_eq⟩
  exact (Accounts.build h.accounts hresult).perm (List.perm_append_comm_assoc _ _ _)

theorem Accounted.accept (h : client.Accounted) {ticket : Nat} {result : BuildResult}
    (hstep : client.step parser (.accept ticket result) = some next) : next.Accounted := by
  obtain ⟨held, hheld, rfl⟩ := Option.map_eq_some_iff.mp hstep
  have hticket := ticket_accept client.workspace.session client.workspace.registry ticket result
  have haccounts := h.accounts.perm ((perm_of_handOver hheld).append_left _)
  refine ⟨haccounts.accept ticket, ?_, ?_⟩
  · show ∀ begun ∈ client.begun, begun ≤ (client.workspace.session.accept _ _ _).2.1.ticket
    rw [hticket]
    exact h.le_ticket
  · show (client.workspace.session.accept _ _ _).2.1.ticket ∈ client.begun →
      client.begun.head? = some (client.workspace.session.accept _ _ _).2.1.ticket
    rw [hticket]
    exact h.head?_eq

theorem Accounted.release (h : client.Accounted) {document : Document}
    (hstep : client.step parser (.release document) = some next) : next.Accounted := by
  obtain ⟨held, hheld, rfl⟩ := Option.map_eq_some_iff.mp hstep
  have hperm := (perm_of_handOver hheld).append_left client.shown?.toList
  exact ⟨(h.accounts.perm (hperm.trans List.perm_middle)).release, h.le_ticket, h.head?_eq⟩

theorem Accounted.close (h : client.Accounted) (hstep : client.step parser .close = some next) :
    next.Accounted := by
  cases hstep
  refine ⟨h.accounts.releaseIfAny, fun ticket hmem => ?_, fun hmem => ?_⟩
  · exact Nat.le_succ_of_le (h.le_ticket ticket hmem)
  · -- the ticket that closing uses up belongs to no build
    exact absurd (h.le_ticket _ hmem) (Nat.not_succ_le_self _)

/-- **Every step keeps the accounts.** -/
theorem Accounted.step (h : client.Accounted) {action : Action}
    (hstep : client.step parser action = some next) : next.Accounted := by
  cases action with
  | project action =>
    cases hstep
    exact ⟨h.accounts, h.le_ticket, h.head?_eq⟩
  | begin => exact h.begin hstep
  | build wanted? => exact h.build hstep
  | refresh wanted? =>
    obtain ⟨result, between, built, hbegin, hbuild, -, haccept⟩ := step_refresh_eq_some hstep
    exact ((h.begin hbegin).build hbuild).accept haccept
  | accept ticket result => exact h.accept hstep
  | release document => exact h.release hstep
  | close => exact h.close hstep

/-- **Every run keeps the accounts.** -/
theorem Accounted.run (h : client.Accounted) {actions : List Action}
    (hrun : client.run parser actions = some next) : next.Accounted := by
  unfold Client.run at hrun
  induction actions generalizing client with
  | nil =>
    cases hrun
    exact h
  | cons action actions ih =>
    rw [List.foldlM_cons] at hrun
    obtain ⟨between, hstep, hrest⟩ := Option.bind_eq_some_iff.mp hrun
    exact ih (h.step hstep) hrest

end Accounted

/-! ## §4. What is on screen -/

/-- How an action may replace the document on screen. -/
inductive Replaces (parser : Parser) (client : Client) : Action → Option Document → Prop
  /-- The document of the build that has begun last, if the ticket is one of those given out. -/
  | accepted {ticket stamp : Nat} {document : Document}
      (hlatest : ticket ∈ client.begun → client.begun.head? = some ticket) :
      Replaces parser client (.accept ticket ⟨.ok document, stamp⟩) (some document)
  /-- The document of a build that has begun and ended with the action. -/
  | refreshed {wanted? : Option Text} {stamp : Nat} {document : Document}
      (hbuilt : (client.workspace.refresh parser wanted?).1 = .ok ⟨.ok document, stamp⟩) :
      Replaces parser client (.refresh wanted?) (some document)
  | closed : Replaces parser client .close none

/-- A result is put on screen only if it has a document and the current ticket. -/
theorem shown?_accept {ticket : Nat} {result : BuildResult}
    (hstep : client.step parser (.accept ticket result) = some next) :
    next.shown? = client.shown? ∨ ∃ document, result.outcome = .ok document
      ∧ next.shown? = some document ∧ ticket = client.workspace.session.ticket := by
  obtain ⟨held, -, rfl⟩ := Option.map_eq_some_iff.mp hstep
  show (client.workspace.session.accept client.workspace.registry ticket result).2.1.document? = _ ∨
    ∃ document, _ ∧ (client.workspace.session.accept client.workspace.registry ticket result).2.1.document? = _
      ∧ _
  unfold Session.accept
  split
  · exact .inl rfl
  · next hcurrent =>
    split
    · exact .inl rfl
    · next document hdocument =>
      exact .inr ⟨document, hdocument, rfl, Decidable.not_not.mp hcurrent⟩

theorem shown?_build {wanted? : Option Text} (hstep : client.step parser (.build wanted?) = some next) :
    next.shown? = client.shown? := by
  obtain ⟨result, -, rfl⟩ := step_build_eq_some hstep
  rfl

/-- **Only the result of the build that has begun last replaces the document on screen**, and
closing the page takes it away. -/
theorem Accounted.shown?_step (h : client.Accounted) {action : Action}
    (hstep : client.step parser action = some next) :
    next.shown? = client.shown? ∨ client.Replaces parser action next.shown? := by
  cases action with
  | project action =>
    cases hstep
    exact .inl rfl
  | begin =>
    cases hstep
    exact .inl rfl
  | build wanted? => exact .inl (shown?_build hstep)
  | refresh wanted? =>
    obtain ⟨result, between, built, hbegin, hbuild, hresult, haccept⟩ := step_refresh_eq_some hstep
    have hbegun : between.shown? = client.shown? := by
      cases hbegin
      rfl
    rcases shown?_accept haccept with hsame | ⟨document, hdocument, hshown, -⟩
    · exact .inl (hsame.trans ((shown?_build hbuild).trans hbegun))
    · obtain ⟨outcome, stamp⟩ := result
      cases hdocument
      rw [hshown]
      exact .inr (.refreshed hresult)
  | accept ticket result =>
    rcases shown?_accept hstep with hsame | ⟨document, hdocument, hshown, rfl⟩
    · exact .inl hsame
    · obtain ⟨outcome, stamp⟩ := result
      cases hdocument
      rw [hshown]
      exact .inr (.accepted h.head?_eq)
  | release document =>
    obtain ⟨held, -, rfl⟩ := Option.map_eq_some_iff.mp hstep
    exact .inl rfl
  | close =>
    cases hstep
    exact .inr .closed

/-! ## §5. Behind every run -/

theorem Accounted.isLive (h : client.Accounted) {document : Document}
    (hshown : client.shown? = some document) {reference : String}
    (hmem : reference ∈ document.references.values) :
    client.workspace.registry.isLive reference = true := by
  have hall : reference ∈ allReferences client.documents := by
    refine List.mem_flatMap.mpr ⟨document, ?_, hmem⟩
    rw [documents, hshown]
    exact List.mem_cons_self
  unfold Module.Registry.isLive
  rw [h.accounts.count_eq, decide_eq_true_eq]
  exact List.count_pos_iff.mpr hall

theorem Accounted.liveCount_eq_zero (h : client.Accounted) (hshown : client.shown? = none)
    (hheld : client.held = []) : client.workspace.registry.liveCount = 0 := by
  apply h.accounts.tidy.liveCount_eq_zero
  intro reference
  rw [h.accounts.count_eq, documents, hshown, hheld]
  rfl

/-- Behind every run of a client that starts with an empty registry and nothing on screen: each count
is the number of times that the document on screen and those that are held hold the reference; what
the document on screen holds is live; nothing is live when nothing is on screen or held, as when the
page is closed and everything has been handed over; and the next action replaces the document on
screen only by that of the build that has begun last, or takes it away by closing the page. -/
theorem accounts_of_run (parser : Parser) (project : Project) (number : Nat) (config : Config)
    {actions : List Action} {client : Client}
    (hrun : Client.run parser { workspace := { project, cache := number, config } } actions
      = some client) :
    (∀ reference, client.workspace.registry.count reference
        = (allReferences client.shown?.toList).count reference
          + (allReferences client.held).count reference)
      ∧ (∀ document, client.shown? = some document → ∀ reference ∈ document.references.values,
        client.workspace.registry.isLive reference = true)
      ∧ (client.shown? = none → client.held = [] → client.workspace.registry.liveCount = 0)
      ∧ (∀ next, client.step parser .close = some next → next.held = [] →
        next.workspace.registry.liveCount = 0)
      ∧ (∀ action next, client.step parser action = some next →
        next.shown? = client.shown? ∨ client.Replaces parser action next.shown?) := by
  have haccounted := (accounted_start project number config).run hrun
  refine ⟨fun reference => ?_, fun document hshown reference => haccounted.isLive hshown,
    haccounted.liveCount_eq_zero, fun next hstep hheld => ?_, fun action next => haccounted.shown?_step⟩
  · rw [haccounted.accounts.count_eq, documents, allReferences, List.flatMap_append, List.count_append]
    rfl
  · have hclosed : next.shown? = none := by
      cases hstep
      rfl
    exact (haccounted.step hstep).liveCount_eq_zero hclosed hheld

/-- The page of a script is built and put on screen. -/
theorem accounts_of_run_styled :
    ∃ document client,
      Client.run (fun _ _ => Preview.styledTree)
          { workspace := { project := Preview.styledProject, cache := 0, config := {} } }
          [.build (some "/a.js"), .begin,
            .accept 1 ⟨.ok document, Preview.styledProject.revision⟩] = some client
        ∧ client.shown? = some document
        ∧ ∀ reference ∈ document.references.values,
          client.workspace.registry.isLive reference = true := by
  obtain ⟨document, hbuild⟩ := Preview.exists_build_styled
  let workspace : Workspace := { project := Preview.styledProject, cache := 0, config := {} }
  let built := (workspace.build (fun _ _ => Preview.styledTree) (some "/a.js")).2
  let result : BuildResult := ⟨.ok document, Preview.styledProject.revision⟩
  have hbuilt : Client.step (fun _ _ => Preview.styledTree) { workspace } (.build (some "/a.js"))
      = some { workspace := built, held := [document] } := by
    have hanswer : workspace.build (fun _ _ => Preview.styledTree) (some "/a.js") = (.ok result, built) :=
      Prod.ext hbuild rfl
    rw [step, hanswer]
    rfl
  have haccepted : Client.step (fun _ _ => Preview.styledTree)
      { workspace := built.begin.2, held := [document], begun := [1] } (.accept 1 result)
      = some { workspace := (built.begin.2.accept 1 result).2, begun := [1] } := by
    have hheld : handOver [document] result.document? = some [] := handOver_append [] (some document)
    rw [step, hheld]
    rfl
  have hrun : Client.run (fun _ _ => Preview.styledTree) { workspace }
      [.build (some "/a.js"), .begin, .accept 1 result]
      = some { workspace := (built.begin.2.accept 1 result).2, begun := [1] } := by
    unfold Client.run
    rw [List.foldlM_cons, hbuilt]
    show (Client.step _ { workspace := built.begin.2, held := [document], begun := [1] } _ >>= pure) = _
    rw [haccepted]
    rfl
  exact ⟨document, _, hrun, rfl,
    (accounts_of_run (fun _ _ => Preview.styledTree) Preview.styledProject 0 {} hrun).2.1 document rfl⟩

end Client

end LivePreview
