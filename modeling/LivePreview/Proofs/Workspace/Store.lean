/-
  LivePreview.Proofs.Workspace.Store
  ──────────────────────────────────
  **Stores, seen one workspace at a time.**

  Creating, changing and deleting a workspace touch nothing that stands under another
  id.  So what a store holds under one id (`Store.only`) can be followed on its own: an
  operation on this id does the same to it as to the whole store, and an operation on
  another id leaves it as it is.  The one thing that workspaces have in common is the
  limit, which the whole store reaches first.
-/
import LivePreview.Proofs.Table
import LivePreview.Workspace.Store

namespace LivePreview.Workspace.Store

variable {store after : Store} {id other : String} {workspace closed : Workspace}

/-! ## §1. What is under an id -/

/-- The ids of the workspaces, in the order of their creation. -/
def ids (store : Store) : List String :=
  store.workspaces.map Prod.fst

theorem ids_set (store : Store) (id : String) (workspace : Workspace) :
    (store.set id workspace).ids = store.ids := by
  unfold ids set
  rw [List.map_map]
  refine List.map_congr_left fun entry _ => ?_
  show (if entry.1 = id then (entry.1, workspace) else (entry.1, entry.2)).1 = entry.1
  split <;> rfl

/-- What is put in place of a workspace is found under its id, and the others are what they were. -/
theorem get?_set (store : Store) (id : String) (workspace : Workspace) (other : String) :
    (store.set id workspace).get? other
      = if other = id then (store.get? id).map fun _ => workspace else store.get? other := by
  show Table.get? (store.workspaces.map _) other
    = if other = id then (Table.get? store.workspaces id).map fun _ => workspace
      else Table.get? store.workspaces other
  induction store.workspaces with
  | nil => split <;> rfl
  | cons entry entries ih =>
    obtain ⟨key, value⟩ := entry
    rw [List.map_cons, Table.get?_cons, Table.get?_cons]
    dsimp only
    by_cases hkey : key = id
    · subst hkey
      rw [if_pos rfl, Table.get?_cons, ih]
      by_cases hother : other = key
      · simp [hother]
      · simp [hother]
    · rw [if_neg hkey, if_neg (Ne.symm hkey), Table.get?_cons, ih]
      by_cases hother : other = key
      · simp [hother, hkey]
      · simp [hother]

theorem get?_set_self (hget : store.get? id = some closed) :
    (store.set id workspace).get? id = some workspace := by
  rw [get?_set, if_pos rfl, hget]
  rfl

theorem get?_set_of_ne (h : other ≠ id) : (store.set id workspace).get? other = store.get? other := by
  rw [get?_set, if_neg h]

theorem isSome_get?_set (hget : (store.get? other).isSome = true) :
    ((store.set id workspace).get? other).isSome = true := by
  rw [get?_set]
  split
  · next heq =>
    rw [← heq, Option.isSome_map]
    exact hget
  · exact hget

section Properties

variable {P : Workspace → Prop} (hall : ∀ entry ∈ store.workspaces, P entry.2)
include hall

theorem forall_get? (hget : store.get? id = some workspace) : P workspace := by
  obtain ⟨entry, hmem, rfl⟩ := List.mem_map.mp (Table.mem_values_of_get? hget)
  exact hall entry hmem

theorem forall_set (hnew : P workspace) : ∀ entry ∈ (store.set id workspace).workspaces, P entry.2 := by
  intro entry hmem
  obtain ⟨before, hbefore, rfl⟩ := List.mem_map.mp hmem
  dsimp only
  split
  · exact hnew
  · exact hall before hbefore

end Properties

/-! ## §2. Creating and deleting -/

variable {snapshot? : Option Tree.Snapshot}

/-- A workspace is created while the limit has not been reached, and stands behind all others. -/
theorem create_eq_ok (hok : store.create id snapshot? = (.ok workspace, after)) :
    store.workspaces.length < store.limit ∧ ∃ project, seed snapshot? = .ok project ∧
      workspace = start project {} store.config ∧
      after = { store with workspaces := store.workspaces ++ [(id, workspace)] } := by
  unfold create at hok
  split at hok
  · cases hok
  · next hlimit =>
    split at hok
    · cases hok
    · next project hseed =>
      cases hok
      exact ⟨Int.not_le.mp hlimit, project, hseed, rfl, rfl⟩

theorem create_eq_error {fault : CreateFault} (hfault : store.create id snapshot? = (.error fault, after)) :
    after = store := by
  unfold create at hfault
  split at hfault
  · cases hfault
    rfl
  · split at hfault <;> cases hfault
    rfl

/-- A workspace that leaves the store is closed. -/
theorem delete_eq_some (hsome : store.delete id = (some closed, after)) :
    ∃ workspace, store.get? id = some workspace ∧ closed = workspace.close ∧
      after = { store with workspaces := store.workspaces.filter fun (key, _) => key != id } := by
  unfold delete at hsome
  split at hsome
  · cases hsome
  · next workspace hget =>
    cases hsome
    exact ⟨workspace, hget, rfl, rfl⟩

theorem delete_eq_none (hnone : store.delete id = (none, after)) : after = store := by
  unfold delete at hnone
  split at hnone <;> cases hnone
  rfl

/-- A workspace that has been deleted is not found any more. -/
theorem get?_delete_self (store : Store) (id : String) : (store.delete id).2.get? id = none := by
  unfold delete
  split
  · next hnone => exact hnone
  · refine Option.not_isSome_iff_eq_none.mp fun hsome => ?_
    obtain ⟨entry, hentry, heq⟩ := List.mem_map.mp (Table.mem_keys_iff.mpr hsome)
    exact bne_iff_ne.mp (List.mem_filter.mp hentry).2 heq

/-- A new workspace is found under its id. -/
theorem isSome_get?_create (hok : store.create id snapshot? = (.ok workspace, after)) :
    (after.get? id).isSome = true := by
  obtain ⟨-, project, -, -, rfl⟩ := create_eq_ok hok
  refine Table.mem_keys_iff.mp (List.mem_map.mpr ⟨(id, workspace), ?_, rfl⟩)
  exact List.mem_append_right _ List.mem_cons_self

/-- Under an id that is not in use yet the store has the workspace that was created. -/
theorem get?_create (hnew : store.get? id = none) (hok : store.create id snapshot? = (.ok workspace, after)) :
    after.get? id = some workspace := by
  obtain ⟨-, project, -, -, rfl⟩ := create_eq_ok hok
  have hkeys : id ∉ Table.keys store.workspaces := fun hmem =>
    Option.isSome_iff_ne_none.mp (Table.mem_keys_iff.mp hmem) hnew
  show Table.get? (store.workspaces ++ [(id, workspace)]) id = some workspace
  rw [← Table.insert_of_notMem hkeys, Table.get?_insert_self]

/-- Creating a workspace takes away none. -/
theorem isSome_get?_create_of_isSome (hget : (store.get? other).isSome = true) :
    ((store.create id snapshot?).2.get? other).isSome = true := by
  rcases hcreate : store.create id snapshot? with ⟨fault | workspace, after⟩
  · rw [create_eq_error hcreate]
    exact hget
  · obtain ⟨-, project, -, -, rfl⟩ := create_eq_ok hcreate
    refine Table.mem_keys_iff.mp ?_
    show other ∈ (store.workspaces ++ [(id, workspace)]).map Prod.fst
    rw [List.map_append]
    exact List.mem_append_left _ (Table.mem_keys_iff.mpr hget)

/-! ## §3. The part of a store with one id -/

/-- What the store holds under one id. -/
def only (store : Store) (id : String) : Store :=
  { store with workspaces := store.workspaces.filter fun (key, _) => key == id }

theorem get?_only (store : Store) (id : String) : (store.only id).get? id = store.get? id := by
  show Table.get? (store.workspaces.filter fun (key, _) => key == id) id = Table.get? store.workspaces id
  induction store.workspaces with
  | nil => rfl
  | cons entry entries ih =>
    obtain ⟨key, value⟩ := entry
    rw [List.filter_cons, Table.get?_cons]
    dsimp only
    by_cases hkey : key = id
    · rw [if_pos (beq_iff_eq.mpr hkey), Table.get?_cons, ih]
    · rw [if_neg (mt beq_iff_eq.mp hkey), if_neg (Ne.symm hkey), ih]

theorem get?_eq_of_only (h : after.only id = store.only id) : after.get? id = store.get? id := by
  rw [← get?_only, h, get?_only]

/-- Putting a workspace in place of another one leaves the ids as they are, and so the choice by id. -/
theorem filter_set (store : Store) (id : String) (workspace : Workspace) (keeps : String → Bool) :
    (store.set id workspace).workspaces.filter (fun (key, _) => keeps key)
      = (store.workspaces.filter fun (key, _) => keeps key).map fun (key, value) =>
        if key = id then (key, workspace) else (key, value) := by
  unfold set
  dsimp only
  rw [List.filter_map]
  congr 1
  refine List.filter_congr fun entry _ => ?_
  show keeps (if entry.1 = id then (entry.1, workspace) else (entry.1, entry.2)).1 = keeps entry.1
  split <;> rfl

theorem only_set_self (store : Store) (id : String) (workspace : Workspace) :
    (store.set id workspace).only id = (store.only id).set id workspace := by
  unfold only
  rw [filter_set store id workspace (· == id)]
  rfl

theorem only_set_of_ne (h : other ≠ id) : (store.set id workspace).only other = store.only other := by
  have hsame : ∀ entry ∈ store.workspaces.filter fun (key, _) => key == other,
      (if entry.1 = id then (entry.1, workspace) else (entry.1, entry.2)) = entry := by
    intro entry hentry
    have hkey : entry.1 = other := beq_iff_eq.mp (List.mem_filter.mp hentry).2
    rw [if_neg (hkey ▸ h)]
  unfold only
  rw [filter_set store id workspace (· == other)]
  show ({ store with workspaces := _ } : Store) = { store with workspaces := _ }
  rw [List.map_congr_left hsame, List.map_id']

theorem length_only_le (store : Store) (id : String) :
    (store.only id).workspaces.length ≤ store.workspaces.length :=
  List.length_filter_le _ _

/-- As long as the store has room for a new workspace, so has each part of it. -/
theorem create_only (hroom : store.workspaces.length < store.limit) :
    (store.only id).create id snapshot?
      = ((store.create id snapshot?).1, (store.create id snapshot?).2.only id) := by
  have hlength : ((store.only id).workspaces.length : Int) ≤ store.workspaces.length :=
    Int.ofNat_le.mpr (store.length_only_le id)
  have hpart : ¬(store.only id).limit ≤ (store.only id).workspaces.length :=
    Int.not_le.mpr (Int.lt_of_le_of_lt hlength hroom)
  unfold create
  rw [if_neg hpart, if_neg (Int.not_le.mpr hroom)]
  cases seed snapshot? with
  | error error => rfl
  | ok project =>
    unfold only
    dsimp only
    rw [List.filter_append, List.filter_cons, if_pos (BEq.rfl : (id == id) = true)]
    rfl

theorem only_create_of_ne (h : other ≠ id) :
    (store.create id snapshot?).2.only other = store.only other := by
  rcases hcreate : store.create id snapshot? with ⟨fault | workspace, after⟩
  · rw [create_eq_error hcreate]
  · obtain ⟨-, project, -, -, rfl⟩ := create_eq_ok hcreate
    unfold only
    dsimp only
    rw [List.filter_append, List.filter_cons, if_neg (mt beq_iff_eq.mp h.symm), List.filter_nil,
      List.append_nil]

theorem delete_only (store : Store) (id : String) :
    (store.only id).delete id = ((store.delete id).1, (store.delete id).2.only id) := by
  unfold delete
  rw [get?_only]
  cases store.get? id with
  | none => rfl
  | some workspace =>
    unfold only
    dsimp only
    rw [List.filter_filter, List.filter_filter]
    congr 2
    exact List.filter_congr fun entry _ => Bool.and_comm _ _

theorem only_delete_of_ne (h : other ≠ id) : (store.delete id).2.only other = store.only other := by
  rcases hdelete : store.delete id with ⟨_ | closed, after⟩
  · rw [delete_eq_none hdelete]
  · obtain ⟨workspace, -, -, rfl⟩ := delete_eq_some hdelete
    unfold only
    dsimp only
    rw [List.filter_filter]
    congr 1
    refine List.filter_congr fun entry _ => ?_
    show ((entry.1 == other) && (entry.1 != id)) = (entry.1 == other)
    by_cases hkey : entry.1 = other
    · simp [hkey, h]
    · simp [hkey]

end LivePreview.Workspace.Store
