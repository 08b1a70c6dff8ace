/-
  LivePreview.Proofs.Table
  ────────────────────────
  **What is under a key of a table.**

  Entering a value under a key is seen at that key and nowhere else (`get?_insert`).
  A key is in a table if something is under it (`mem_keys_iff`), and it stays there
  whatever is entered.  A new key stands behind all others with its value
  (`insert_of_notMem`).  Where several pairs are entered, they win over what was there
  (`get?_insertAll`).
-/
import LivePreview.Table

namespace LivePreview.Table

variable {α κ : Type} [DecidableEq κ] {table : Table α κ}

/-! ## §1. Entering one pair -/

theorem get?_cons (key : κ) (value : α) (rest : Table α κ) (other : κ) :
    Table.get? ((key, value) :: rest) other
      = if other = key then some value else rest.get? other := by
  unfold get?
  rw [List.lookup_cons]
  by_cases heq : other = key
  · simp [heq]
  · simp [heq, beq_false_of_ne heq]

/-- **Entering a value is seen at its key alone.** -/
theorem get?_insert (table : Table α κ) (key : κ) (value : α) (other : κ) :
    (table.insert key value).get? other = if other = key then some value else table.get? other := by
  induction table with
  | nil => exact get?_cons key value [] other
  | cons pair rest ih =>
    obtain ⟨k, v⟩ := pair
    unfold insert
    by_cases hkey : k = key
    · rw [if_pos hkey, get?_cons, get?_cons, hkey]
      by_cases heq : other = key
      · simp [heq]
      · simp [heq]
    · rw [if_neg hkey, get?_cons, get?_cons, ih]
      -- the entry in front is under another key than the one that is entered
      by_cases heq : other = k
      · have hne : other ≠ key := heq ▸ hkey
        simp [heq, hkey]
      · simp [heq]

theorem get?_insert_self (table : Table α κ) (key : κ) (value : α) :
    (table.insert key value).get? key = some value := by
  rw [get?_insert, if_pos rfl]

theorem mem_keys_iff {key : κ} : key ∈ table.keys ↔ (table.get? key).isSome = true := by
  induction table with
  | nil => simp [keys, get?]
  | cons pair rest ih =>
    show key ∈ pair.1 :: keys rest ↔ _
    rw [get?_cons, List.mem_cons, ih]
    by_cases heq : key = pair.1
    · simp [heq]
    · simp [heq]

theorem mem_keys_of_get? {key : κ} {value : α} (h : table.get? key = some value) :
    key ∈ table.keys :=
  mem_keys_iff.mpr (by rw [h, Option.isSome_some])

theorem mem_keys_insert {key other : κ} {value : α} :
    other ∈ (table.insert key value).keys ↔ other = key ∨ other ∈ table.keys := by
  rw [mem_keys_iff, mem_keys_iff, get?_insert]
  by_cases heq : other = key
  · simp [heq]
  · simp [heq]

theorem mem_values_insert {key : κ} {value other : α}
    (h : other ∈ (table.insert key value).values) : other = value ∨ other ∈ table.values := by
  induction table with
  | nil => exact .inl (List.mem_singleton.mp h)
  | cons pair rest ih =>
    obtain ⟨k, v⟩ := pair
    unfold insert at h
    by_cases hkey : k = key
    · rw [if_pos hkey] at h
      exact (List.mem_cons.mp h).imp_right (List.mem_cons_of_mem _)
    · rw [if_neg hkey] at h
      show _ ∨ other ∈ v :: values rest
      rw [List.mem_cons]
      rcases List.mem_cons.mp h with heq | hmem
      · exact .inr (.inl heq)
      · exact (ih hmem).imp_right .inr

/-- A new key goes to the end. -/
theorem insert_of_notMem {key : κ} (h : key ∉ table.keys) (value : α) :
    table.insert key value = table ++ [(key, value)] := by
  induction table with
  | nil => rfl
  | cons pair rest ih =>
    obtain ⟨k, v⟩ := pair
    rw [show keys ((k, v) :: rest) = k :: keys rest from rfl, List.mem_cons, not_or] at h
    unfold insert
    rw [if_neg (Ne.symm h.1), ih h.2, List.cons_append]

theorem values_insert_of_notMem {key : κ} (h : key ∉ table.keys) (value : α) :
    (table.insert key value).values = table.values ++ [value] := by
  rw [insert_of_notMem h]
  exact List.map_append

theorem keys_insert_of_notMem {key : κ} (h : key ∉ table.keys) (value : α) :
    (table.insert key value).keys = table.keys ++ [key] := by
  rw [insert_of_notMem h]
  exact List.map_append

/-- Entering a value under a present key leaves the keys as they are. -/
theorem keys_insert_of_mem {key : κ} (h : key ∈ table.keys) (value : α) :
    (table.insert key value).keys = table.keys := by
  induction table with
  | nil => cases h
  | cons pair rest ih =>
    obtain ⟨k, v⟩ := pair
    unfold insert
    by_cases hkey : k = key
    · rw [if_pos hkey]
      rfl
    · rw [if_neg hkey]
      have hrest : key ∈ keys rest := (List.mem_cons.mp h).resolve_left (Ne.symm hkey)
      exact congrArg (k :: ·) (ih hrest)

/-- No key is repeated by entering one. -/
theorem nodup_keys_insert (h : table.keys.Nodup) (key : κ) (value : α) :
    (table.insert key value).keys.Nodup := by
  by_cases hmem : key ∈ table.keys
  · rwa [keys_insert_of_mem hmem]
  · rw [keys_insert_of_notMem hmem]
    exact List.nodup_append.mpr ⟨h, List.pairwise_singleton _ _, fun other hother last hlast heq =>
      hmem (List.mem_singleton.mp hlast ▸ heq ▸ hother)⟩

theorem get?_of_mem (h : table.keys.Nodup) {key : κ} {value : α} (hmem : (key, value) ∈ table) :
    table.get? key = some value := by
  induction table with
  | nil => cases hmem
  | cons pair rest ih =>
    obtain ⟨k, v⟩ := pair
    obtain ⟨hnew, hrest⟩ := List.nodup_cons.mp h
    rw [get?_cons]
    rcases List.mem_cons.mp hmem with heq | hlater
    · obtain ⟨rfl, rfl⟩ := Prod.mk.inj heq
      rw [if_pos rfl]
    · have hne : key ≠ k := by
        rintro rfl
        exact hnew (List.mem_map.mpr ⟨_, hlater, rfl⟩)
      rw [if_neg hne]
      exact ih hrest hlater

/-! ## §2. Entering several pairs -/

section InsertAll

variable {pairs : List (κ × α)}

theorem nodup_keys_insertAll (h : table.keys.Nodup) (pairs : List (κ × α)) :
    (table.insertAll pairs).keys.Nodup := by
  unfold insertAll
  induction pairs generalizing table with
  | nil => exact h
  | cons pair pairs ih => exact ih (nodup_keys_insert h pair.1 pair.2)

theorem mem_keys_insertAll {key : κ} :
    key ∈ (table.insertAll pairs).keys ↔ key ∈ table.keys ∨ key ∈ Table.keys pairs := by
  unfold insertAll
  induction pairs generalizing table with
  | nil => simp [keys]
  | cons pair pairs ih =>
    rw [List.foldl_cons, ih, mem_keys_insert, show keys (pair :: pairs) = pair.1 :: keys pairs from rfl,
      List.mem_cons]
    constructor
    · rintro ((heq | htable) | hpairs)
      · exact .inr (.inl heq)
      · exact .inl htable
      · exact .inr (.inr hpairs)
    · rintro (htable | heq | hpairs)
      · exact .inl (.inr htable)
      · exact .inl (.inl heq)
      · exact .inr hpairs

theorem mem_values_insertAll {value : α} (h : value ∈ (table.insertAll pairs).values) :
    value ∈ table.values ∨ value ∈ Table.values pairs := by
  unfold insertAll at h
  induction pairs generalizing table with
  | nil => exact .inl h
  | cons pair pairs ih =>
    show _ ∨ value ∈ pair.2 :: values pairs
    rw [List.mem_cons]
    rcases ih h with hmem | hmem
    · rcases mem_values_insert hmem with rfl | hmem
      · exact .inr (.inl rfl)
      · exact .inl hmem
    · exact .inr (.inr hmem)

/-- **What is entered last is what is there**, and under all other keys the table is as it was. -/
theorem get?_insertAll (h : (Table.keys pairs).Nodup) (key : κ) :
    (table.insertAll pairs).get? key = (Table.get? pairs key).or (table.get? key) := by
  unfold insertAll
  induction pairs generalizing table with
  | nil => rfl
  | cons pair pairs ih =>
    obtain ⟨k, v⟩ := pair
    obtain ⟨hnew, hrest⟩ := List.nodup_cons.mp h
    rw [List.foldl_cons, ih hrest, get?_insert, get?_cons]
    by_cases heq : key = k
    · have hnone : Table.get? pairs key = none := by
        rw [← Option.not_isSome_iff_eq_none, ← mem_keys_iff, heq]
        exact hnew
      rw [if_pos heq, if_pos heq, hnone]
      rfl
    · rw [if_neg heq, if_neg heq]

/-- Pairs with different keys make up a table as they are. -/
theorem ofPairs_of_nodup (h : (Table.keys pairs).Nodup) : ofPairs pairs = pairs := by
  have happend : ∀ table : Table α κ, (Table.keys (table ++ pairs)).Nodup →
      table.insertAll pairs = table ++ pairs := by
    unfold insertAll
    clear h
    induction pairs with
    | nil => exact fun table _ => (List.append_nil table).symm
    | cons pair pairs ih =>
      obtain ⟨key, value⟩ := pair
      intro table hnodup
      have hnew : key ∉ table.keys := by
        intro hmem
        rw [show keys (table ++ (key, value) :: pairs) = table.keys ++ key :: keys pairs from List.map_append]
          at hnodup
        exact (List.nodup_append.mp hnodup).2.2 _ hmem _ List.mem_cons_self rfl
      have hassoc : table ++ [(key, value)] ++ pairs = table ++ (key, value) :: pairs :=
        List.append_assoc table [(key, value)] pairs
      rw [List.foldl_cons]
      show List.foldl _ (table.insert key value) pairs = _
      rw [insert_of_notMem hnew, ih _ (by rwa [hassoc]), hassoc]
  exact happend [] h

end InsertAll

/-! ## §3. Values -/

section Map

variable {β : Type} (f : α → β)

omit [DecidableEq κ] in
theorem keys_map (table : Table α κ) : Table.keys (table.map fun pair => (pair.1, f pair.2)) = table.keys := by
  show (table.map _).map Prod.fst = table.map Prod.fst
  rw [List.map_map]
  rfl

theorem get?_map (table : Table α κ) (key : κ) :
    Table.get? (table.map fun pair => (pair.1, f pair.2)) key = (table.get? key).map f := by
  induction table with
  | nil => rfl
  | cons pair rest ih =>
    rw [List.map_cons, get?_cons, get?_cons, ih]
    split <;> rfl

theorem insert_map (table : Table α κ) (key : κ) (value : α) :
    Table.insert key (f value) (table.map fun pair => (pair.1, f pair.2))
      = (table.insert key value).map fun pair => (pair.1, f pair.2) := by
  induction table with
  | nil => rfl
  | cons pair rest ih =>
    obtain ⟨k, v⟩ := pair
    rw [List.map_cons]
    unfold insert
    split
    · rfl
    · rw [ih]
      rfl

/-- Values may be translated before they are entered, or behind it. -/
theorem ofPairs_map (pairs : List (κ × α)) :
    Table.ofPairs (pairs.map fun pair => (pair.1, f pair.2))
      = (ofPairs pairs).map fun pair => (pair.1, f pair.2) := by
  have hall : ∀ table : Table α κ,
      Table.insertAll (table.map fun pair => (pair.1, f pair.2)) (pairs.map fun pair => (pair.1, f pair.2))
        = (table.insertAll pairs).map fun pair => (pair.1, f pair.2) := by
    unfold insertAll
    induction pairs with
    | nil => exact fun _ => rfl
    | cons pair pairs ih =>
      intro table
      rw [List.map_cons, List.foldl_cons, List.foldl_cons, ← ih, ← insert_map]
  exact hall []

end Map

/-- What is under a key is one of the values. -/
theorem mem_values_of_get? {key : κ} {value : α} (h : table.get? key = some value) :
    value ∈ table.values := by
  induction table with
  | nil => cases h
  | cons pair rest ih =>
    rw [get?_cons] at h
    split at h
    · cases h
      exact List.mem_cons_self
    · exact List.mem_cons_of_mem _ (ih h)

end LivePreview.Table
