/-!
Tables: associations in the order in which their keys were first entered.
Entering a key again replaces its value and keeps its place.
-/

namespace DecisionCycle

/-- An association of values with keys, in order of first entry. -/
structure Table (α β : Type) where
  rows : List (α × β)
  deriving DecidableEq

namespace Table

variable {α β : Type} [DecidableEq α]

def empty : Table α β := ⟨[]⟩

def get? (t : Table α β) (key : α) : Option β :=
  (t.rows.find? fun row => row.1 = key).map Prod.snd

/-- Rows with a key set: in its place if it is there, else at the end. -/
def putRow (key : α) (value : β) : List (α × β) → List (α × β)
  | [] => [(key, value)]
  | (k, v) :: rest =>
      if k = key then (key, value) :: rest else (k, v) :: putRow key value rest

def put (t : Table α β) (key : α) (value : β) : Table α β :=
  ⟨putRow key value t.rows⟩

@[simp] theorem get?_empty (key : α) : (empty : Table α β).get? key = none := rfl

@[simp] theorem get?_put (t : Table α β) (key : α) (value : β) (q : α) :
    (t.put key value).get? q = if q = key then some value else t.get? q := by
  obtain ⟨rows⟩ := t
  simp only [put, get?]
  induction rows with
  | nil => by_cases hq : key = q <;> simp [putRow, hq, eq_comm]
  | cons row rows ih =>
      obtain ⟨k, v⟩ := row
      by_cases hk : k = key
      · by_cases hq : key = q <;> simp_all [putRow, eq_comm]
      · by_cases hq : k = q
        · have hne : q ≠ key := fun h => hk (hq.trans h)
          simp [putRow, hq, hne]
        · simpa [putRow, hk, hq] using ih

theorem mem_of_get? {t : Table α β} {key : α} {value : β} (h : t.get? key = some value) :
    (key, value) ∈ t.rows := by
  obtain ⟨row, hrow, rfl⟩ := Option.map_eq_some_iff.mp h
  have hkey := List.find?_some hrow
  simp only [decide_eq_true_eq] at hkey
  exact hkey ▸ List.mem_of_find?_eq_some hrow

theorem mem_rows_put {t : Table α β} {key : α} {value : β} {row : α × β}
    (h : row ∈ (t.put key value).rows) : row = (key, value) ∨ row ∈ t.rows := by
  obtain ⟨rows⟩ := t
  simp only [put] at h ⊢
  induction rows with
  | nil => exact .inl (List.mem_singleton.mp h)
  | cons head rows ih =>
      obtain ⟨k, v⟩ := head
      unfold putRow at h
      split at h
      · rcases List.mem_cons.mp h with h | h
        · exact .inl h
        · exact .inr (List.mem_cons_of_mem _ h)
      · rcases List.mem_cons.mp h with rfl | h
        · exact .inr List.mem_cons_self
        · exact (ih h).imp_right (List.mem_cons_of_mem _)

def ofList (rows : List (α × β)) : Table α β :=
  rows.foldl (fun t row => t.put row.1 row.2) empty

def keys (t : Table α β) : List α :=
  t.rows.map Prod.fst

def values (t : Table α β) : List β :=
  t.rows.map Prod.snd

end Table

end DecisionCycle
