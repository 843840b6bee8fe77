import DecisionCycle.Table
import Mathlib.Tactic

/-!
Tables entered row by row. A key keeps the place of its first entry and has the value
of its last one. Where the value of a row hangs on its key alone, the table is the
list of the keys without repetition.
-/

namespace DecisionCycle

/-! ### Lists -/

section Lists

theorem perm_eq_nil_iff {α : Type} {l l' : List α} (h : l.Perm l') : l = [] ↔ l' = [] := by
  rw [← List.perm_nil, ← List.perm_nil]
  exact h.congr_left []

theorem any_congr_of_mem {α : Type} {p q : α → Bool} {l : List α} (h : ∀ a ∈ l, p a = q a) :
    l.any p = l.any q := by
  rw [Bool.eq_iff_iff, List.any_eq_true, List.any_eq_true]
  exact exists_congr fun a => and_congr_right fun ha => by rw [h a ha]

theorem map_filterMap_eq_filter {α β : Type} {entry : α → Option β} {name : β → α}
    (hname : ∀ a b, entry a = some b → name b = a) (l : List α) :
    (l.filterMap entry).map name = l.filter fun a => (entry a).isSome := by
  rw [List.map_filterMap, ← List.filterMap_eq_filter]
  refine List.filterMap_congr fun a _ => ?_
  cases h : entry a with
  | none => simp [Option.guard, h]
  | some b => simp [Option.guard, h, hname a b h]

theorem filterMap_concat {α β : Type} (f : α → Option β) (l : List α) (a : α) :
    (l ++ [a]).filterMap f = l.filterMap f ++ (f a).toList := by
  rw [List.filterMap_append]
  cases h : f a <;> simp [h]

theorem getLast?_filterMap_concat {α β : Type} (f : α → Option β) (l : List α) (a : α) :
    ((l ++ [a]).filterMap f).getLast? = (f a).or (l.filterMap f).getLast? := by
  rw [filterMap_concat, List.getLast?_append]
  cases f a <;> rfl

variable {α : Type} [DecidableEq α]

theorem eraseDups_concat (l : List α) (a : α) :
    (l ++ [a]).eraseDups = if a ∈ l then l.eraseDups else l.eraseDups ++ [a] := by
  rw [List.eraseDups_append]
  split
  · simp [List.removeAll, *]
  · have hsingle : [a].eraseDups = [a] := by rw [List.eraseDups_cons]; rfl
    simp [List.removeAll, *]

theorem nodup_eraseDups (l : List α) : l.eraseDups.Nodup := by
  induction l using List.reverseRecOn with
  | nil => exact List.nodup_nil
  | append_singleton l a ih =>
      rw [eraseDups_concat]
      split
      · exact ih
      · exact ih.append (List.nodup_singleton a) (by simpa [List.mem_eraseDups])

theorem filter_eraseDups (p : α → Bool) (l : List α) :
    l.eraseDups.filter p = (l.filter p).eraseDups := by
  induction l using List.reverseRecOn with
  | nil => rfl
  | append_singleton l a ih =>
      rw [eraseDups_concat, List.filter_append]
      by_cases ha : a ∈ l <;> by_cases hp : p a = true <;>
        simp [ha, hp, ih, List.filter_append, eraseDups_concat]

/-- The second list has the members of the first, each once, in the order in which they
come first there. -/
structure FirstOccurrences (l names : List α) : Prop where
  mem_iff {a : α} : a ∈ names ↔ a ∈ l
  ordered : names.Pairwise fun a b => l.idxOf a < l.idxOf b

theorem firstOccurrences_eraseDups (l : List α) : FirstOccurrences l l.eraseDups := by
  refine ⟨List.mem_eraseDups, ?_⟩
  induction l using List.reverseRecOn with
  | nil => exact List.Pairwise.nil
  | append_singleton l a ih =>
      have hbefore : l.eraseDups.Pairwise fun b c => (l ++ [a]).idxOf b < (l ++ [a]).idxOf c := by
        refine ih.imp_of_mem fun hb hc hlt => ?_
        rwa [List.idxOf_append_of_mem (List.mem_eraseDups.mp hb),
          List.idxOf_append_of_mem (List.mem_eraseDups.mp hc)]
      rw [eraseDups_concat]
      split
      case isTrue => exact hbefore
      case isFalse ha =>
        refine List.pairwise_append.mpr ⟨hbefore, List.pairwise_singleton _ a, ?_⟩
        intro b hb c hc
        have hb : b ∈ l := List.mem_eraseDups.mp hb
        rw [List.mem_singleton.mp hc, List.idxOf_append_of_mem hb, List.idxOf_append_of_notMem ha]
        exact (List.idxOf_lt_length_of_mem hb).trans_le (Nat.le_add_right _ _)

theorem filter_append_others_perm (p : α → Bool) (l : List α) :
    (l.filter p ++ l.filter fun a => !(l.filter p).contains a).Perm l := by
  have hothers : (l.filter fun a => !(l.filter p).contains a) = l.filter fun a => !p a :=
    List.filter_congr fun a ha => by simp [ha]
  rw [hothers]
  exact List.filter_append_perm p l

end Lists

namespace Table

variable {α β : Type} [DecidableEq α]

theorem get?_eq_some_iff {t : Table α β} (hkeys : t.keys.Nodup) {key : α} {value : β} :
    t.get? key = some value ↔ (key, value) ∈ t.rows := by
  refine ⟨mem_of_get?, fun hmem => ?_⟩
  cases hfound : t.get? key with
  | none =>
      rw [get?, Option.map_eq_none_iff, List.find?_eq_none] at hfound
      exact absurd (decide_eq_true rfl) (hfound _ hmem)
  | some value' =>
      have hsame := List.inj_on_of_nodup_map hkeys (mem_of_get? hfound) hmem rfl
      rw [(Prod.mk.inj hsame).2]

theorem get?_eq_of_perm {t t' : Table α β} (h : t'.rows.Perm t.rows) (hkeys : t.keys.Nodup)
    (key : α) : t'.get? key = t.get? key := by
  have hkeys' : t'.keys.Nodup := (h.map Prod.fst).nodup_iff.mpr hkeys
  ext value
  rw [get?_eq_some_iff hkeys', get?_eq_some_iff hkeys, h.mem_iff]

theorem ofList_concat (rows : List (α × β)) (row : α × β) :
    ofList (rows ++ [row]) = (ofList rows).put row.1 row.2 := by
  simp [ofList]

theorem keys_put (t : Table α β) (key : α) (value : β) :
    (t.put key value).keys = if key ∈ t.keys then t.keys else t.keys ++ [key] := by
  obtain ⟨rows⟩ := t
  simp only [put, keys]
  induction rows with
  | nil => rfl
  | cons row rows ih =>
      obtain ⟨k, v⟩ := row
      by_cases hk : k = key
      · simp [putRow, hk]
      · rw [putRow, if_neg hk, List.map_cons, ih]
        by_cases hmem : key ∈ rows.map Prod.fst <;> simp [hmem, Ne.symm hk]

theorem keys_ofList (rows : List (α × β)) :
    (ofList rows).keys = (rows.map Prod.fst).eraseDups := by
  induction rows using List.reverseRecOn with
  | nil => rfl
  | append_singleton rows row ih =>
      rw [ofList_concat, keys_put, ih, List.map_append, List.map_singleton, eraseDups_concat]
      simp only [List.mem_eraseDups]

/-- The last of several rows with one key counts. -/
theorem get?_ofList (rows : List (α × β)) (key : α) :
    (ofList rows).get? key = ((rows.filter fun row => row.1 = key).getLast?).map Prod.snd := by
  induction rows using List.reverseRecOn with
  | nil => rfl
  | append_singleton rows row ih =>
      rw [ofList_concat, get?_put, ih, List.filter_append]
      by_cases h : row.1 = key
      · simp [h]
      · simp [h, Ne.symm h]

theorem isSome_get?_ofList {rows : List (α × β)} {key : α} :
    ((ofList rows).get? key).isSome = true ↔ key ∈ rows.map Prod.fst := by
  rw [get?_ofList, Option.isSome_map, List.getLast?_isSome]
  simp [List.filter_eq_nil_iff]

theorem mem_rows_ofList {rows : List (α × β)} {row : α × β} (h : row ∈ (ofList rows).rows) :
    row ∈ rows := by
  induction rows using List.reverseRecOn with
  | nil => cases h
  | append_singleton rows last ih =>
      rw [ofList_concat] at h
      rcases mem_rows_put h with rfl | h
      · exact List.mem_append_right rows (List.mem_singleton_self _)
      · exact List.mem_append_left _ (ih h)

theorem mem_of_get?_ofList {rows : List (α × β)} {key : α} {value : β}
    (h : (ofList rows).get? key = some value) : (key, value) ∈ rows :=
  mem_rows_ofList (mem_of_get? h)

theorem get?_ofList_of_nodup {rows : List (α × β)} (h : (rows.map Prod.fst).Nodup)
    {row : α × β} (hrow : row ∈ rows) : (ofList rows).get? row.1 = some row.2 := by
  obtain ⟨value, hvalue⟩ := Option.isSome_iff_exists.mp
    (isSome_get?_ofList.mpr (List.mem_map_of_mem (f := Prod.fst) hrow))
  have hsame : row = (row.1, value) :=
    List.inj_on_of_nodup_map h hrow (mem_of_get?_ofList hvalue) rfl
  rw [hvalue, hsame]

theorem get?_ofList_map (f : α → β) (keys : List α) (key : α) :
    (ofList (keys.map fun a => (a, f a))).get? key =
      if key ∈ keys then some (f key) else none := by
  induction keys using List.reverseRecOn with
  | nil => rfl
  | append_singleton keys a ih =>
      rw [List.map_append, List.map_singleton, ofList_concat, get?_put, ih]
      by_cases h : key = a <;> simp [h]

theorem rows_ofList_map (f : α → β) (keys : List α) :
    (ofList (keys.map fun a => (a, f a))).rows = keys.eraseDups.map fun a => (a, f a) := by
  have hkeys : (ofList (keys.map fun a => (a, f a))).keys = keys.eraseDups := by
    rw [keys_ofList, List.map_map]
    exact congrArg List.eraseDups (List.map_id keys)
  have hrow : ∀ row ∈ (ofList (keys.map fun a => (a, f a))).rows, row = (row.1, f row.1) := by
    intro row hrow
    obtain ⟨a, -, rfl⟩ := List.mem_map.mp (mem_rows_ofList hrow)
    rfl
  rw [← hkeys, Table.keys, List.map_map]
  exact (List.map_id _).symm.trans (List.map_congr_left hrow)

end Table

end DecisionCycle
