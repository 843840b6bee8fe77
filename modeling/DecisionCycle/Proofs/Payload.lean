import DecisionCycle.Payload
import Mathlib.Data.List.Forall2

/-!
Lists in payloads, read entry by entry, entries of mappings that are set, and the least
integer that cannot be written out.
-/

namespace DecisionCycle

/-- An integer with one digit more than are written out. -/
def Value.longInt : Value :=
  .int (Nat.pow 10 Text.digitLimit)

theorem Value.isWritable_longInt : longInt.isWritable = false := by
  rw [longInt, isWritable, isWritableInt, Int.natAbs_natCast]
  exact decide_eq_false (Nat.lt_irrefl _)

theorem Value.isGiven_longInt : longInt.isGiven = true := by
  rw [longInt, isGiven, bne_iff_ne, Int.natCast_ne_zero]
  -- the power must not be evaluated
  generalize Text.digitLimit = n
  exact Nat.ne_of_gt (Nat.pow_pos (by decide))

theorem Value.eq_text_of_written {v : Value} {t : Text} (h : v.written = .ok t) : t = v.text := by
  unfold written at h
  split at h
  · cases h
    rfl
  · cases h

section

variable {ε α β : Type} {f : α → Except ε β} {l : List α}

theorem mapM_eq_ok {bs : List β} :
    l.mapM f = .ok bs ↔ List.Forall₂ (fun a b => f a = .ok b) l bs := by
  induction l generalizing bs with
  | nil => simp [pure, Except.pure, eq_comm]
  | cons a l ih =>
      rw [List.mapM_cons, bind_eq_ok, List.forall₂_cons_left_iff]
      constructor
      · rintro ⟨b, hb, h⟩
        obtain ⟨rest, hrest, h⟩ := bind_eq_ok.mp h
        cases h
        exact ⟨b, rest, hb, ih.mp hrest, rfl⟩
      · rintro ⟨b, rest, hb, hrest, rfl⟩
        exact ⟨b, hb, bind_eq_ok.mpr ⟨rest, ih.mpr hrest, rfl⟩⟩

theorem exists_forall₂_iff {R : α → β → Prop} :
    (∃ bs, List.Forall₂ R l bs) ↔ ∀ a ∈ l, ∃ b, R a b := by
  induction l with
  | nil => simp
  | cons a l ih =>
      rw [List.forall_mem_cons, ← ih]
      constructor
      · rintro ⟨bs, h⟩
        cases h with
        | cons hb hrest => exact ⟨⟨_, hb⟩, _, hrest⟩
      · rintro ⟨⟨b, hb⟩, bs, hbs⟩
        exact ⟨b :: bs, .cons hb hbs⟩

theorem eq_map_of_mapM_eq_ok {g : α → β} (hf : ∀ {a b}, f a = .ok b → b = g a) {bs : List β}
    (h : l.mapM f = .ok bs) : bs = l.map g := by
  have hitems := mapM_eq_ok.mp h
  clear h
  induction hitems with
  | nil => rfl
  | cons hb _ ih => rw [List.map_cons, hf hb, ih]

end

theorem Value.sameKey_str_iff {k : Value} {key : String} :
    k.sameKey (.str key) = true ↔ k = .str key := by
  cases k with
  | str t => simp [sameKey]
  | _ => simp [sameKey, number?]

theorem Value.lookup?_setEntry (name key : String) (value : Value)
    (entries : List (Value × Value)) :
    lookup? name (setEntry (.str key) value entries) =
      if name = key then some value else lookup? name entries := by
  have hkey (h : name ≠ key) : (Value.str key).sameKey (.str name) = false := by
    simpa using Ne.symm h
  induction entries with
  | nil => by_cases h : name = key <;> simp [setEntry, lookup?, h, hkey]
  | cons entry entries ih =>
      obtain ⟨k, v⟩ := entry
      by_cases hk : k.sameKey (.str key) = true
      · obtain rfl := sameKey_str_iff.mp hk
        by_cases h : name = key <;> simp [setEntry, lookup?, h, hkey]
      · rw [setEntry, if_neg hk, lookup?, lookup?, ih]
        by_cases hname : k.sameKey (.str name) = true
        · obtain rfl := sameKey_str_iff.mp hname
          have hne : name ≠ key := by
            rintro rfl
            exact hk hname
          simp [hne]
        · rw [if_neg hname, if_neg hname]

theorem Value.entries_orElse (entries : List (Value × Value)) :
    ((Value.dict entries).orElse (.dict [])).entries = .ok entries := by
  cases entries <;> rfl

theorem Value.orElse_list (items : List Value) :
    (Value.list items).orElse (.list []) = .list items := by
  cases items <;> rfl

theorem Value.mapM_written (vs : List Value) :
    vs.mapM Value.written =
      if ∀ v ∈ vs, v.isWritable = true then .ok (vs.map Value.text)
      else .error .tooManyDigits := by
  induction vs with
  | nil => rfl
  | cons v vs ih =>
      rw [List.mapM_cons, ih, Value.written]
      by_cases hv : v.isWritable = true
      · by_cases hvs : ∀ w ∈ vs, w.isWritable = true
        · simp only [List.forall_mem_cons, hv, if_pos hvs, true_and, if_true]
          rfl
        · simp only [List.forall_mem_cons, hv, hvs, true_and, if_true, if_false]
          rfl
      · have hall : ¬∀ w ∈ v :: vs, w.isWritable = true := fun h => hv (h v List.mem_cons_self)
        rw [if_neg hv, if_neg hall]
        rfl

/-- One field of every entry in a list that a payload holds. -/
def Value.column (v : Value) (name field : String) : Except PayloadFault (List Value) := do
  let entries ← (← v.field name).items
  entries.mapM (·.field field)

theorem Value.column_eq_ok {α : Type} {v : Value} {name field : String} {l : List α}
    {f g : α → Value} (hlist : v.field name = .ok (.list (l.map f)))
    (hfield : ∀ a, (f a).field field = .ok (g a)) : v.column name field = .ok (l.map g) := by
  rw [column, hlist]
  change (l.map f).mapM (·.field field) = _
  clear hlist
  induction l with
  | nil => rfl
  | cons a l ih =>
      rw [List.map_cons, List.mapM_cons, hfield, ih]
      rfl

end DecisionCycle
