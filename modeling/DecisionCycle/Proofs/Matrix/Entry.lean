import DecisionCycle.Matrix.Entry
import DecisionCycle.Proofs.Table

/-!
Matrices as they are filled. Reading a payload is filling a matrix step by step, so
what every step keeps holds of every matrix that is filled or read. The first such
fact is that no name is declared twice.
-/

namespace DecisionCycle.Matrix

/-! ### Payloads as steps -/

theorem editAll_append {m : Matrix} (edits more : List Edit) :
    m.editAll (edits ++ more) = m.editAll edits >>= fun m => m.editAll more := by
  induction edits generalizing m with
  | nil => rfl
  | cons e edits ih =>
      rw [List.cons_append, editAll, editAll]
      cases m.edit e with
      | error fault => rfl
      | ok m => exact ih

def Leads (m m' : Matrix) : Prop :=
  ∃ edits, m.editAll edits = .ok m'

theorem Leads.refl (m : Matrix) : m.Leads m :=
  ⟨[], rfl⟩

theorem Leads.trans {m₁ m₂ m₃ : Matrix} (h : m₁.Leads m₂) (h' : m₂.Leads m₃) :
    m₁.Leads m₃ := by
  obtain ⟨edits, hedits⟩ := h
  obtain ⟨more, hmore⟩ := h'
  refine ⟨edits ++ more, ?_⟩
  rw [editAll_append, hedits]
  exact hmore

theorem leads_of_edit {m m' : Matrix} {e : Edit} (h : m.edit e = .ok m') : m.Leads m' := by
  refine ⟨[e], ?_⟩
  rw [editAll, h]
  rfl

theorem leads_of_fillCells {m m' : Matrix} {cells : List Value}
    (h : m.fillCells cells = .ok m') : m.Leads m' := by
  induction cells generalizing m with
  | nil =>
      cases h
      exact .refl _
  | cons v cells ih =>
      obtain ⟨e, -, h⟩ := bind_eq_ok.mp h
      obtain ⟨next, hedit, hrest⟩ := bind_eq_ok.mp h
      exact (leads_of_edit hedit).trans (ih hrest)

theorem leads_of_fillRow {m m' : Matrix} {alternative : Value}
    {ratings : List (Value × Value)} (h : m.fillRow alternative ratings = .ok m') :
    m.Leads m' := by
  induction ratings generalizing m with
  | nil =>
      cases h
      exact .refl _
  | cons entry ratings ih =>
      obtain ⟨next, hedit, hrest⟩ := bind_eq_ok.mp h
      exact (leads_of_edit hedit).trans (ih hrest)

theorem leads_of_fillRows {m m' : Matrix} {rows : List (Value × Value)}
    (h : m.fillRows rows = .ok m') : m.Leads m' := by
  induction rows generalizing m with
  | nil =>
      cases h
      exact .refl _
  | cons row rows ih =>
      obtain ⟨ratings, -, h⟩ := bind_eq_ok.mp h
      obtain ⟨next, hrow, hrest⟩ := bind_eq_ok.mp h
      exact (leads_of_fillRow hrow).trans (ih hrest)

theorem leads_of_ofPayload {v : Value} {m : Matrix} (h : ofPayload v = .ok m) :
    empty.Leads m := by
  obtain ⟨alternatives, -, h⟩ := bind_eq_ok.mp h
  obtain ⟨m₁, h₁, h⟩ := bind_eq_ok.mp h
  obtain ⟨objectives, -, h⟩ := bind_eq_ok.mp h
  obtain ⟨m₂, h₂, h⟩ := bind_eq_ok.mp h
  obtain ⟨cells, -, h⟩ := bind_eq_ok.mp h
  refine ((leads_of_edit h₁).trans (leads_of_edit h₂)).trans ?_
  split at h
  · exact leads_of_fillRows h
  · obtain ⟨items, -, h⟩ := bind_eq_ok.mp h
    exact leads_of_fillCells h

theorem holds_of_editAll {I : Matrix → Prop} {P : Edit → Prop}
    (hstep : ∀ {m m' : Matrix} {e : Edit}, I m → P e → m.edit e = .ok m' → I m')
    {m m' : Matrix} {edits : List Edit} (hm : I m) (hedits : ∀ e ∈ edits, P e)
    (h : m.editAll edits = .ok m') : I m' := by
  induction edits generalizing m with
  | nil =>
      cases h
      exact hm
  | cons e edits ih =>
      obtain ⟨he, hrest⟩ := List.forall_mem_cons.mp hedits
      obtain ⟨next, hnext, h⟩ := bind_eq_ok.mp h
      exact ih (hstep hm he hnext) hrest h

/-- The matrix was filled by some steps, those that were refused being left out, or
it was read from a payload. -/
def IsEntered (m : Matrix) : Prop :=
  (∃ edits, m = empty.editLeniently edits) ∨ ∃ v, ofPayload v = .ok m

/-- What holds of the empty matrix and is kept by every step that is not refused holds
of every matrix that is filled or read. -/
theorem IsEntered.of_step {I : Matrix → Prop} (hempty : I empty)
    (hstep : ∀ {m m' : Matrix} {e : Edit}, I m → m.edit e = .ok m' → I m')
    {m : Matrix} (hm : m.IsEntered) : I m := by
  -- the induction on the steps is for any start that has the property, not for `empty`
  rcases hm with ⟨edits, rfl⟩ | ⟨v, hv⟩
  · generalize empty = start at hempty
    induction edits generalizing start with
    | nil => exact hempty
    | cons e edits ih =>
        apply ih
        change I ((start.edit e).toOption.getD start)
        cases he : start.edit e with
        | error fault => exact hempty
        | ok next => exact hstep hempty he
  · obtain ⟨edits, hedits⟩ := leads_of_ofPayload hv
    exact holds_of_editAll (fun hm _ h => hstep hm h) hempty (fun _ _ => trivial) hedits

/-! ### What a step does -/

inductive StepsTo (m : Matrix) : Edit → Matrix → Prop
  | alternatives {names : Value} {read : List Text} (hread : readNames names = .ok read) :
      StepsTo m (.alternatives names) { m with alternatives := read }
  | objectives {names : Value} {read : List Text} (hread : readNames names = .ok read) :
      StepsTo m (.objectives names) { m with objectives := read }
  | cell {alternative objective rating rationale : Value} {a o : Text} {r : Rating}
      (halternative : alternative.written = .ok a) (hobjective : objective.written = .ok o)
      (hrating : Rating.ofPayload rating = .ok r) :
      StepsTo m (.cell alternative objective rating rationale) (m.fill ⟨a, o, r, rationale⟩)

theorem stepsTo_of_edit {m m' : Matrix} {e : Edit} (h : m.edit e = .ok m') : m.StepsTo e m' := by
  cases e with
  | alternatives names =>
      obtain ⟨read, hread, h⟩ := bind_eq_ok.mp h
      cases h
      exact .alternatives hread
  | objectives names =>
      obtain ⟨read, hread, h⟩ := bind_eq_ok.mp h
      cases h
      exact .objectives hread
  | cell alternative objective rating rationale =>
      obtain ⟨a, ha, h⟩ := bind_eq_ok.mp h
      obtain ⟨o, ho, h⟩ := bind_eq_ok.mp h
      obtain ⟨r, hr, h⟩ := bind_eq_ok.mp h
      cases h
      exact .cell ha ho hr

/-! ### Names are declared once -/

theorem nodup_of_readNames {v : Value} {names : List Text} (h : readNames v = .ok names) :
    names.Nodup := by
  obtain ⟨items, -, h⟩ := bind_eq_ok.mp h
  obtain ⟨texts, -, h⟩ := bind_eq_ok.mp h
  cases h
  exact nodup_eraseDups texts

structure NamesOnce (m : Matrix) : Prop where
  alternatives : m.alternatives.Nodup
  objectives : m.objectives.Nodup

theorem NamesOnce.edit {m m' : Matrix} {e : Edit} (hm : m.NamesOnce)
    (h : m.edit e = .ok m') : m'.NamesOnce := by
  cases stepsTo_of_edit h with
  | alternatives hread => exact ⟨nodup_of_readNames hread, hm.objectives⟩
  | objectives hread => exact ⟨hm.alternatives, nodup_of_readNames hread⟩
  | cell _ _ _ => exact ⟨hm.alternatives, hm.objectives⟩

theorem IsEntered.namesOnce {m : Matrix} (hm : m.IsEntered) : m.NamesOnce :=
  hm.of_step ⟨List.nodup_nil, List.nodup_nil⟩ fun hm h => hm.edit h

end DecisionCycle.Matrix
