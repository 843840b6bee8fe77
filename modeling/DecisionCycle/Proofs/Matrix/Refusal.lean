import DecisionCycle.Proofs.Matrix.Told
import DecisionCycle.Proofs.Rating

/-!
How reading a payload in good form can end. The steps that it tells are taken in turn, and
the first one that cannot be taken decides. Mostly that is a cell whose rating is no
rating, and then the rating is refused. But an infinity has no integer part that could be
looked at, and a name or a rating may be too long to be written out; there reading breaks
off with a fault that is no refusal of a rating.
-/

namespace DecisionCycle

inductive Edit.Declares : Edit → List Value → Prop where
  | alternatives (names : List Value) : Declares (.alternatives (.list names)) names
  | objectives (names : List Value) : Declares (.objectives (.list names)) names

inductive Edit.Passes : Edit → Prop where
  | names {e : Edit} {names : List Value} (he : e.Declares names)
      (hnames : ∀ name ∈ names, name.isWritable = true) : Passes e
  | cell {alternative objective rating rationale : Value} {r : Rating}
      (halternative : alternative.isWritable = true) (hobjective : objective.isWritable = true)
      (hrating : Rating.ofPayload rating = .ok r) :
      Passes (.cell alternative objective rating rationale)

/-- A step fills in what is no rating, neither infinite nor too long. -/
inductive Edit.Refuses : Edit → Value → Prop where
  | cell {alternative objective rating rationale : Value}
      (halternative : alternative.isWritable = true) (hobjective : objective.isWritable = true)
      (hrating : ∀ r, Rating.ofPayload rating ≠ .ok r)
      (hfinite : ∀ negative, rating ≠ .float (.infinite negative))
      (hwritable : rating.isWritable = true) :
      Refuses (.cell alternative objective rating rationale) rating

/-- A step has something in it that is too long, or an infinite rating. -/
inductive Edit.BreaksOff : Edit → PayloadFault → Prop where
  | names {e : Edit} {names : List Value} {name : Value} (he : e.Declares names)
      (hname : name ∈ names) (hlong : name.isWritable = false) : BreaksOff e .tooManyDigits
  | name {alternative objective rating rationale : Value}
      (hlong : alternative.isWritable = false ∨ objective.isWritable = false) :
      BreaksOff (.cell alternative objective rating rationale) .tooManyDigits
  | rating {alternative objective rating rationale : Value}
      (halternative : alternative.isWritable = true) (hobjective : objective.isWritable = true)
      (hlong : rating.isWritable = false) :
      BreaksOff (.cell alternative objective rating rationale) .tooManyDigits
  | infinite {alternative objective rationale : Value} {negative : Bool}
      (halternative : alternative.isWritable = true) (hobjective : objective.isWritable = true) :
      BreaksOff (.cell alternative objective (.float (.infinite negative)) rationale) .infinite

namespace Matrix

variable {m : Matrix} {v : Value} {e : Edit} {steps : List Edit} {fault : PayloadFault}

/-! ### Single steps -/

theorem edit_of_declares {names : List Value} (he : e.Declares names) (m : Matrix) :
    (∃ m', m.edit e = .ok m') ∧ (∀ name ∈ names, name.isWritable = true) ∨
      m.edit e = .error .tooManyDigits ∧ ∃ name ∈ names, name.isWritable = false := by
  have hread : readNames (.list names) =
      if ∀ name ∈ names, name.isWritable = true then .ok (names.map Value.text).eraseDups
      else .error .tooManyDigits := by
    rw [readNames, Value.items, ok_bind, Value.mapM_written]
    split <;> rfl
  by_cases hnames : ∀ name ∈ names, name.isWritable = true
  · rw [if_pos hnames] at hread
    left
    cases he <;> exact ⟨⟨_, by rw [edit, hread]; rfl⟩, hnames⟩
  · rw [if_neg hnames] at hread
    right
    push Not at hnames
    obtain ⟨name, hname, hlong⟩ := hnames
    cases he <;>
      exact ⟨by rw [edit, hread]; rfl, name, hname, eq_false_of_ne_true hlong⟩

theorem edit_cell {alternative objective : Value} (halternative : alternative.isWritable = true)
    (hobjective : objective.isWritable = true) (rating rationale : Value) (m : Matrix) :
    m.edit (.cell alternative objective rating rationale) =
      (Rating.ofPayload rating).map fun r =>
        m.fill ⟨alternative.text, objective.text, r, rationale⟩ := by
  simp only [edit, Value.written, if_pos halternative, if_pos hobjective, ok_bind]
  cases Rating.ofPayload rating <;> rfl

theorem edit_cell_of_long {alternative objective : Value}
    (hlong : alternative.isWritable = false ∨ objective.isWritable = false)
    (rating rationale : Value) (m : Matrix) :
    m.edit (.cell alternative objective rating rationale) = .error .tooManyDigits := by
  cases halternative : alternative.isWritable with
  | false =>
      simp only [edit, Value.written, halternative]
      rfl
  | true =>
      have hobjective : objective.isWritable = false := by simpa [halternative] using hlong
      simp only [edit, Value.written, halternative, hobjective]
      rfl

theorem edit_of_passes (he : e.Passes) (m : Matrix) : ∃ m', m.edit e = .ok m' := by
  cases he with
  | names he hnames =>
      rcases edit_of_declares he m with ⟨hm', -⟩ | ⟨-, name, hname, hlong⟩
      · exact hm'
      · rw [hnames name hname] at hlong
        cases hlong
  | cell halternative hobjective hrating =>
      rw [edit_cell halternative hobjective, hrating]
      exact ⟨_, rfl⟩

theorem edit_of_refuses {rating : Value} (he : e.Refuses rating) (m : Matrix) :
    m.edit e = .error (.ratingOutOfRange rating) := by
  cases he with
  | cell halternative hobjective hrating hfinite hwritable =>
      rw [edit_cell halternative hobjective]
      rcases Rating.ofPayload_cases rating with ⟨r, hr⟩ | ⟨negative, hinfinite⟩ | hrefused
      · exact absurd hr (hrating r)
      · exact absurd hinfinite (hfinite negative)
      · rw [hrefused, Rating.refusal, if_pos hwritable]
        rfl

theorem edit_of_breaksOff (he : e.BreaksOff fault) (m : Matrix) : m.edit e = .error fault := by
  cases he with
  | names he hname hlong =>
      rcases edit_of_declares he m with ⟨-, hnames⟩ | ⟨herror, -⟩
      · rw [hnames _ hname] at hlong
        cases hlong
      · exact herror
  | name hlong => exact edit_cell_of_long hlong _ _ m
  | @rating alternative objective rating rationale halternative hobjective hlong =>
      rw [edit_cell halternative hobjective]
      rcases Rating.ofPayload_cases rating with ⟨r, hr⟩ | ⟨negative, rfl⟩ | hrefused
      · rw [Rating.isWritable_of_ofPayload hr] at hlong
        cases hlong
      · simp [Value.isWritable] at hlong
      · rw [hrefused, Rating.refusal, hlong]
        rfl
  | infinite halternative hobjective =>
      rw [edit_cell halternative hobjective, Rating.ofPayload_infinite]
      rfl

def Decides (e : Edit) : Prop :=
  e.Passes ∨ (∃ rating, e.Refuses rating) ∨ ∃ fault, e.BreaksOff fault

theorem decides_of_declares {names : List Value} (he : e.Declares names) : Decides e := by
  by_cases hnames : ∀ name ∈ names, name.isWritable = true
  · exact .inl (.names he hnames)
  · push Not at hnames
    obtain ⟨name, hname, hlong⟩ := hnames
    exact .inr (.inr ⟨_, .names he hname (eq_false_of_ne_true hlong)⟩)

theorem decides_cell (alternative objective rating rationale : Value) :
    Decides (.cell alternative objective rating rationale) := by
  cases halternative : alternative.isWritable with
  | false => exact .inr (.inr ⟨_, .name (.inl halternative)⟩)
  | true =>
  cases hobjective : objective.isWritable with
  | false => exact .inr (.inr ⟨_, .name (.inr hobjective)⟩)
  | true =>
  cases hrating : rating.isWritable with
  | false => exact .inr (.inr ⟨_, .rating halternative hobjective hrating⟩)
  | true =>
      by_cases hread : ∃ r, Rating.ofPayload rating = .ok r
      · obtain ⟨r, hr⟩ := hread
        exact .inl (.cell halternative hobjective hr)
      · by_cases hinfinite : ∃ negative, rating = .float (.infinite negative)
        · obtain ⟨negative, rfl⟩ := hinfinite
          exact .inr (.inr ⟨_, .infinite halternative hobjective⟩)
        · exact .inr (.inl ⟨rating, .cell halternative hobjective (not_exists.mp hread)
            (not_exists.mp hinfinite) hrating⟩)

theorem cell_of_tellsCells {cells : Value} (h : TellsCells cells steps) (he : e ∈ steps) :
    ∃ alternative objective rating rationale, e = .cell alternative objective rating rationale := by
  cases h with
  | listed h =>
      induction h with
      | nil => cases he
      | cons hcell _ ih =>
          rcases List.mem_cons.mp he with rfl | he
          · obtain ⟨-, -, -⟩ := hcell
            exact ⟨_, _, _, _, rfl⟩
          · exact ih he
  | nested rows =>
      obtain ⟨row, -, he⟩ := List.mem_flatMap.mp he
      obtain ⟨entry, -, rfl⟩ := List.mem_map.mp he
      exact ⟨_, _, _, _, rfl⟩

theorem decides_of_tells (h : Tells v steps) (he : e ∈ steps) : Decides e := by
  obtain ⟨-, -, -, hcells⟩ := h
  rcases List.mem_cons.mp he with rfl | he
  · exact decides_of_declares (.alternatives _)
  rcases List.mem_cons.mp he with rfl | he
  · exact decides_of_declares (.objectives _)
  · obtain ⟨alternative, objective, rating, rationale, rfl⟩ := cell_of_tellsCells hcells he
    exact decides_cell alternative objective rating rationale

/-! ### All steps in turn -/

def StopsAt (steps : List Edit) (P : Edit → Prop) : Prop :=
  ∃ before e after, steps = before ++ e :: after ∧ (∀ b ∈ before, b.Passes) ∧ P e

theorem editAll_of_passes (h : ∀ e ∈ steps, e.Passes) (m : Matrix) :
    ∃ m', m.editAll steps = .ok m' := by
  induction steps generalizing m with
  | nil => exact ⟨m, rfl⟩
  | cons e steps ih =>
      obtain ⟨hfirst, hrest⟩ := List.forall_mem_cons.mp h
      obtain ⟨next, hnext⟩ := edit_of_passes hfirst m
      rw [editAll, hnext, ok_bind]
      exact ih hrest next

theorem editAll_of_stopsAt (h : StopsAt steps fun e => ∀ m : Matrix, m.edit e = .error fault)
    (m : Matrix) : m.editAll steps = .error fault := by
  obtain ⟨before, e, after, rfl, hbefore, he⟩ := h
  obtain ⟨next, hnext⟩ := editAll_of_passes hbefore m
  rw [editAll_append, hnext, ok_bind, editAll, he]
  rfl

theorem StopsAt.imp {P Q : Edit → Prop} (h : StopsAt steps P) (hPQ : ∀ e, P e → Q e) :
    StopsAt steps Q := by
  obtain ⟨before, e, after, hsplit, hbefore, he⟩ := h
  exact ⟨before, e, after, hsplit, hbefore, hPQ e he⟩

theorem passes_or_stopsAt (h : ∀ e ∈ steps, Decides e) :
    (∀ e ∈ steps, e.Passes) ∨ (∃ rating, StopsAt steps (·.Refuses rating)) ∨
      ∃ fault, StopsAt steps (·.BreaksOff fault) := by
  induction steps with
  | nil => exact .inl nofun
  | cons e steps ih =>
      obtain ⟨hfirst, hrest⟩ := List.forall_mem_cons.mp h
      -- a step that passes stands before those that passed already
      have hlater {P : Edit → Prop} (he : e.Passes) (hP : StopsAt steps P) :
          StopsAt (e :: steps) P := by
        obtain ⟨before, stop, after, rfl, hbefore, hstop⟩ := hP
        exact ⟨e :: before, stop, after, rfl, List.forall_mem_cons.mpr ⟨he, hbefore⟩, hstop⟩
      rcases hfirst with he | ⟨rating, he⟩ | ⟨fault, he⟩
      · rcases ih hrest with hall | ⟨rating, hrating⟩ | ⟨fault, hfault⟩
        · exact .inl (List.forall_mem_cons.mpr ⟨he, hall⟩)
        · exact .inr (.inl ⟨rating, hlater he hrating⟩)
        · exact .inr (.inr ⟨fault, hlater he hfault⟩)
      · exact .inr (.inl ⟨rating, [], e, steps, rfl, nofun, he⟩)
      · exact .inr (.inr ⟨fault, [], e, steps, rfl, nofun, he⟩)

/-! ### Whole payloads -/

theorem ofPayload_of_passes (h : Tells v steps) (hsteps : ∀ e ∈ steps, e.Passes) :
    ∃ m, ofPayload v = .ok m := by
  rw [ofPayload_eq_editAll h]
  exact editAll_of_passes hsteps empty

theorem ofPayload_of_refuses (h : Tells v steps) {rating : Value}
    (hstop : StopsAt steps (·.Refuses rating)) :
    ofPayload v = .error (.ratingOutOfRange rating) := by
  rw [ofPayload_eq_editAll h]
  exact editAll_of_stopsAt (hstop.imp fun _ he => edit_of_refuses he) empty

theorem ofPayload_of_breaksOff (h : Tells v steps) (hstop : StopsAt steps (·.BreaksOff fault)) :
    ofPayload v = .error fault := by
  rw [ofPayload_eq_editAll h]
  exact editAll_of_stopsAt (hstop.imp fun _ he => edit_of_breaksOff he) empty

theorem ofPayload_cases (h : Tells v steps) :
    ((∀ e ∈ steps, e.Passes) ∧ ∃ m, ofPayload v = .ok m) ∨
      (∃ rating, StopsAt steps (·.Refuses rating) ∧
        ofPayload v = .error (.ratingOutOfRange rating)) ∨
      ∃ fault, StopsAt steps (·.BreaksOff fault) ∧ ofPayload v = .error fault := by
  rcases passes_or_stopsAt fun e he => decides_of_tells h he with
    hall | ⟨rating, hstop⟩ | ⟨fault, hstop⟩
  · exact .inl ⟨hall, ofPayload_of_passes h hall⟩
  · exact .inr (.inl ⟨rating, hstop, ofPayload_of_refuses h hstop⟩)
  · exact .inr (.inr ⟨fault, hstop, ofPayload_of_breaksOff h hstop⟩)

def ReadsOrRefuses (result : Except PayloadFault Matrix) : Prop :=
  (∃ m, result = .ok m ∧ ∀ row ∈ m.cells.rows,
      -2 ≤ row.2.rating.value ∧ row.2.rating.value ≤ 2) ∨
    ∃ rating, result = .error (.ratingOutOfRange rating)

theorem readsOrRefuses_ok (m : Matrix) : ReadsOrRefuses (.ok m) :=
  .inl ⟨m, rfl, fun row _ => row.2.rating.value_bounds⟩

theorem not_readsOrRefuses (h : StopsAt steps (·.BreaksOff fault)) :
    ¬ReadsOrRefuses (.error fault) := by
  obtain ⟨-, e, -, -, -, he⟩ := h
  rintro (⟨m, hm, -⟩ | ⟨rating, hrating⟩)
  · cases hm
  · cases he <;> cases hrating

/-- How reading ends, the first step that does not pass deciding. -/
structure EndsBy (steps : List Edit) (result : Except PayloadFault Matrix) : Prop where
  reads_iff : (∃ m, result = .ok m) ↔ ∀ e ∈ steps, e.Passes
  refuses_iff (rating : Value) :
    result = .error (.ratingOutOfRange rating) ↔ StopsAt steps (·.Refuses rating)
  breaksOff {fault : PayloadFault} : StopsAt steps (·.BreaksOff fault) → result = .error fault
  readsOrRefuses_iff : ReadsOrRefuses result ↔ ∀ fault, ¬StopsAt steps (·.BreaksOff fault)

/-- **Reading or refusing.** From a payload in good form a matrix is read whose ratings are
in range, or a rating is refused, unless reading breaks off: the first step that does not
pass has something in it that is too long, or an infinite rating. -/
theorem ofPayload_endsBy (h : Tells v steps) : EndsBy steps (ofPayload v) := by
  constructor
  case reads_iff =>
    refine ⟨?_, ofPayload_of_passes h⟩
    rintro ⟨m, hm⟩
    rcases ofPayload_cases h with ⟨hall, -⟩ | ⟨_, -, herror⟩ | ⟨_, -, herror⟩
    · exact hall
    · rw [hm] at herror
      cases herror
    · rw [hm] at herror
      cases herror
  case refuses_iff =>
    intro rating
    refine ⟨fun hrefused => ?_, ofPayload_of_refuses h⟩
    rcases ofPayload_cases h with ⟨-, m, hm⟩ | ⟨other, hstop, herror⟩ | ⟨fault, hstop, herror⟩
    · rw [hm] at hrefused
      cases hrefused
    · rw [herror] at hrefused
      cases hrefused
      exact hstop
    · rw [herror] at hrefused
      exact absurd (.inr ⟨rating, hrefused⟩) (not_readsOrRefuses hstop)
  case breaksOff => exact ofPayload_of_breaksOff h
  case readsOrRefuses_iff =>
    constructor
    · intro hresult fault hstop
      rw [ofPayload_of_breaksOff h hstop] at hresult
      exact not_readsOrRefuses hstop hresult
    · intro hgoes
      rcases ofPayload_cases h with ⟨-, m, hm⟩ | ⟨rating, -, herror⟩ | ⟨fault, hstop, -⟩
      · rw [hm]
        exact readsOrRefuses_ok m
      · exact .inr ⟨rating, herror⟩
      · exact absurd hstop (hgoes fault)

/-- Ratings in rows, where the first two are read and the third is not a number. -/
theorem ofPayload_endsBy_nan :
    let row (alternative : String) (ratings : List (Value × Value)) : Value × Value :=
      (.str alternative, .dict ratings)
    let payload : Value := .dict
      [(.str "alternatives", .list [.str "A", .str "B"]), (.str "objectives", .list [.str "Cost"]),
        (.str "cells", .dict
          [row "A" [(.str "Cost", .str "-1"), (.str "Risk", .float (.finite false 1 1))],
            row "B" [(.str "Cost", .float .nan), (.str "Risk", .float (.infinite true))]])]
    ∃ steps, Tells payload steps ∧ EndsBy steps (ofPayload payload) ∧
      StopsAt steps (·.Refuses (.float .nan)) ∧
      ofPayload payload = .error (.ratingOutOfRange (.float .nan)) := by
  intro row payload
  have htells : Tells payload _ := .mk rfl rfl rfl (.nested
    [(.str "A", [(.str "Cost", .str "-1"), (.str "Risk", .float (.finite false 1 1))]),
      (.str "B", [(.str "Cost", .float .nan), (.str "Risk", .float (.infinite true))])])
  have hends := ofPayload_endsBy htells
  have hrefused : ofPayload payload = .error (.ratingOutOfRange (.float .nan)) := by rfl
  exact ⟨_, htells, hends, (hends.refuses_iff _).mp hrefused, hrefused⟩

/-- An infinite rating is not refused as a rating. -/
theorem ofPayload_infiniteRating :
    let cell : Value := .dict
      [(.str "alternative", .str "A"), (.str "objective", .str "Cost"),
        (.str "rating", .float (.infinite false))]
    let payload : Value := .dict
      [(.str "alternatives", .list [.str "A"]), (.str "objectives", .list [.str "Cost"]),
        (.str "cells", .list [cell])]
    (∃ steps, Tells payload steps) ∧ ofPayload payload = .error .infinite ∧
      ¬ReadsOrRefuses (ofPayload payload) := by
  intro cell payload
  have htells : Tells payload _ := .mk rfl rfl rfl (.listed (.cons (.mk rfl rfl rfl) .nil))
  have hinfinite : ofPayload payload = .error .infinite := by rfl
  refine ⟨⟨_, htells⟩, hinfinite, ?_⟩
  rw [hinfinite]
  rintro (⟨m, hm, -⟩ | ⟨rating, hrating⟩)
  · cases hm
  · cases hrating

end Matrix

end DecisionCycle
