import DecisionCycle.Proofs.Matrix.Entry
import DecisionCycle.Proofs.Matrix.Trail
import DecisionCycle.Proofs.Payload
import DecisionCycle.Report.Consequences

/-!
What a report tells about each alternative. An alternative is listed as dominated or
has a tension, never both, and either list keeps the order of declaration. From the
entry of a dominated alternative the entries of its dominators lead on to one that
has a tension, and that one dominates the alternative.
-/

namespace DecisionCycle

namespace ConsequencesReport

def dominatedNames (r : ConsequencesReport) : List Text :=
  r.dominations.map Domination.alternative

def tenseNames (r : ConsequencesReport) : List Text :=
  r.tensions.map Tension.alternative

theorem field_dominated (r : ConsequencesReport) :
    r.toPayload.field "dominated" = .ok (.list (r.dominations.map dominationPayload)) := by
  simp [toPayload, Value.field, Value.fieldOr, Value.lookup?]

theorem field_tensions (r : ConsequencesReport) :
    r.toPayload.field "tensions" = .ok (.list (r.tensions.map tensionPayload)) := by
  simp [toPayload, Value.field, Value.fieldOr, Value.lookup?]

/-- The names of the alternatives as the payload shows them, those of the dominated
ones beside the names of their dominators. -/
structure ShowsNames (r : ConsequencesReport) (payload : Value) : Prop where
  dominated : payload.column "dominated" "alternative" = .ok (r.dominatedNames.map .str)
  dominators : payload.column "dominated" "dominated_by" =
    .ok (r.dominations.map fun d => .str d.dominator)
  tense : payload.column "tensions" "alternative" = .ok (r.tenseNames.map .str)

theorem showsNames_toPayload (r : ConsequencesReport) : r.ShowsNames r.toPayload where
  dominated := by
    rw [dominatedNames, List.map_map]
    apply Value.column_eq_ok r.field_dominated
    intro d
    simp [dominationPayload, Value.field, Value.fieldOr, Value.lookup?]
  dominators := by
    apply Value.column_eq_ok r.field_dominated
    intro d
    simp [dominationPayload, Value.field, Value.fieldOr, Value.lookup?]
  tense := by
    rw [tenseNames, List.map_map]
    apply Value.column_eq_ok r.field_tensions
    intro t
    simp [tensionPayload, Value.field, Value.fieldOr, Value.lookup?]

/-! ### Every alternative has its place -/

structure Accounts (r : ConsequencesReport) (m : Matrix) : Prop where
  once {a : Text} : a ∈ m.alternatives → (r.dominatedNames ++ r.tenseNames).count a = 1
  declared {a : Text} : a ∈ r.dominatedNames ++ r.tenseNames → a ∈ m.alternatives
  dominatedInOrder : r.dominatedNames.Sublist m.alternatives
  tenseInOrder : r.tenseNames.Sublist m.alternatives
  someTense : m.alternatives ≠ [] → r.tensions ≠ []
  /-- There is one way to follow the dominators of an alternative. It meets no name
  twice, and it ends at an alternative that has a tension and dominates the first. -/
  climbs {d : Domination} : d ∈ r.dominations →
    ∃ names z, Trail r.dominations d.alternative names z ∧
      (∀ names' z', Trail r.dominations d.alternative names' z' → names' = names ∧ z' = z) ∧
      (d.alternative :: names).Nodup ∧ z ∈ r.tenseNames ∧
      m.dominates z d.alternative = true

theorem tenseNames_ofMatrix (m : Matrix) :
    (ofMatrix m).tenseNames = m.viable m.dominated := by
  change ((m.viable m.dominated).map _).map Tension.alternative = _
  rw [List.map_map]
  exact List.map_id _

theorem accounts_of_nodup {m : Matrix} (hm : m.alternatives.Nodup) :
    (ofMatrix m).Accounts m := by
  have hperm : ((ofMatrix m).dominatedNames ++ (ofMatrix m).tenseNames).Perm m.alternatives := by
    rw [tenseNames_ofMatrix]
    exact m.dominated_append_viable_perm
  refine ⟨fun ha => ?_, fun ha => hperm.mem_iff.mp ha, ?_, ?_, fun hne => ?_, fun {d} hd => ?_⟩
  · rw [hperm.count_eq]
    exact List.count_eq_one_of_mem hm ha
  · change m.dominated.Sublist m.alternatives
    rw [m.dominated_eq_filter]
    exact List.filter_sublist
  · rw [tenseNames_ofMatrix]
    exact List.filter_sublist
  · obtain ⟨a, ha⟩ := List.exists_mem_of_ne_nil _ hne
    obtain ⟨z, hz, -⟩ := Matrix.exists_viable_above ha
    rw [← tenseNames_ofMatrix] at hz
    exact fun hnil => List.ne_nil_of_mem hz (by rw [tenseNames, hnil]; rfl)
  · have halternative := (Matrix.mem_dominations_iff.mp hd).1
    obtain ⟨names, z, htrail⟩ := Matrix.exists_trail halternative
    obtain ⟨hz, hend⟩ := Matrix.trail_end htrail halternative
    refine ⟨names, z, htrail, fun names' z' h => ?_, Matrix.nodup_trail htrail, ?_, ?_⟩
    · refine htrail.unique ?_ h
      intro d hd e he
      exact Matrix.dominations_eq_of_alternative_eq hd he
    · rw [tenseNames_ofMatrix]
      exact hz
    · -- whoever has an entry is not left over, and so not the end of its trail
      rcases hend with rfl | hdom
      · exact absurd (Matrix.mem_dominated_iff_exists.mpr ⟨d, hd, rfl⟩) (Matrix.mem_viable.mp hz).2
      · exact hdom

/-- **A report accounts for every alternative.** In the report on a matrix that was
filled or read, each alternative is listed once, as dominated or with its tensions,
and whoever is dominated is dominated by one that has tensions, at the end of its
trail of dominators. -/
theorem ofMatrix_accounts {m : Matrix} (hm : m.IsEntered) :
    (ofMatrix m).Accounts m ∧ (ofMatrix m).ShowsNames (ofMatrix m).toPayload :=
  ⟨accounts_of_nodup hm.namesOnce.alternatives, showsNames_toPayload _⟩

/-- The first dominator of an alternative may be dominated itself. -/
theorem ofMatrix_accounts_inTurn :
    let name (s : String) : Value := .str s
    let edits : List Edit :=
      [.alternatives (.list [name "C", name "B", name "A", name "B"]),
        .objectives (.list [name "Cost"]), .cell (name "A") (name "Cost") (.int 2) .null,
        .cell (name "B") (name "Cost") (.int 1) .null]
    let m := Matrix.empty.editLeniently edits
    let climbs : List (Text × Text) := [("C", "B"), ("B", "A")]
    m.IsEntered ∧ m.dominations.map (fun d => (d.alternative, d.dominator)) = climbs ∧
      (ofMatrix m).Accounts m ∧ (ofMatrix m).ShowsNames (ofMatrix m).toPayload := by
  intro name edits m climbs
  have hm : m.IsEntered := .inl ⟨edits, rfl⟩
  exact ⟨hm, by decide +kernel, ofMatrix_accounts hm⟩

end ConsequencesReport

end DecisionCycle
