import DecisionCycle.Proofs.Matrix.Tension

/-!
Tensions against the lowest and the highest rating. Whatever alternatives are left out,
each of the others gains the objectives on which it is above the lowest rating that they
have, and loses those on which it is below the highest. So an objective is gained by
somebody exactly if it is lost by somebody, which is if two of them are rated differently
on it; and an objective on which all alternatives are rated alike is neither.
-/

namespace DecisionCycle.Matrix

def ratingsOn (m : Matrix) (names : List Text) (o : Text) : Set Int :=
  {r | ∃ a ∈ names, m.rating a o = r}

variable {m : Matrix} {names : List Text}

theorem exists_isLeast_ratingsOn {a : Text} (ha : a ∈ names) (o : Text) :
    ∃ low, IsLeast (m.ratingsOn names o) low := by
  obtain ⟨b, hb, hle⟩ :=
    Set.exists_min_image {b | b ∈ names} (fun b => m.rating b o) names.finite_toSet ⟨a, ha⟩
  refine ⟨m.rating b o, ⟨b, hb, rfl⟩, ?_⟩
  rintro _ ⟨c, hc, rfl⟩
  exact hle c hc

theorem exists_isGreatest_ratingsOn {a : Text} (ha : a ∈ names) (o : Text) :
    ∃ high, IsGreatest (m.ratingsOn names o) high := by
  obtain ⟨b, hb, hle⟩ :=
    Set.exists_max_image {b | b ∈ names} (fun b => m.rating b o) names.finite_toSet ⟨a, ha⟩
  refine ⟨m.rating b o, ⟨b, hb, rfl⟩, ?_⟩
  rintro _ ⟨c, hc, rfl⟩
  exact hle c hc

theorem exists_rating_lt_iff {o : Text} {low r : Int} (h : IsLeast (m.ratingsOn names o) low) :
    (∃ b ∈ names, m.rating b o < r) ↔ low < r := by
  obtain ⟨⟨a, ha, rfl⟩, hlow⟩ := h
  constructor
  · rintro ⟨b, hb, hlt⟩
    exact (hlow ⟨b, hb, rfl⟩).trans_lt hlt
  · exact fun hlt => ⟨a, ha, hlt⟩

theorem exists_lt_rating_iff {o : Text} {high r : Int}
    (h : IsGreatest (m.ratingsOn names o) high) :
    (∃ b ∈ names, r < m.rating b o) ↔ r < high := by
  obtain ⟨⟨a, ha, rfl⟩, hhigh⟩ := h
  constructor
  · rintro ⟨b, hb, hlt⟩
    exact hlt.trans_le (hhigh ⟨b, hb, rfl⟩)
  · exact fun hlt => ⟨a, ha, hlt⟩

/-! ### One alternative among others -/

theorem filter_others {compares : Text → Text → Prop} [∀ b o, Decidable (compares b o)]
    {a : Text} (hself : ∀ o, ¬compares a o) {holds : Text → Prop} [DecidablePred holds]
    (hiff : ∀ o, (∃ b ∈ names, compares b o) ↔ holds o) :
    (m.objectives.filter fun o => (names.filter (· != a)).any fun b => compares b o) =
      m.objectives.filter fun o => holds o := by
  refine List.filter_congr fun o _ => ?_
  rw [Bool.eq_iff_iff, List.any_eq_true, decide_eq_true_iff, ← hiff o]
  simp only [decide_eq_true_iff]
  -- leaving `a` out of the others leaves out no comparison
  exact exists_mem_others (hself o)

theorem gains_eq_filter {a : Text} (low : Text → Int)
    (hlow : ∀ o, IsLeast (m.ratingsOn names o) (low o)) :
    (m.tensionAmong (names.filter (· != a)) a).gains =
      m.objectives.filter fun o => low o < m.rating a o :=
  filter_others (fun _ => lt_irrefl _) fun o => exists_rating_lt_iff (hlow o)

theorem losses_eq_filter {a : Text} (high : Text → Int)
    (hhigh : ∀ o, IsGreatest (m.ratingsOn names o) (high o)) :
    (m.tensionAmong (names.filter (· != a)) a).losses =
      m.objectives.filter fun o => m.rating a o < high o :=
  filter_others (fun _ => lt_irrefl _) fun o => exists_lt_rating_iff (hhigh o)

/-! ### All of them -/

def Splits (m : Matrix) (names : List Text) (o : Text) : Prop :=
  ∃ a ∈ names, ∃ b ∈ names, m.rating a o ≠ m.rating b o

theorem splits_iff_exists_lt {o : Text} :
    m.Splits names o ↔ ∃ a ∈ names, ∃ b ∈ names, m.rating b o < m.rating a o := by
  constructor
  · rintro ⟨a, ha, b, hb, hne⟩
    -- one of the two ratings is lower, so one of the two alternatives may be taken for `b`
    rcases lt_or_gt_of_ne hne with hlt | hlt
    · exact ⟨b, hb, a, ha, hlt⟩
    · exact ⟨a, ha, b, hb, hlt⟩
  · rintro ⟨a, ha, b, hb, hlt⟩
    exact ⟨a, ha, b, hb, hlt.ne'⟩

theorem exists_mem_gains_iff {excluded : List Text} {o : Text} :
    (∃ t ∈ m.tensions excluded, o ∈ t.gains) ↔
      o ∈ m.objectives ∧ m.Splits (m.viable excluded) o := by
  rw [splits_iff_exists_lt]
  constructor
  · rintro ⟨t, ht, ho⟩
    obtain ⟨a, ha, rfl⟩ := mem_tensions_iff.mp ht
    obtain ⟨ho, hlower⟩ := mem_gains_iff.mp ho
    exact ⟨ho, a, ha, hlower⟩
  · rintro ⟨ho, a, ha, hlower⟩
    exact ⟨_, mem_tensions_iff.mpr ⟨a, ha, rfl⟩, mem_gains_iff.mpr ⟨ho, hlower⟩⟩

theorem exists_mem_losses_iff {excluded : List Text} {o : Text} :
    (∃ t ∈ m.tensions excluded, o ∈ t.losses) ↔
      o ∈ m.objectives ∧ m.Splits (m.viable excluded) o := by
  rw [splits_iff_exists_lt]
  constructor
  · rintro ⟨t, ht, ho⟩
    obtain ⟨b, hb, rfl⟩ := mem_tensions_iff.mp ht
    obtain ⟨ho, a, ha, hlt⟩ := mem_losses_iff.mp ho
    exact ⟨ho, a, ha, b, hb, hlt⟩
  · rintro ⟨ho, a, ha, b, hb, hlt⟩
    exact ⟨_, mem_tensions_iff.mpr ⟨b, hb, rfl⟩, mem_losses_iff.mpr ⟨ho, a, ha, hlt⟩⟩

theorem not_splits_of_mem_irrelevances {i : Irrelevance} (hi : i ∈ m.irrelevances)
    (excluded : List Text) : ¬m.Splits (m.viable excluded) i.objective := by
  obtain ⟨-, -, hsame⟩ := mem_irrelevances.mp hi
  rintro ⟨a, ha, b, hb, hne⟩
  rw [hsame a (mem_viable.mp ha).1, hsame b (mem_viable.mp hb).1] at hne
  exact hne rfl

/-- What the tensions of some alternatives come to, in the ratings of these. -/
structure Measures (m : Matrix) (names : List Text) (ts : List Tension) : Prop where
  alternatives : ts.map Tension.alternative = names
  gains {t : Tension} : t ∈ ts → ∃ low : Text → Int,
    (∀ o, IsLeast (m.ratingsOn names o) (low o)) ∧
      t.gains = m.objectives.filter fun o => low o < m.rating t.alternative o
  losses {t : Tension} : t ∈ ts → ∃ high : Text → Int,
    (∀ o, IsGreatest (m.ratingsOn names o) (high o)) ∧
      t.losses = m.objectives.filter fun o => m.rating t.alternative o < high o
  gained_iff {o : Text} : (∃ t ∈ ts, o ∈ t.gains) ↔ o ∈ m.objectives ∧ m.Splits names o
  lost_iff {o : Text} : (∃ t ∈ ts, o ∈ t.losses) ↔ o ∈ m.objectives ∧ m.Splits names o
  irrelevant {i : Irrelevance} :
    i ∈ m.irrelevances → ∀ t ∈ ts, i.objective ∉ t.gains ∧ i.objective ∉ t.losses

/-- **Gains and losses are distances from the extremes.** Whatever alternatives are
excluded, there is one tension for each of the others, in order. It has the objectives
above the lowest rating that these have, and those below the highest; all gains, all
losses and all differences among them are of the same objectives, none of which is
irrelevant. -/
theorem tensions_measured (m : Matrix) (excluded : List Text) :
    m.Measures (m.alternatives.filter fun a => a ∉ excluded) (m.tensions excluded) := by
  have hviable : (m.alternatives.filter fun a => a ∉ excluded) = m.viable excluded :=
    List.filter_congr fun a _ => by simp
  rw [hviable]
  constructor
  case alternatives =>
    rw [tensions, List.map_map]
    exact List.map_id _
  case gains =>
    intro t ht
    obtain ⟨a, ha, rfl⟩ := mem_tensions_iff.mp ht
    choose low hlow using exists_isLeast_ratingsOn (m := m) ha
    exact ⟨low, hlow, gains_eq_filter low hlow⟩
  case losses =>
    intro t ht
    obtain ⟨a, ha, rfl⟩ := mem_tensions_iff.mp ht
    choose high hhigh using exists_isGreatest_ratingsOn (m := m) ha
    exact ⟨high, hhigh, losses_eq_filter high hhigh⟩
  case gained_iff => exact exists_mem_gains_iff
  case lost_iff => exact exists_mem_losses_iff
  case irrelevant =>
    intro i hi t ht
    have hnone := not_splits_of_mem_irrelevances hi excluded
    exact ⟨fun ho => hnone (exists_mem_gains_iff.mp ⟨t, ht, ho⟩).2,
      fun ho => hnone (exists_mem_losses_iff.mp ⟨t, ht, ho⟩).2⟩

/-- If a dominated alternative is not excluded, it only loses; and what is excluded need
not be dominated, nor declared. -/
example :
    let cell (a o : Text) (r : Rating) : Cell :=
      { alternative := a, objective := o, rating := r, rationale := .null }
    let start : Matrix :=
      { alternatives := ["A", "B", "C"], objectives := ["Cost", "Speed"], cells := Table.empty }
    let m := (start.fill (cell "A" "Cost" .better)).fill (cell "C" "Speed" .better)
    m.dominated = ["B"] ∧ (m.tensions [])[1]? = some ⟨"B", [], ["Cost", "Speed"]⟩ ∧
      m.tensions ["A", "D"] = [⟨"B", [], ["Speed"]⟩, ⟨"C", ["Speed"], []⟩] := by
  decide +kernel

end DecisionCycle.Matrix
