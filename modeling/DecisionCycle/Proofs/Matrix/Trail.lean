import DecisionCycle.Proofs.Matrix.Score

/-!
Trails of dominators. The entry of a dominated alternative names the first one that
dominates it, which may be dominated in turn and have an entry of its own. Following
these entries climbs: every name on the way scores higher than those before it, so
none comes twice, and dominance being transitive the end of the trail, which has no
entry, dominates the start.
-/

namespace DecisionCycle

/-- The trail from a name: the names that come after it from entry to entry, and the
one at which there is no further entry. -/
inductive Trail (entries : List Domination) : Text → List Text → Text → Prop where
  | stop {a : Text} (h : ∀ d ∈ entries, d.alternative ≠ a) : Trail entries a [] a
  | next {d : Domination} {names : List Text} {z : Text} (h : d ∈ entries)
      (rest : Trail entries d.dominator names z) :
      Trail entries d.alternative (d.dominator :: names) z

theorem Trail.unique {entries : List Domination}
    (hentries : ∀ d ∈ entries, ∀ e ∈ entries, d.alternative = e.alternative → d = e)
    {a z z' : Text} {names names' : List Text} (h : Trail entries a names z)
    (h' : Trail entries a names' z') : names' = names ∧ z' = z := by
  induction h generalizing names' z' with
  | stop hstop =>
      cases h' with
      | stop => exact ⟨rfl, rfl⟩
      | next hd => exact absurd rfl (hstop _ hd)
  | @next d names z hd _ ih =>
      generalize ha : d.alternative = a at h'
      cases h' with
      | stop hstop => exact absurd ha (hstop d hd)
      | @next e _ _ he rest =>
          obtain rfl := hentries d hd e he ha
          obtain ⟨rfl, rfl⟩ := ih rest
          exact ⟨rfl, rfl⟩

namespace Matrix

variable {m : Matrix}

/-! ### The entries of a matrix -/

theorem mem_dominations_iff {d : Domination} :
    d ∈ m.dominations ↔
      d.alternative ∈ m.alternatives ∧ m.dominator? d.alternative = some d.dominator ∧
        d.betterOn = m.betterOn d.dominator d.alternative := by
  rw [dominations, List.mem_filterMap]
  constructor
  · rintro ⟨b, hb, hd⟩
    obtain ⟨a, ha, rfl⟩ := Option.map_eq_some_iff.mp hd
    exact ⟨hb, ha, rfl⟩
  · rintro ⟨hb, ha, hbetter⟩
    refine ⟨d.alternative, hb, ?_⟩
    rw [ha, Option.map_some, ← hbetter]

theorem dominations_eq_of_alternative_eq {d e : Domination} (hd : d ∈ m.dominations)
    (he : e ∈ m.dominations) (h : d.alternative = e.alternative) : d = e := by
  obtain ⟨-, hdominator, hbetter⟩ := mem_dominations_iff.mp hd
  obtain ⟨-, hdominator', hbetter'⟩ := mem_dominations_iff.mp he
  rw [h, hdominator'] at hdominator
  have hsame : e.dominator = d.dominator := Option.some.inj hdominator
  obtain ⟨a, b, names⟩ := d
  obtain ⟨a', b', names'⟩ := e
  simp_all

theorem dominates_of_mem_dominations {d : Domination} (hd : d ∈ m.dominations) :
    d.dominator ∈ m.alternatives ∧ m.dominates d.dominator d.alternative = true := by
  obtain ⟨-, hdominator, -⟩ := mem_dominations_iff.mp hd
  obtain ⟨hmem, -, hdom⟩ := dominator?_eq_some hdominator
  exact ⟨hmem, hdom⟩

theorem mem_dominated_iff_exists {a : Text} :
    a ∈ m.dominated ↔ ∃ d ∈ m.dominations, d.alternative = a :=
  List.mem_map

theorem dominated_eq_filter (m : Matrix) :
    m.dominated = m.alternatives.filter fun a => (m.dominator? a).isSome := by
  rw [dominated, dominations, map_filterMap_eq_filter]
  · simp
  · intro b d hd
    obtain ⟨a, -, rfl⟩ := Option.map_eq_some_iff.mp hd
    rfl

theorem dominated_append_viable_perm (m : Matrix) :
    (m.dominated ++ m.viable m.dominated).Perm m.alternatives := by
  rw [viable, dominated_eq_filter]
  exact filter_append_others_perm _ _

/-! ### Climbing -/

theorem score_lt_of_mem_trail {a z : Text} {names : List Text}
    (h : Trail m.dominations a names z) {b : Text} (hb : b ∈ names) :
    m.score a < m.score b := by
  induction h with
  | stop => cases hb
  | next hd _ ih =>
      have hlt := score_lt_of_dominates (dominates_of_mem_dominations hd).2
      rcases List.mem_cons.mp hb with rfl | hb
      · exact hlt
      · exact hlt.trans (ih hb)

theorem nodup_trail {a z : Text} {names : List Text} (h : Trail m.dominations a names z) :
    (a :: names).Nodup := by
  induction h with
  | stop => exact List.nodup_singleton _
  | next hd rest ih =>
      refine List.nodup_cons.mpr ⟨fun hmem => ?_, ih⟩
      exact lt_irrefl _ (score_lt_of_mem_trail (.next hd rest) hmem)

/-- The end of a trail is left over, and dominates the start if it is another name. -/
theorem trail_end {a z : Text} {names : List Text} (h : Trail m.dominations a names z)
    (ha : a ∈ m.alternatives) :
    z ∈ m.viable m.dominated ∧ (z = a ∨ m.dominates z a = true) := by
  induction h with
  | stop hstop =>
      refine ⟨mem_viable.mpr ⟨ha, fun hdominated => ?_⟩, .inl rfl⟩
      obtain ⟨d, hd, hsame⟩ := mem_dominated_iff_exists.mp hdominated
      exact hstop d hd hsame
  | next hd _ ih =>
      obtain ⟨hmem, hdom⟩ := dominates_of_mem_dominations hd
      obtain ⟨hz, rfl | hclimb⟩ := ih hmem
      · exact ⟨hz, .inr hdom⟩
      · exact ⟨hz, .inr (dominates_trans hclimb hdom)⟩

theorem exists_trail {a : Text} (ha : a ∈ m.alternatives) :
    ∃ names z, Trail m.dominations a names z := by
  apply dominator_induction (P := fun a => ∃ names z, Trail m.dominations a names z) ?_ ha
  intro a _ ih
  by_cases hentry : ∃ d ∈ m.dominations, d.alternative = a
  · obtain ⟨d, hd, rfl⟩ := hentry
    obtain ⟨hmem, hdom⟩ := dominates_of_mem_dominations hd
    obtain ⟨names, z, rest⟩ := ih d.dominator hmem hdom
    exact ⟨_, z, .next hd rest⟩
  · exact ⟨[], a, .stop fun d hd hsame => hentry ⟨d, hd, hsame⟩⟩

theorem exists_viable_above {a : Text} (ha : a ∈ m.alternatives) :
    ∃ z ∈ m.viable m.dominated, z = a ∨ m.dominates z a = true := by
  obtain ⟨names, z, htrail⟩ := exists_trail ha
  exact ⟨z, trail_end htrail ha⟩

end Matrix

end DecisionCycle
