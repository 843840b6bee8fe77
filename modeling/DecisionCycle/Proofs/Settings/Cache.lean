import DecisionCycle.Main
import Mathlib.Tactic

/-!
Asking for the settings time and again. The environment and the files may be others each
time. What is kept is always what the last call gave that did not fail, and it is the answer
to every call that does not ask for the settings anew. All other calls, and those before
anything was given, are answered from the surroundings of their own time, of which only the
variables of the program and the one file count. A call that fails changes nothing.
-/

namespace DecisionCycle

structure SettingsCall where
  reload : Bool
  surroundings : Surroundings

/-- Surroundings that have the same variables of the program and the same settings file. -/
structure Surroundings.Alike (w w' : Surroundings) : Prop where
  env {name : String} : name ∈ CommandLine.variableNames → w.env name = w'.env name
  file : w.files.contents (Settings.path w) = w'.files.contents (Settings.path w')

def SettingsLookup.given? (found : SettingsLookup) : Option Settings :=
  found.answer.toOption.map Prod.fst

namespace Settings

theorem read_congr (reader : DocumentReader) {w w' : Surroundings} (h : w.Alike w') :
    read reader w = read reader w' := by
  have hlevel : w.env "PROACT_LOG_LEVEL" = w'.env "PROACT_LOG_LEVEL" := h.env (by decide)
  have hformat : w.env "PROACT_LOG_FORMAT" = w'.env "PROACT_LOG_FORMAT" := h.env (by decide)
  have hdebug : w.env "PROACT_DEBUG" = w'.env "PROACT_DEBUG" := h.env (by decide)
  simp only [read, h.file, ofContents, readDebug, hlevel, hformat, hdebug]

end Settings

namespace SettingsCache

variable {reader : DocumentReader} {cache : SettingsCache} {calls : List SettingsCall}

/-! ### One call -/

theorem load_kept (s : Settings) (w : Surroundings) :
    load reader (some s) false w = { answer := .ok (s, []), cache := some s } := rfl

theorem load_anew {reload : Bool} (h : reload = true ∨ cache = none) (w : Surroundings) :
    (cache.load reader reload w).answer = Settings.read reader w := by
  rcases h with rfl | rfl
  · unfold load
    cases cache <;> cases Settings.read reader w <;> rfl
  · unfold load
    cases Settings.read reader w <;> rfl

theorem cache_load (reader : DocumentReader) (cache : SettingsCache) (reload : Bool)
    (w : Surroundings) :
    (cache.load reader reload w).cache = (cache.load reader reload w).given?.or cache := by
  unfold load SettingsLookup.given?
  cases cache <;> cases reload <;> cases Settings.read reader w <;> rfl

/-! ### Many calls -/

def run (reader : DocumentReader) (cache : SettingsCache) : List SettingsCall → List SettingsLookup
  | [] => []
  | call :: calls =>
      cache.load reader call.reload call.surroundings ::
        run reader (cache.load reader call.reload call.surroundings).cache calls

def after (reader : DocumentReader) (cache : SettingsCache) (calls : List SettingsCall) :
    SettingsCache :=
  calls.foldl (fun cache call => (cache.load reader call.reload call.surroundings).cache) cache

def lastGiven (lookups : List SettingsLookup) : Option Settings :=
  (lookups.filterMap SettingsLookup.given?).getLast?

theorem lastGiven_cons (found : SettingsLookup) (lookups : List SettingsLookup) :
    lastGiven (found :: lookups) = (lastGiven lookups).or found.given? := by
  unfold lastGiven
  cases h : found.given? with
  | none => rw [List.filterMap_cons_none h, Option.or_none]
  | some s =>
      rw [List.filterMap_cons_some h, List.getLast?_cons]
      cases (lookups.filterMap SettingsLookup.given?).getLast? <;> rfl

theorem length_run (reader : DocumentReader) (cache : SettingsCache) (calls : List SettingsCall) :
    (cache.run reader calls).length = calls.length := by
  induction calls generalizing cache with
  | nil => rfl
  | cons call calls ih => exact congrArg Nat.succ (ih _)

theorem take_run (reader : DocumentReader) (cache : SettingsCache) (calls : List SettingsCall)
    (i : ℕ) :
    (cache.run reader calls).take i = cache.run reader (calls.take i) := by
  induction calls generalizing cache i with
  | nil => rw [List.take_nil, run, List.take_nil]
  | cons call calls ih =>
      cases i with
      | zero => rfl
      | succ i => exact congrArg _ (ih _ i)

theorem getElem?_run (reader : DocumentReader) (cache : SettingsCache)
    (calls : List SettingsCall) (i : ℕ) :
    (cache.run reader calls)[i]? = calls[i]?.map fun call =>
      (cache.after reader (calls.take i)).load reader call.reload call.surroundings := by
  induction calls generalizing cache i with
  | nil => rfl
  | cons call calls ih =>
      cases i with
      | zero => rfl
      | succ i => exact ih _ i

theorem after_eq (reader : DocumentReader) (cache : SettingsCache) (calls : List SettingsCall) :
    cache.after reader calls = (lastGiven (cache.run reader calls)).or cache := by
  induction calls generalizing cache with
  | nil => rfl
  | cons call calls ih =>
      -- what the first call gave is kept, unless a later one gives something
      change after reader (cache.load reader call.reload call.surroundings).cache calls = _
      rw [ih, run, lastGiven_cons, Option.or_assoc, ← cache_load]

theorem after_none_eq (reader : DocumentReader) (calls : List SettingsCall) (i : ℕ) :
    after reader none (calls.take i) = lastGiven ((run reader none calls).take i) := by
  rw [after_eq, take_run, Option.or_none]

section

variable {i : ℕ} {call : SettingsCall} {found : SettingsLookup} {fault : Fault}

theorem eq_load (hcall : calls[i]? = some call)
    (hfound : (run reader none calls)[i]? = some found) :
    found =
      load reader (lastGiven ((run reader none calls).take i)) call.reload call.surroundings := by
  rw [getElem?_run, hcall, after_none_eq] at hfound
  exact (Option.some.inj hfound).symm

theorem exists_call (hfound : (run reader none calls)[i]? = some found) :
    ∃ call, calls[i]? = some call := by
  rw [getElem?_run] at hfound
  obtain ⟨call, hcall, -⟩ := Option.map_eq_some_iff.mp hfound
  exact ⟨call, hcall⟩

theorem cache_eq (hfound : (run reader none calls)[i]? = some found) :
    found.cache = found.given?.or (lastGiven ((run reader none calls).take i)) := by
  obtain ⟨call, hcall⟩ := exists_call hfound
  rw [eq_load hcall hfound]
  exact cache_load ..

theorem cache_eq_lastGiven (hfound : (run reader none calls)[i]? = some found) :
    found.cache = lastGiven ((run reader none calls).take (i + 1)) := by
  obtain ⟨call, hcall⟩ := exists_call hfound
  rw [getElem?_run, hcall] at hfound
  rw [← after_none_eq, List.take_add_one, hcall, after, List.foldl_append,
    ← Option.some.inj hfound]
  rfl

theorem cache_of_error (hfound : (run reader none calls)[i]? = some found)
    (hfault : found.answer = .error fault) :
    found.cache = lastGiven ((run reader none calls).take i) := by
  rw [cache_eq hfound, SettingsLookup.given?, hfault]
  rfl

theorem answer_of_lastGiven {s : Settings} (hcall : calls[i]? = some call)
    (hfound : (run reader none calls)[i]? = some found) (hreload : call.reload = false)
    (hs : lastGiven ((run reader none calls).take i) = some s) : found.answer = .ok (s, []) := by
  rw [eq_load hcall hfound, hs, hreload, load_kept]

end

/-- What calls are answered, one after another, and what is kept of it. -/
structure Consistent (reader : DocumentReader) (calls : List SettingsCall)
    (lookups : List SettingsLookup) : Prop where
  length : lookups.length = calls.length
  /-- A call that does not ask for the settings anew has those that were given last. -/
  kept {i : ℕ} {call : SettingsCall} {found : SettingsLookup} {s : Settings} :
    calls[i]? = some call → lookups[i]? = some found → call.reload = false →
      lastGiven (lookups.take i) = some s → found.answer = .ok (s, [])
  /-- Any other call has those of its own time. -/
  anew {i : ℕ} {call : SettingsCall} {found : SettingsLookup} {w : Surroundings} :
    calls[i]? = some call → lookups[i]? = some found →
      call.reload = true ∨ lastGiven (lookups.take i) = none →
      call.surroundings.Alike w → found.answer = Settings.read reader w
  cached {i : ℕ} {found : SettingsLookup} :
    lookups[i]? = some found → found.cache = lastGiven (lookups.take (i + 1))
  /-- A call that fails changes nothing, -/
  refused {i : ℕ} {found : SettingsLookup} {fault : Fault} :
    lookups[i]? = some found → found.answer = .error fault →
      found.cache = lastGiven (lookups.take i)
  /-- and the next one goes on with what was there before. -/
  resumed {i : ℕ} {next : SettingsCall} {found nextFound : SettingsLookup} {fault : Fault}
      {s : Settings} :
    lookups[i]? = some found → found.answer = .error fault →
      lastGiven (lookups.take i) = some s → calls[i + 1]? = some next → next.reload = false →
      lookups[i + 1]? = some nextFound → nextFound.answer = .ok (s, [])

/-- Any calls from the beginning on are answered consistently, whatever reads the documents. -/
theorem run_consistent (reader : DocumentReader) (calls : List SettingsCall) :
    Consistent reader calls (run reader none calls) := by
  constructor
  case length => exact length_run reader none calls
  case kept =>
    intro i call found s hcall hfound hreload hs
    exact answer_of_lastGiven hcall hfound hreload hs
  case anew =>
    intro i call found w hcall hfound hanew hw
    rw [eq_load hcall hfound, load_anew hanew, Settings.read_congr reader hw]
  case cached =>
    intro i found hfound
    exact cache_eq_lastGiven hfound
  case refused =>
    intro i found fault hfound hfault
    exact cache_of_error hfound hfault
  case resumed =>
    intro i next found nextFound fault s hfound hfault hs hnext hreload hnextFound
    have hkept : lastGiven ((run reader none calls).take (i + 1)) = some s := by
      rw [← cache_eq_lastGiven hfound, cache_of_error hfound hfault, hs]
    exact answer_of_lastGiven hnext hnextFound hreload hkept

end SettingsCache

end DecisionCycle
