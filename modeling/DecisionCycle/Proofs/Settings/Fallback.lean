import DecisionCycle.Proofs.Payload
import DecisionCycle.Proofs.Settings.Cache
import DecisionCycle.Yaml.Document

/-!
What the settings fall back on. A settings file that is not there counts as empty, and so
does one that may not be read, a directory, no document, or no mapping; each of these is told
of.
What the file does not say is filled in from the defaults, and the environment has
precedence over the file. The level is always one of the five.

The fallback has gaps. A section that is given and no mapping is not passed over but makes
reading the settings break off. So do bytes that are no text, anything else that the reader of
documents gives up on, a level that is too long to be written out, a path that is too long,
and one through a directory that may not be searched. There are no other gaps.
-/

namespace DecisionCycle

def Value.fields? (v : Value) : Option (List (Value × Value)) :=
  match v with
  | .dict entries => some entries
  | v => if v.isGiven then none else some []

theorem Value.orElse_of_fields? {v : Value} {fields : List (Value × Value)}
    (h : v.fields? = some fields) : v.orElse (.dict []) = .dict fields := by
  unfold fields? at h
  split at h
  · cases h
    cases fields <;> rfl
  · split at h
    · cases h
    · cases h
      exact if_neg ‹_›

theorem Value.fieldOr_dict (fields : List (Value × Value)) (name : String) (default : Value) :
    (Value.dict fields).fieldOr name default =
      .ok ((Value.lookup? name fields).getD default) := rfl

theorem Value.orElse_of_fields?_eq_none {v : Value} (h : v.fields? = none) :
    v.orElse (.dict []) = v ∧ ∀ fields, v ≠ .dict fields := by
  unfold fields? at h
  split at h
  case h_1 => cases h
  case h_2 hmap =>
    refine ⟨orElse_of_isGiven ?_, hmap⟩
    by_contra hgiven
    rw [if_neg hgiven] at h
    cases h

theorem Value.fieldOr_of_fields?_eq_none {v : Value} (h : v.fields? = none) (name : String)
    (default : Value) : (v.orElse (.dict [])).fieldOr name default = .error .notMapping := by
  obtain ⟨horElse, hmap⟩ := orElse_of_fields?_eq_none h
  rw [horElse]
  cases v with
  | dict entries => exact absurd rfl (hmap entries)
  | _ => rfl

namespace Settings

variable {reader : DocumentReader} {w : Surroundings} {file : Except FileFault ByteArray}
  {contents : List (Value × Value)} {warnings : List SettingsWarning}

/-! ### The file -/

/-- What is taken to be in a settings file, and the warning if it is passed over. -/
inductive Offers (reader : DocumentReader) :
    Except FileFault ByteArray → List (Value × Value) → List SettingsWarning → Prop where
  | absent {cause : FileFault}
      (h : cause = .missing ∨ cause = .belowFile ∨ cause = .unnameable) :
      Offers reader (.error cause) [] []
  | closed {cause : FileFault} (h : cause = .directory ∨ cause = .forbidden) :
      Offers reader (.error cause) [] [.unreadable]
  | malformed {data : ByteArray} (h : reader (.ofBytes data) = .error .malformed) :
      Offers reader (.ok data) [] [.unreadable]
  | mapping {data : ByteArray} {v : Value} {contents : List (Value × Value)}
      (h : reader (.ofBytes data) = .ok v) (hv : v.fields? = some contents) :
      Offers reader (.ok data) contents []
  | notMapping {data : ByteArray} {v : Value}
      (h : reader (.ofBytes data) = .ok v) (hv : v.fields? = none) :
      Offers reader (.ok data) [] [.notMapping]

/-- What keeps a settings file from being passed over: a path that is too long, or that leads
through a directory that may not be searched, or something else that is wrong with the
document than that it is malformed. -/
inductive Spoils (reader : DocumentReader) : Except FileFault ByteArray → FileFault → Prop where
  | path {cause : FileFault}
      (h : cause = .tooLong ∨ cause = .barred ∨ ∃ fault, cause = .document fault) :
      Spoils reader (.error cause) cause
  | document {data : ByteArray} {cause : DocumentFault}
      (h : reader (.ofBytes data) = .error cause) (hcause : cause ≠ .malformed) :
      Spoils reader (.ok data) (.document cause)

theorem readFile_of_offers (h : Offers reader file contents warnings) :
    readFile reader file = .ok (.dict contents, warnings) := by
  cases h with
  | absent h => rcases h with rfl | rfl | rfl <;> rfl
  | closed h => rcases h with rfl | rfl <;> rfl
  | malformed h =>
      unfold readFile
      simp only [h]
  | mapping h hv =>
      unfold readFile
      simp only [h, Value.orElse_of_fields? hv]
  | notMapping h hv =>
      obtain ⟨horElse, hmap⟩ := Value.orElse_of_fields?_eq_none hv
      unfold readFile
      simp only [h, horElse]

theorem readFile_of_spoils {cause : FileFault} (h : Spoils reader file cause) :
    readFile reader file = .error (.file cause) := by
  cases h with
  | path h => rcases h with rfl | rfl | ⟨fault, rfl⟩ <;> rfl
  | document h hcause =>
      unfold readFile
      simp only [h]

theorem offers_or_spoils (reader : DocumentReader) (file : Except FileFault ByteArray) :
    (∃ contents warnings, Offers reader file contents warnings) ∨
      ∃ cause, Spoils reader file cause := by
  cases file with
  | error cause =>
      cases cause with
      | missing => exact .inl ⟨_, _, .absent (.inl rfl)⟩
      | belowFile => exact .inl ⟨_, _, .absent (.inr (.inl rfl))⟩
      | unnameable => exact .inl ⟨_, _, .absent (.inr (.inr rfl))⟩
      | directory => exact .inl ⟨_, _, .closed (.inl rfl)⟩
      | forbidden => exact .inl ⟨_, _, .closed (.inr rfl)⟩
      | tooLong => exact .inr ⟨_, .path (.inl rfl)⟩
      | barred => exact .inr ⟨_, .path (.inr (.inl rfl))⟩
      | document fault => exact .inr ⟨_, .path (.inr (.inr ⟨fault, rfl⟩))⟩
  | ok data =>
      cases h : reader (.ofBytes data) with
      | error cause =>
          by_cases hcause : cause = .malformed
          · exact .inl ⟨_, _, .malformed (hcause ▸ h)⟩
          · exact .inr ⟨_, .document h hcause⟩
      | ok v =>
          cases hv : v.fields? with
          | some contents => exact .inl ⟨_, _, .mapping h hv⟩
          | none => exact .inl ⟨_, _, .notMapping h hv⟩

/-! ### Its sections -/

def sectionFields? (contents : List (Value × Value)) (name : String) :
    Option (List (Value × Value)) :=
  ((Value.lookup? name contents).getD .null).fields?

theorem section?_dict (contents : List (Value × Value)) (name : String) :
    (section? (.dict contents) name) =
      .ok (((Value.lookup? name contents).getD .null).orElse (.dict [])) := rfl

/-- The settings are those of the environment, those of the file where the environment says
nothing, and the defaults where neither does. -/
structure FollowsFrom (w : Surroundings) (contents : List (Value × Value)) (s : Settings) :
    Prop where
  logging : ∃ logging, sectionFields? contents "logging" = some logging ∧
    ((Value.lookup? "level" logging).getD (.str "INFO")).isWritable = true ∧
    s.level = readLevel (((w.env "PROACT_LOG_LEVEL").map Text.ofString).getD
      ((Value.lookup? "level" logging).getD (.str "INFO")).text) ∧
    s.format = ((w.env "PROACT_LOG_FORMAT").map fun s => .str s).getD
      ((Value.lookup? "format" logging).getD (.str defaultFormat))
  debug : readSwitch ((w.env "PROACT_DEBUG").getD "") = some s.debug ∨
    readSwitch ((w.env "PROACT_DEBUG").getD "") = none ∧
      ∃ app, sectionFields? contents "app" = some app ∧
        s.debug = ((Value.lookup? "debug" app).getD (.bool false)).isGiven

/-- What is in the file keeps the settings from being read. -/
inductive Upsets (w : Surroundings) (contents : List (Value × Value)) : PayloadFault → Prop where
  | logging (h : sectionFields? contents "logging" = none) : Upsets w contents .notMapping
  | level {logging : List (Value × Value)}
      (h : sectionFields? contents "logging" = some logging)
      (hlevel : ((Value.lookup? "level" logging).getD (.str "INFO")).isWritable = false) :
      Upsets w contents .tooManyDigits
  | app {logging : List (Value × Value)}
      (h : sectionFields? contents "logging" = some logging)
      (hlevel : ((Value.lookup? "level" logging).getD (.str "INFO")).isWritable = true)
      (hswitch : readSwitch ((w.env "PROACT_DEBUG").getD "") = none)
      (happ : sectionFields? contents "app" = none) : Upsets w contents .notMapping

theorem ofContents_of_sectionFields? {logging : List (Value × Value)}
    (h : sectionFields? contents "logging" = some logging) :
    ofContents w (.dict contents) = (do
      let text ← ((Value.lookup? "level" logging).getD (.str "INFO")).written
      let debug ← readDebug w (((Value.lookup? "app" contents).getD .null).orElse (.dict []))
      return {
        level := readLevel (((w.env "PROACT_LOG_LEVEL").map Text.ofString).getD text)
        format := ((w.env "PROACT_LOG_FORMAT").map fun s => .str s).getD
          ((Value.lookup? "format" logging).getD (.str defaultFormat))
        debug }) := by
  simp only [ofContents, section?_dict, Value.orElse_of_fields? h, Value.fieldOr_dict, ok_bind]

theorem readDebug_of_sectionFields? {app : List (Value × Value)}
    (hswitch : readSwitch ((w.env "PROACT_DEBUG").getD "") = none)
    (happ : sectionFields? contents "app" = some app) :
    readDebug w (((Value.lookup? "app" contents).getD .null).orElse (.dict [])) =
      .ok ((Value.lookup? "debug" app).getD (.bool false)).isGiven := by
  rw [readDebug, hswitch, Value.orElse_of_fields? happ, Value.fieldOr_dict]
  rfl

theorem ofContents_of_followsFrom {s : Settings} (h : FollowsFrom w contents s) :
    ofContents w (.dict contents) = .ok s := by
  obtain ⟨⟨logging, hlogging, hwritable, hlevel, hformat⟩, hdebug⟩ := h
  have hread : readDebug w (((Value.lookup? "app" contents).getD .null).orElse (.dict [])) =
      .ok s.debug := by
    rcases hdebug with hswitch | ⟨hswitch, app, happ, hdebug⟩
    · rw [readDebug, hswitch]
    · rw [readDebug_of_sectionFields? hswitch happ, hdebug]
  rw [ofContents_of_sectionFields? hlogging, hread, Value.written, if_pos hwritable, ok_bind,
    ok_bind, ← hlevel, ← hformat]
  rfl

theorem ofContents_of_upsets {cause : PayloadFault} (h : Upsets w contents cause) :
    ofContents w (.dict contents) = .error cause := by
  cases h with
  | logging h =>
      rw [ofContents, section?_dict, ok_bind, Value.fieldOr_of_fields?_eq_none h]
      rfl
  | level h hlevel =>
      rw [ofContents_of_sectionFields? h, Value.written, if_neg (ne_true_of_eq_false hlevel)]
      rfl
  | app h hlevel hswitch happ =>
      rw [ofContents_of_sectionFields? h, Value.written, if_pos hlevel, ok_bind, readDebug, hswitch]
      dsimp only
      rw [Value.fieldOr_of_fields?_eq_none happ]
      rfl

theorem followsFrom_or_upsets (w : Surroundings) (contents : List (Value × Value)) :
    (∃ s, FollowsFrom w contents s) ∨ ∃ cause, Upsets w contents cause := by
  cases hlogging : sectionFields? contents "logging" with
  | none => exact .inr ⟨_, .logging hlogging⟩
  | some logging =>
      cases hlevel : ((Value.lookup? "level" logging).getD (.str "INFO")).isWritable with
      | false => exact .inr ⟨_, .level hlogging hlevel⟩
      | true =>
          cases hswitch : readSwitch ((w.env "PROACT_DEBUG").getD "") with
          | some b =>
              exact .inl ⟨⟨_, _, b⟩, ⟨logging, hlogging, hlevel, rfl, rfl⟩, .inl hswitch⟩
          | none =>
              cases happ : sectionFields? contents "app" with
              | none => exact .inr ⟨_, .app hlogging hlevel hswitch happ⟩
              | some app =>
                  exact .inl ⟨⟨_, _, _⟩, ⟨logging, hlogging, hlevel, rfl, rfl⟩,
                    .inr ⟨hswitch, app, happ, rfl⟩⟩

/-! ### Reading the settings -/

/-- The ways in which reading the settings breaks off. -/
inductive BreaksOff (reader : DocumentReader) (w : Surroundings) : Fault → Prop where
  | file {cause : FileFault} (h : Spoils reader (w.files.contents (path w)) cause) :
      BreaksOff reader w (.file cause)
  | contents {contents : List (Value × Value)} {warnings : List SettingsWarning}
      {cause : PayloadFault} (h : Offers reader (w.files.contents (path w)) contents warnings)
      (hupset : Upsets w contents cause) : BreaksOff reader w (.payload cause)

theorem read_of_followsFrom {s : Settings}
    (h : Offers reader (w.files.contents (path w)) contents warnings)
    (hs : FollowsFrom w contents s) :
    read reader w = .ok (s, warnings) := by
  rw [read, readFile_of_offers h, ok_bind]
  dsimp only
  rw [ofContents_of_followsFrom hs]
  rfl

theorem read_of_breaksOff {fault : Fault} (h : BreaksOff reader w fault) :
    read reader w = .error fault := by
  cases h with
  | file h =>
      rw [read, readFile_of_spoils h]
      rfl
  | contents h hupset =>
      rw [read, readFile_of_offers h, ok_bind]
      dsimp only
      rw [ofContents_of_upsets hupset]
      rfl

theorem followsFrom_or_breaksOff (reader : DocumentReader) (w : Surroundings) :
    (∃ contents warnings s, Offers reader (w.files.contents (path w)) contents warnings ∧
      FollowsFrom w contents s) ∨ ∃ fault, BreaksOff reader w fault := by
  rcases offers_or_spoils reader (w.files.contents (path w)) with
    ⟨contents, warnings, h⟩ | ⟨cause, h⟩
  · rcases followsFrom_or_upsets w contents with ⟨s, hs⟩ | ⟨cause, hupset⟩
    · exact .inl ⟨contents, warnings, s, h, hs⟩
    · exact .inr ⟨_, .contents h hupset⟩
  · exact .inr ⟨_, .file h⟩

/-- What comes of reading the settings: those that follow from what is taken to be in the
file, with its warnings, or else a fault that breaks it off. -/
structure FallsBack (reader : DocumentReader) (w : Surroundings)
    (answer : Except Fault (Settings × List SettingsWarning)) : Prop where
  given_iff {s : Settings} {warnings : List SettingsWarning} :
    answer = .ok (s, warnings) ↔ ∃ contents,
      Offers reader (w.files.contents (path w)) contents warnings ∧ FollowsFrom w contents s
  broken_iff {fault : Fault} : answer = .error fault ↔ BreaksOff reader w fault
  level {s : Settings} {warnings : List SettingsWarning} : answer = .ok (s, warnings) →
    s.level.name ∈ ["DEBUG", "INFO", "WARNING", "ERROR", "CRITICAL"]

theorem read_fallsBack (reader : DocumentReader) (w : Surroundings) :
    FallsBack reader w (read reader w) := by
  constructor
  case given_iff =>
    intro s warnings
    constructor
    · intro h
      rcases followsFrom_or_breaksOff reader w with
        ⟨contents, warnings', s', hoffers, hs⟩ | ⟨_, hfault⟩
      · cases (read_of_followsFrom hoffers hs).symm.trans h
        exact ⟨contents, hoffers, hs⟩
      · cases (read_of_breaksOff hfault).symm.trans h
    · rintro ⟨contents, hoffers, hs⟩
      exact read_of_followsFrom hoffers hs
  case broken_iff =>
    intro fault
    constructor
    · intro h
      rcases followsFrom_or_breaksOff reader w with
        ⟨contents, warnings, s, hoffers, hs⟩ | ⟨_, hfault⟩
      · cases (read_of_followsFrom hoffers hs).symm.trans h
      · cases (read_of_breaksOff hfault).symm.trans h
        exact hfault
    · exact read_of_breaksOff
  case level =>
    intro s warnings _
    cases s.level <;> decide

end Settings

namespace SettingsCache

/-- Reloading the settings falls back as it should but for the gaps of `BreaksOff`, whatever
reads the documents. -/
theorem load_fallsBack (reader : DocumentReader) (cache : SettingsCache) (w : Surroundings) :
    Settings.FallsBack reader w (cache.load reader true w).answer := by
  rw [load_anew (.inl rfl)]
  exact Settings.read_fallsBack reader w

/-- A section that is no mapping and bytes that are no text: neither is passed over. -/
theorem load_breaksOff :
    let around (data : ByteArray) : Surroundings :=
      { env := fun _ => none
        files := fun p => if p.names = [] then .directory true true else .bytes data
        root := .ofString "/" }
    let answer (data : ByteArray) := (load Yaml.read none true (around data)).answer
    (answer "logging: [1]".toUTF8 = .error (.payload .notMapping) ∧
        ¬∃ s warnings, answer "logging: [1]".toUTF8 = .ok (s, warnings)) ∧
      answer (.mk #[0xFF, 0xFE]) = .error (.file (.document .undecodable)) ∧
        ¬∃ s warnings, answer (.mk #[0xFF, 0xFE]) = .ok (s, warnings) := by
  intro around answer
  have hsection : answer "logging: [1]".toUTF8 = .error (.payload .notMapping) := by
    have h : (match answer "logging: [1]".toUTF8 with
      | .error (.payload .notMapping) => true
      | _ => false) = true := by decide +kernel
    split at h
    · assumption
    · cases h
  have hbytes : answer (.mk #[0xFF, 0xFE]) = .error (.file (.document .undecodable)) := by
    have h : (match answer (.mk #[0xFF, 0xFE]) with
      | .error (.file (.document .undecodable)) => true
      | _ => false) = true := by decide +kernel
    split at h
    · assumption
    · cases h
  rw [hsection, hbytes]
  refine ⟨⟨rfl, ?_⟩, rfl, ?_⟩
  all_goals rintro ⟨s, warnings, h⟩; cases h

end SettingsCache

end DecisionCycle
