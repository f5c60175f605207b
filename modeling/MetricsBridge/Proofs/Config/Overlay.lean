import MetricsBridge.Config.Load
import MetricsBridge.Proofs.Success

/-!
# Layers of the configuration

A configuration is what a file says, under what the environment says.  In each place of the
connection the upper of the two values counts that is not blank.  The program drops blank values in
two places, in the connection of a file (`fromFiles_eq`) and in the environment (`overlay_eq_ok`);
`load_is_overlay` says what comes of the two together, and when nothing is loaded.
-/
namespace MetricsBridge

/-- The text has a character that is not blank. -/
def Text.HasInk (t : Text) : Prop :=
  ∃ c ∈ t, isBlank c = false

/-- The upper of two values if it is not blank, or else the lower one if that is not, or else
none. -/
inductive Overlays (upper lower : Option Text) : Option Text → Prop
  | upper (t : Text) (hu : upper = some t) (ht : t.HasInk) : Overlays upper lower (some t)
  | lower (t : Text) (hu : ∀ s, upper = some s → ¬ s.HasInk) (hl : lower = some t) (ht : t.HasInk) :
      Overlays upper lower (some t)
  | absent (hu : ∀ s, upper = some s → ¬ s.HasInk) (hl : ∀ s, lower = some s → ¬ s.HasInk) :
      Overlays upper lower none

/-- The text names the preset, in either case and with blanks around it. -/
def Preset.IsNamedBy (p : Preset) (t : Text) : Prop :=
  Text.sameIgnoringCase (Text.trim t) p.name = true

/-- The values of a connection that are there. -/
def Connection.values (c : Connection) : List Text :=
  c.url.toList ++ c.username.toList ++ c.password.toList ++ c.token.toList ++ c.orgId.toList

/-! ## Values -/

section Values

variable {upper lower result : Option Text} {t : Text}

theorem isAllBlank_eq_false : Text.isAllBlank t = false ↔ t.HasInk := by
  simp [Text.isAllBlank, Text.HasInk]

theorem nonBlank_eq_some : nonBlank upper = some t ↔ upper = some t ∧ t.HasInk := by
  rw [nonBlank, Option.filter_eq_some_iff, Bool.not_eq_true', isAllBlank_eq_false]

theorem nonBlank_eq_none : nonBlank upper = none ↔ ∀ s, upper = some s → ¬ s.HasInk := by
  rw [Option.eq_none_iff_forall_ne_some]
  constructor
  · intro h s hs hink
    exact h s (nonBlank_eq_some.mpr ⟨hs, hink⟩)
  · intro h s hs
    obtain ⟨hu, hink⟩ := nonBlank_eq_some.mp hs
    exact h s hu hink

/-- **Of two values the upper one that is not blank** is the only one that counts. -/
theorem overlays_iff : Overlays upper lower result ↔
    result = (nonBlank upper).or (nonBlank lower) := by
  constructor
  · intro h
    cases h with
    | upper t hu ht => rw [nonBlank_eq_some.mpr ⟨hu, ht⟩, Option.some_or]
    | lower t hu hl ht =>
      rw [nonBlank_eq_none.mpr hu, nonBlank_eq_some.mpr ⟨hl, ht⟩, Option.none_or]
    | absent hu hl => rw [nonBlank_eq_none.mpr hu, nonBlank_eq_none.mpr hl, Option.none_or]
  · rintro rfl
    cases hu : nonBlank upper with
    | some t =>
      obtain ⟨hu, ht⟩ := nonBlank_eq_some.mp hu
      exact .upper t hu ht
    | none =>
      have hu := nonBlank_eq_none.mp hu
      cases hl : nonBlank lower with
      | some t =>
        obtain ⟨hl, ht⟩ := nonBlank_eq_some.mp hl
        exact .lower t hu hl ht
      | none => exact .absent hu (nonBlank_eq_none.mp hl)

theorem Overlays.hasInk (h : Overlays upper lower (some t)) : t.HasInk := by
  cases h with
  | upper t hu ht => exact ht
  | lower t hu hl ht => exact ht

/-- The preset that a text names is found under its name. -/
theorem parse?_eq_some {p : Preset} : Preset.parse? t = some p ↔ p.IsNamedBy t := by
  have hlower : ∀ q : Preset, Text.toLowerAscii q.name = q.name := by
    intro q
    cases q <;> decide
  have hfind : ∀ name, Preset.find? name = some p ↔ name = p.name := by
    intro name
    rw [Preset.find?, Preset.all]
    constructor
    · intro h
      have hp := List.find?_some h
      exact (beq_iff_eq.mp hp).symm
    · rintro rfl
      cases p <;> decide
  rw [Preset.parse?, hfind, Preset.IsNamedBy, Text.sameIgnoringCase, beq_iff_eq, hlower]

end Values

namespace Config

/-! ## What a file says -/

section Files

/-- What a file says.  A file of blanks, or one without a document, leaves everything out. -/
def saidBy : FileContent → Except ConfigError Config
  | .missing => .error (.unreadable "No such file or directory (os error 2)".toList)
  | .directory => .error (.unreadable "Is a directory (os error 21)".toList)
  | .bytes content =>
    match Utf8.decode? content with
    | none => .error (.unreadable "stream did not contain valid UTF-8".toList)
    | some t =>
      if Text.isAllBlank t then .ok {}
      else match Yaml.Document.parse? t with
        | none => .error .illFormed
        | some none => .ok {}
        | some (some d) => (said? d).elim (.error .illFormed) .ok

/-- The file that is to be read: the one that is asked for, or else the usual one if it is there. -/
def fileToRead? (asked : Option FileContent) (usual : FileContent) : Option FileContent :=
  match asked, usual with
  | some file, _ => some file
  | none, .bytes content => some (.bytes content)
  | none, _ => none

/-- What the file that is to be read says; without one everything is left out. -/
def fileLayer (asked : Option FileContent) (usual : FileContent) : Except ConfigError Config :=
  (fileToRead? asked usual).elim (.ok {}) saidBy

/-- **Reading a file** drops the blank values of its connection, and nothing else. -/
theorem ofFile_eq (file : FileContent) : ofFile file = (saidBy file).map withoutBlanks := by
  cases file with
  | missing | directory => rfl
  | bytes content =>
    unfold ofFile saidBy
    dsimp only
    cases Utf8.decode? content with
    | none => rfl
    | some t =>
      dsimp only
      unfold ofYaml?
      by_cases hblank : Text.isAllBlank t = true
      · rw [if_pos hblank, if_pos hblank]
        rfl
      · rw [if_neg hblank, if_neg hblank]
        cases Yaml.Document.parse? t with
        | none => rfl
        | some document? =>
          cases document? with
          | none => rfl
          | some d =>
            simp only [Option.bind_eq_bind, Option.bind_some, ofDocument?]
            cases said? d <;> rfl

/-- **What is taken from files** is what the file says, but for its blank values. -/
theorem fromFiles_eq (asked : Option FileContent) (usual : FileContent) :
    fromFiles asked usual = (fileLayer asked usual).map withoutBlanks := by
  cases asked with
  | some file => exact ofFile_eq file
  | none =>
    cases usual with
    | missing | directory => rfl
    | bytes content => exact ofFile_eq (.bytes content)

end Files

/-! ## What the environment says -/

section Layers

variable {env : Environment} {file c : Config} {asked : Option FileContent} {usual : FileContent}

/-- The preset that the environment names, or else the one of the file. -/
inductive IsPreset (env : Environment) (file : Preset) : Preset → Prop
  | named (p : Preset) (t : Text) (he : env "MCP_PROMETHEUS_PRESET".toList = some t)
      (ht : t.HasInk) (hp : p.IsNamedBy t) : IsPreset env file p
  | ofFile (he : ∀ s, env "MCP_PROMETHEUS_PRESET".toList = some s → ¬ s.HasInk) :
      IsPreset env file file

/-- The environment names a preset that there is not. -/
def NamesNoPreset (env : Environment) : Prop :=
  ∃ t, env "MCP_PROMETHEUS_PRESET".toList = some t ∧ t.HasInk ∧ ∀ p : Preset, ¬ p.IsNamedBy t

/-- A configuration is what the file says, under what the environment says. -/
structure IsOverlay (env : Environment) (file c : Config) : Prop where
  url : Overlays (env "PROMETHEUS_URL".toList) file.connection.url c.connection.url
  username : Overlays (env "PROMETHEUS_USERNAME".toList) file.connection.username
    c.connection.username
  password : Overlays (env "PROMETHEUS_PASSWORD".toList) file.connection.password
    c.connection.password
  token : Overlays (env "PROMETHEUS_TOKEN".toList) file.connection.token c.connection.token
  orgId : Overlays (env "PROMETHEUS_ORGID".toList) file.connection.orgId c.connection.orgId
  preset : IsPreset env file.preset c.preset
  version : c.version = file.version
  overrides : c.overrides = file.overrides
  categories : c.categories = file.categories

/-- The connection of a file under the one of the environment. -/
def overlaidConnection (env : Environment) (file : Connection) : Connection where
  url := (nonBlank (env "PROMETHEUS_URL".toList)).or (nonBlank file.url)
  username := (nonBlank (env "PROMETHEUS_USERNAME".toList)).or (nonBlank file.username)
  password := (nonBlank (env "PROMETHEUS_PASSWORD".toList)).or (nonBlank file.password)
  token := (nonBlank (env "PROMETHEUS_TOKEN".toList)).or (nonBlank file.token)
  orgId := (nonBlank (env "PROMETHEUS_ORGID".toList)).or (nonBlank file.orgId)

/-- An overlay leaves nothing open. -/
theorem isOverlay_iff : IsOverlay env file c ↔
    c = { file with connection := overlaidConnection env file.connection, preset := c.preset } ∧
      IsPreset env file.preset c.preset := by
  constructor
  · intro h
    obtain ⟨version, preset, ⟨url, username, password, token, orgId⟩, overrides, categories⟩ := c
    have hurl := overlays_iff.mp h.url
    have husername := overlays_iff.mp h.username
    have hpassword := overlays_iff.mp h.password
    have htoken := overlays_iff.mp h.token
    have horgId := overlays_iff.mp h.orgId
    have hversion := h.version
    have hoverrides := h.overrides
    have hcategories := h.categories
    have hpreset := h.preset
    dsimp only at hurl husername hpassword htoken horgId hversion hoverrides hcategories
    subst hurl husername hpassword htoken horgId hversion hoverrides hcategories
    exact ⟨rfl, hpreset⟩
  · rintro ⟨hc, hp⟩
    rw [hc]
    exact ⟨overlays_iff.mpr rfl, overlays_iff.mpr rfl, overlays_iff.mpr rfl, overlays_iff.mpr rfl,
      overlays_iff.mpr rfl, hp, rfl, rfl, rfl⟩

theorem preset_cases (env : Environment) (q : Preset) :
    (∃ p, IsPreset env q p) ∨ NamesNoPreset env := by
  cases hn : nonBlank (env "MCP_PROMETHEUS_PRESET".toList) with
  | none => exact .inl ⟨q, .ofFile (nonBlank_eq_none.mp hn)⟩
  | some t =>
    obtain ⟨he, ht⟩ := nonBlank_eq_some.mp hn
    cases hp : Preset.parse? t with
    | some p => exact .inl ⟨p, .named p t he ht (parse?_eq_some.mp hp)⟩
    | none =>
      refine .inr ⟨t, he, ht, fun p hnamed => ?_⟩
      rw [parse?_eq_some.mpr hnamed] at hp
      cases hp

theorem overlay_of_preset {p : Preset} (h : IsPreset env file.preset p) :
    (withoutBlanks file).overlay env =
      .ok { file with connection := overlaidConnection env file.connection, preset := p } := by
  unfold overlay
  cases h with
  | named p t he ht hp =>
    simp only [nonBlank_eq_some.mpr ⟨he, ht⟩, parse?_eq_some.mpr hp]
    rfl
  | ofFile he =>
    simp only [nonBlank_eq_none.mpr he]
    rfl

theorem overlay_of_no_preset (file : Config) (h : NamesNoPreset env) :
    ∃ t, (withoutBlanks file).overlay env = .error (.unknownPreset t) := by
  obtain ⟨t, he, ht, hp⟩ := h
  have hnone : Preset.parse? t = none :=
    Option.eq_none_iff_forall_ne_some.mpr fun p hsome => hp p (parse?_eq_some.mp hsome)
  refine ⟨t, ?_⟩
  unfold overlay
  simp only [nonBlank_eq_some.mpr ⟨he, ht⟩, hnone]
  rfl

/-- **What the environment makes of a file** is the one overlay of the two, if there is one. -/
theorem overlay_eq_ok : (withoutBlanks file).overlay env = .ok c ↔ IsOverlay env file c := by
  rw [isOverlay_iff]
  constructor
  · intro h
    rcases preset_cases env file.preset with ⟨p, hp⟩ | hnone
    · rw [overlay_of_preset hp, Except.ok.injEq] at h
      subst h
      exact ⟨rfl, hp⟩
    · obtain ⟨t, ht⟩ := overlay_of_no_preset file hnone
      rw [ht] at h
      cases h
  · rintro ⟨hc, hp⟩
    rw [overlay_of_preset hp, ← hc]

theorem load_of_layer (h : fileLayer asked usual = .ok file) :
    load asked usual env = (withoutBlanks file).overlay env := by
  rw [load, fromFiles_eq, h]
  rfl

theorem load_of_bad_file {e : ConfigError} (h : fileLayer asked usual = .error e) :
    load asked usual env = .error e := by
  rw [load, fromFiles_eq, h]
  rfl

theorem IsOverlay.hasInk (h : IsOverlay env file c) : ∀ t ∈ c.connection.values, t.HasInk := by
  intro t ht
  simp only [Connection.values, List.mem_append, Option.mem_toList] at ht
  rcases ht with (((ht | ht) | ht) | ht) | ht
  · exact (ht ▸ h.url).hasInk
  · exact (ht ▸ h.username).hasInk
  · exact (ht ▸ h.password).hasInk
  · exact (ht ▸ h.token).hasInk
  · exact (ht ▸ h.orgId).hasInk

/-- **The configuration that counts is an overlay.**  What is loaded is what the file that is to be
read says, under what the environment says, and it has no blank value in its connection.  Nothing is
loaded exactly if that file is no good, whatever the environment says, or the environment names a
preset that there is not. -/
theorem load_is_overlay (asked : Option FileContent) (usual : FileContent) (env : Environment) :
    (∀ c, load asked usual env = .ok c ↔
      ∃ file, fileLayer asked usual = .ok file ∧ IsOverlay env file c) ∧
    (∀ c, load asked usual env = .ok c → ∀ t ∈ c.connection.values, t.HasInk) ∧
    ((∃ e, load asked usual env = .error e) ↔
      (∃ e, fileLayer asked usual = .error e) ∨ NamesNoPreset env) := by
  cases hfile : fileLayer asked usual with
  | error e =>
    rw [load_of_bad_file hfile]
    refine ⟨fun c => ⟨nofun, ?_⟩, fun c => nofun, fun _ => .inl ⟨e, rfl⟩, fun _ => ⟨e, rfl⟩⟩
    rintro ⟨file, ⟨⟩, -⟩
  | ok file =>
    rw [load_of_layer hfile]
    refine ⟨fun c => ?_, fun c hc => (overlay_eq_ok.mp hc).hasInk, ?_, ?_⟩
    · rw [overlay_eq_ok]
      constructor
      · exact fun h => ⟨file, rfl, h⟩
      · rintro ⟨_, ⟨⟩, h⟩
        exact h
    · rintro ⟨e, he⟩
      rcases preset_cases env file.preset with ⟨p, hp⟩ | hnone
      · rw [overlay_of_preset hp] at he
        cases he
      · exact .inr hnone
    · rintro (⟨e, ⟨⟩⟩ | hnone)
      obtain ⟨t, ht⟩ := overlay_of_no_preset file hnone
      exact ⟨_, ht⟩

end Layers

end Config

end MetricsBridge
