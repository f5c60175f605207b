import MetricsBridge.Proofs.Server.Calling

/-!
# What is offered, and what is refused

The list of tools and the refusal of a call are computed apart: the list asks of every tool whether
it is offered, and a call that is refused is told why by a chain of questions of its own.
`listing_agrees_with_calling` says that the two never contradict each other.
-/
namespace MetricsBridge

namespace Config

variable (c : Config) (t : Tool)

/-- The preset turns on the category of a tool. -/
def InPreset : Prop :=
  t.category ∈ c.preset.categories

/-- The category of a tool is turned off. -/
def CategoryOff : Prop :=
  c.categories.get? t.category.name = some false

/-- A tool is turned off by an override. -/
def TurnedOff (o : ToolOverride) : Prop :=
  c.overrides.get? t.name = some o ∧ o.enabled = false

end Config

/-- The reason of a refusal that names a category. -/
def categoryReason (category : Category) : Text :=
  "category '".toList ++ category.name ++ "' is turned off".toList

/-- The reason of an override, or what is said of one without a reason. -/
def ToolOverride.statedReason (o : ToolOverride) : Text :=
  o.reason.getD "turned off by a tool override".toList

/-- The error says that there is no such tool, or that it is not offered. -/
def ToolError.IsRefusal : ToolError → Prop
  | .unknownTool _ | .notEnabled _ _ | .disabled _ _ => True
  | .badParam _ | .noClient _ | .failed _ _ => False

/-- A tool call ends with an error. -/
def FailsWith (c : Config) (name : Text) (args : Arguments) (server : Backend) (e : ToolError) :
    Prop :=
  ((execute c name args).run server).result = some (.error e)

/-! ### What is offered -/

section Listing

variable {c : Config} {t : Tool}

theorem name_injective {x y : Category} (h : x.name = y.name) : x = y := by
  cases x <;> cases y <;> first | rfl | exact absurd h (by decide)

theorem contains_category_iff :
    (c.preset.categories.map Category.name).contains t.category.name = true ↔ c.InPreset t := by
  rw [List.contains_iff_mem, List.mem_map, Config.InPreset]
  constructor
  · rintro ⟨category, hm, hname⟩
    exact name_injective hname ▸ hm
  · exact fun hm => ⟨t.category, hm, rfl⟩

theorem isCategoryEnabled_iff :
    c.isCategoryEnabled t.category.name = true ↔ ¬ c.CategoryOff t := by
  unfold Config.isCategoryEnabled Config.CategoryOff
  cases c.categories.get? t.category.name with
  | none => simp
  | some on => cases on <;> simp

theorem isToolEnabled_iff : c.isToolEnabled t.name = true ↔ ∀ o, ¬ c.TurnedOff t o := by
  unfold Config.isToolEnabled Config.TurnedOff
  cases c.overrides.get? t.name with
  | none => simp
  | some o => simp

theorem offersTool_iff : c.offersTool t = true ↔
    c.InPreset t ∧ ¬ c.CategoryOff t ∧ ∀ o, ¬ c.TurnedOff t o := by
  rw [Config.offersTool, Config.offers, Bool.and_eq_true, Bool.and_eq_true, contains_category_iff,
    isCategoryEnabled_iff, isToolEnabled_iff, and_assoc]

/-- **What is listed**: the tools that nothing takes away. -/
theorem mem_enabledTools : t ∈ c.enabledTools ↔
    c.InPreset t ∧ ¬ c.CategoryOff t ∧ ∀ o, ¬ c.TurnedOff t o := by
  rw [Config.enabledTools, List.mem_filter, offersTool_iff]
  exact and_iff_right t.mem_all

theorem nodup_all : Tool.all.Nodup := by
  decide

end Listing

/-! ### What is refused -/

section Refusing

variable {c : Config} {t : Tool}

theorem whyHidden_of_not_inPreset (h : ¬ c.InPreset t) :
    c.whyHidden t = .notEnabled t.name c.preset.name := by
  rw [Config.whyHidden, if_pos]
  simpa [Config.InPreset] using h

theorem whyHidden_of_categoryOff (h : c.InPreset t) (hoff : c.CategoryOff t) :
    c.whyHidden t = .disabled t.name (categoryReason t.category) := by
  have hon : ¬ (c.isCategoryEnabled t.category.name = true) := by
    rw [isCategoryEnabled_iff]
    exact not_not_intro hoff
  rw [Config.whyHidden, if_neg (by simpa [Config.InPreset] using h), if_pos (by simpa using hon)]
  rfl

theorem whyHidden_of_turnedOff (h : c.InPreset t) (hon : ¬ c.CategoryOff t) {o : ToolOverride}
    (hoff : c.TurnedOff t o) : c.whyHidden t = .disabled t.name o.statedReason := by
  have hcat := isCategoryEnabled_iff.mpr hon
  rw [Config.whyHidden, if_neg (by simpa [Config.InPreset] using h), if_neg (by simp [hcat]),
    hoff.1]
  rfl

/-- **Why a tool is hidden**: the first of three reasons that holds is the one that is given. -/
theorem hidden_cases (h : t ∉ c.enabledTools) :
    (¬ c.InPreset t ∧ c.whyHidden t = .notEnabled t.name c.preset.name) ∨
    (c.InPreset t ∧ c.CategoryOff t ∧
      c.whyHidden t = .disabled t.name (categoryReason t.category)) ∨
    (c.InPreset t ∧ ¬ c.CategoryOff t ∧
      ∃ o, c.TurnedOff t o ∧ c.whyHidden t = .disabled t.name o.statedReason) := by
  by_cases hp : c.InPreset t
  · by_cases hc : c.CategoryOff t
    · exact Or.inr (Or.inl ⟨hp, hc, whyHidden_of_categoryOff hp hc⟩)
    · have ho : ∃ o, c.TurnedOff t o := by
        by_contra hn
        exact h (mem_enabledTools.mpr ⟨hp, hc, not_exists.mp hn⟩)
      obtain ⟨o, ho⟩ := ho
      exact Or.inr (Or.inr ⟨hp, hc, o, ho, whyHidden_of_turnedOff hp hc ho⟩)
  · exact Or.inl ⟨hp, whyHidden_of_not_inPreset hp⟩

theorem isRefusal_whyHidden (h : t ∉ c.enabledTools) : (c.whyHidden t).IsRefusal := by
  rcases hidden_cases h with ⟨-, he⟩ | ⟨-, -, he⟩ | ⟨-, -, o, -, he⟩ <;> rw [he] <;> exact trivial

variable {args : Arguments} {name : Text}

theorem execute_of_unknown (h : ∀ t ∈ Tool.all, t.name ≠ name) :
    execute c name args = .done (.error (.unknownTool name)) := by
  rw [execute, find?_eq_none.mpr h]

theorem execute_of_hidden (h : t ∉ c.enabledTools) :
    execute c t.name args = .done (.error (c.whyHidden t)) := by
  have hoff : c.offersTool t = false := by
    rw [← Bool.not_eq_true, offersTool_iff, ← mem_enabledTools]
    exact h
  rw [execute, find?_name]
  simp [hoff]

/-- What goes wrong in a tool that is carried out is no refusal. -/
theorem not_isRefusal_of_perform {client : Client} {server : Backend} {e : ToolError}
    (h : ((t.perform client args).run server).result = some (.error e)) : ¬ e.IsRefusal := by
  unfold Tool.perform at h
  cases hj : t.job args with
  | error bad =>
    rw [hj] at h
    cases h
    exact id
  | ok j =>
    rw [hj] at h
    dsimp only at h
    rw [Job.perform, Plan.result_run_map, Option.map_eq_some_iff] at h
    obtain ⟨reply, -, hreply⟩ := h
    cases reply with
    | error failure =>
      cases hreply
      exact id
    | ok reply => cases hreply

/-- **A tool that is listed is not refused.** -/
theorem not_isRefusal_of_listed (h : t ∈ c.enabledTools) {server : Backend} {e : ToolError}
    (he : FailsWith c t.name args server e) : ¬ e.IsRefusal := by
  have hon : c.offersTool t = true := offersTool_iff.mpr (mem_enabledTools.mp h)
  unfold FailsWith execute at he
  rw [find?_name] at he
  simp only [hon, Bool.not_true, Bool.false_eq_true, if_false] at he
  cases hc : Client.forCall (some Program.agent) c.connection args.url args.orgId with
  | error bad =>
    rw [hc] at he
    cases he
    exact id
  | ok client =>
    rw [hc] at he
    dsimp only at he
    rw [Plan.result_run_map, Option.map_eq_some_iff] at he
    obtain ⟨result, hresult, hmap⟩ := he
    cases result with
    | error bad =>
      cases hmap
      exact not_isRefusal_of_perform hresult
    | ok text => cases hmap

/-- **A call is refused** if there is no tool of its name, or if there is one that is hidden. -/
theorem failsWith_iff_of_isRefusal {server : Backend} {e : ToolError} (he : e.IsRefusal) :
    FailsWith c name args server e ↔
      ((∀ t ∈ Tool.all, t.name ≠ name) ∧ e = .unknownTool name) ∨
      ∃ t, t.name = name ∧ t ∉ c.enabledTools ∧ e = c.whyHidden t := by
  constructor
  · intro h
    by_cases hn : ∀ t ∈ Tool.all, t.name ≠ name
    · unfold FailsWith at h
      rw [execute_of_unknown hn] at h
      cases h
      exact Or.inl ⟨hn, rfl⟩
    · simp only [not_forall, not_not] at hn
      obtain ⟨t, -, rfl⟩ := hn
      have ht : t ∉ c.enabledTools := fun hm => not_isRefusal_of_listed hm h he
      unfold FailsWith at h
      rw [execute_of_hidden ht] at h
      cases h
      exact Or.inr ⟨t, rfl, ht, rfl⟩
  · rintro (⟨hn, rfl⟩ | ⟨t, rfl, ht, rfl⟩)
    · rw [FailsWith, execute_of_unknown hn]
      rfl
    · rw [FailsWith, execute_of_hidden ht]
      rfl

variable {server : Backend}

theorem failsWith_unknownTool {n : Text} : FailsWith c name args server (.unknownTool n) ↔
    n = name ∧ ∀ t ∈ Tool.all, t.name ≠ name := by
  rw [failsWith_iff_of_isRefusal (e := .unknownTool n) trivial]
  constructor
  · rintro (⟨hn, he⟩ | ⟨t, -, ht, he⟩)
    · cases he
      exact ⟨rfl, hn⟩
    · rcases hidden_cases ht with ⟨-, hw⟩ | ⟨-, -, hw⟩ | ⟨-, -, o, -, hw⟩ <;>
        exact absurd (he.trans hw) (by simp)
  · rintro ⟨rfl, hn⟩
    exact Or.inl ⟨hn, rfl⟩

theorem failsWith_notEnabled {n preset : Text} :
    FailsWith c name args server (.notEnabled n preset) ↔
      n = name ∧ preset = c.preset.name ∧ ∃ t ∈ Tool.all, t.name = name ∧ ¬ c.InPreset t := by
  rw [failsWith_iff_of_isRefusal (e := .notEnabled n preset) trivial]
  constructor
  · rintro (⟨-, he⟩ | ⟨t, rfl, ht, he⟩)
    · cases he
    · rcases hidden_cases ht with ⟨hp, hw⟩ | ⟨-, -, hw⟩ | ⟨-, -, o, -, hw⟩
      · cases he.trans hw
        exact ⟨rfl, rfl, t, t.mem_all, rfl, hp⟩
      · cases he.trans hw
      · cases he.trans hw
  · rintro ⟨rfl, rfl, t, -, rfl, hp⟩
    refine Or.inr ⟨t, rfl, fun hm => hp (mem_enabledTools.mp hm).1, ?_⟩
    exact (whyHidden_of_not_inPreset hp).symm

theorem failsWith_disabled {n reason : Text} :
    FailsWith c name args server (.disabled n reason) ↔
      n = name ∧ ∃ t ∈ Tool.all, t.name = name ∧ c.InPreset t ∧
        ((c.CategoryOff t ∧ reason = categoryReason t.category) ∨
          (¬ c.CategoryOff t ∧ ∃ o, c.TurnedOff t o ∧ reason = o.statedReason)) := by
  rw [failsWith_iff_of_isRefusal (e := .disabled n reason) trivial]
  constructor
  · rintro (⟨-, he⟩ | ⟨t, rfl, ht, he⟩)
    · cases he
    · rcases hidden_cases ht with ⟨-, hw⟩ | ⟨hp, hc, hw⟩ | ⟨hp, hc, o, ho, hw⟩
      · cases he.trans hw
      · cases he.trans hw
        exact ⟨rfl, t, t.mem_all, rfl, hp, Or.inl ⟨hc, rfl⟩⟩
      · cases he.trans hw
        exact ⟨rfl, t, t.mem_all, rfl, hp, Or.inr ⟨hc, o, ho, rfl⟩⟩
  · rintro ⟨rfl, t, -, rfl, hp, ⟨hc, rfl⟩ | ⟨hc, o, ho, rfl⟩⟩
    · refine Or.inr ⟨t, rfl, fun hm => (mem_enabledTools.mp hm).2.1 hc, ?_⟩
      exact (whyHidden_of_categoryOff hp hc).symm
    · refine Or.inr ⟨t, rfl, fun hm => (mem_enabledTools.mp hm).2.2 o ho, ?_⟩
      exact (whyHidden_of_turnedOff hp hc ho).symm

/-- **A call is not refused exactly if its tool is listed.** -/
theorem not_refused_iff : (∀ e, FailsWith c name args server e → ¬ e.IsRefusal) ↔
    ∃ t ∈ c.enabledTools, t.name = name := by
  constructor
  · intro h
    by_contra hn
    by_cases hall : ∀ t ∈ Tool.all, t.name ≠ name
    · exact h _ (failsWith_unknownTool.mpr ⟨rfl, hall⟩) trivial
    · simp only [not_forall, not_not] at hall
      obtain ⟨t, -, rfl⟩ := hall
      have ht : t ∉ c.enabledTools := fun hm => hn ⟨t, hm, rfl⟩
      have hw := isRefusal_whyHidden ht
      exact h _ ((failsWith_iff_of_isRefusal hw).mpr (Or.inr ⟨t, rfl, ht, rfl⟩)) hw
  · rintro ⟨t, ht, rfl⟩ e he
    exact not_isRefusal_of_listed ht he

/-- **Nothing is sent for a call that is refused**, and its result is the wording of the error. -/
theorem run_of_refused {e : ToolError} (he : e.IsRefusal)
    (h : FailsWith c name args server e) :
    (dispatch c name args).run server = ⟨[], some ⟨Redaction.redact e.message, true⟩⟩ := by
  rcases (failsWith_iff_of_isRefusal he).mp h with ⟨hn, rfl⟩ | ⟨t, rfl, ht, rfl⟩
  · rw [dispatch, execute_of_unknown hn]
    rfl
  · rw [dispatch, execute_of_hidden ht]
    rfl

end Refusing

/-! ### Main statement -/

/-- **Listing and calling agree.**  The tools that are listed are those whose category the preset
turns on, whose category is not turned off and which no override turns off, in their order and each
once.  A call ends with an unknown tool exactly if no tool has the name; with a preset that leaves
the tool out exactly if it does; with a tool that is turned off exactly if the preset turns its
category on and either the category is turned off, which is then the reason, or an override alone
turns the tool off, whose reason is then given; and with none of these exactly if the tool is
listed.  Nothing is sent for a call that is refused. -/
theorem listing_agrees_with_calling (c : Config) :
    ((∀ t, t ∈ c.enabledTools ↔
        t ∈ Tool.all ∧ c.InPreset t ∧ ¬ c.CategoryOff t ∧ ∀ o, ¬ c.TurnedOff t o) ∧
      c.enabledTools.Sublist Tool.all ∧ c.enabledTools.Nodup) ∧
    ∀ (name : Text) (args : Arguments) (server : Backend),
      (∀ n, FailsWith c name args server (.unknownTool n) ↔
        n = name ∧ ∀ t ∈ Tool.all, t.name ≠ name) ∧
      (∀ n preset, FailsWith c name args server (.notEnabled n preset) ↔
        n = name ∧ preset = c.preset.name ∧ ∃ t ∈ Tool.all, t.name = name ∧ ¬ c.InPreset t) ∧
      (∀ n reason, FailsWith c name args server (.disabled n reason) ↔
        n = name ∧ ∃ t ∈ Tool.all, t.name = name ∧ c.InPreset t ∧
          ((c.CategoryOff t ∧ reason = categoryReason t.category) ∨
            (¬ c.CategoryOff t ∧ ∃ o, c.TurnedOff t o ∧ reason = o.statedReason))) ∧
      ((∀ e, FailsWith c name args server e → ¬ e.IsRefusal) ↔
        ∃ t ∈ c.enabledTools, t.name = name) ∧
      ∀ e, e.IsRefusal → FailsWith c name args server e →
        (dispatch c name args).run server = ⟨[], some ⟨Redaction.redact e.message, true⟩⟩ := by
  refine ⟨⟨fun t => ?_, List.filter_sublist, nodup_all.filter _⟩, fun name args server => ?_⟩
  · rw [mem_enabledTools]
    exact (and_iff_right t.mem_all).symm
  · exact ⟨fun n => failsWith_unknownTool, fun n preset => failsWith_notEnabled,
      fun n reason => failsWith_disabled, not_refused_iff, fun e => run_of_refused⟩

end MetricsBridge
