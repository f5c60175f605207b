import Mathlib.Data.List.Nodup
import MetricsBridge.Proofs.Number.Rendering
import MetricsBridge.Proofs.Server.Parameters
import MetricsBridge.Proofs.Text.Table

/-!
# How optional texts are spelled

Where a tool declares a text that may be left out, a number or a truth value counts as the text that
writes it, and nothing, an empty text, an array or an object counts as left out
(`looseText?_of_respelled`).  Whether everything is asked for is read in another way, which comes to
the same (`isUnlimited_of_respelled`).  So the spelling of such arguments is of no account
(`spelling_does_not_matter`).
-/
namespace MetricsBridge

open Table (get?_cons_self get?_cons_of_ne get?_set_self get?_set_of_ne)

/-- The parameters of a tool that are texts and may be left out. -/
def Tool.looseNames (t : Tool) : List Text :=
  (t.params.filter Param.isLoose).map Param.name

/-- The value is a number or a truth value. -/
def Json.isPlain : Json → Bool
  | .number _ | .bool _ => true
  | _ => false

/-- The value is nothing, an empty text, an array or an object. -/
def Json.isHollow : Json → Bool
  | .null | .text [] | .array _ | .object _ => true
  | _ => false

/-- The table without the value of a name. -/
def Arguments.without (args : Arguments) (name : Text) : Arguments :=
  args.filter fun f => f.1 != name

/-- Another spelling of an argument: the text that writes it, or none. -/
inductive Respelled : Option Json → Option Json → Prop
  | written (v : Json) (h : v.isPlain = true) : Respelled (some v) (some (.text v.compact))
  | dropped (v : Json) (h : v.isHollow = true) : Respelled (some v) none

/-- Two tables of arguments that differ in how texts are spelled that a tool lets be left out. -/
def SpelledAlike (t : Tool) (a b : Arguments) : Prop :=
  ∀ n, a.get? n = b.get? n ∨ (n ∈ t.looseNames ∧ Respelled (a.get? n) (b.get? n))

/-! ## Tables -/

section Tables

variable {name other : Text}

theorem get?_without_self (args : Arguments) (name : Text) :
    (args.without name).get? name = none := by
  induction args with
  | nil => rfl
  | cons entry args ih =>
    obtain ⟨first, v⟩ := entry
    by_cases hfirst : first = name
    · rw [Arguments.without, List.filter_cons_of_neg (by simp [hfirst])]
      exact ih
    · rw [Arguments.without, List.filter_cons_of_pos (by simp [hfirst]),
        get?_cons_of_ne (Ne.symm hfirst)]
      exact ih

theorem get?_without_of_ne {args : Arguments} (h : other ≠ name) :
    (args.without name).get? other = args.get? other := by
  induction args with
  | nil => rfl
  | cons entry args ih =>
    obtain ⟨first, v⟩ := entry
    by_cases hfirst : first = name
    · rw [Arguments.without, List.filter_cons_of_neg (by simp [hfirst]),
        get?_cons_of_ne (hfirst ▸ h)]
      exact ih
    · rw [Arguments.without, List.filter_cons_of_pos (by simp [hfirst])]
      by_cases hother : other = first
      · rw [hother, get?_cons_self, get?_cons_self]
      · rw [get?_cons_of_ne hother, get?_cons_of_ne hother]
        exact ih

end Tables

/-! ## Reading a value that is spelled otherwise -/

section Values

variable {v w : Option Json}

theorem looseText?_of_ne_nil {t : Text} (h : t ≠ []) : Arguments.looseText? (.text t) = some t := by
  cases t with
  | nil => exact absurd rfl h
  | cons c t => rfl

/-- **A value that is spelled otherwise** counts as the same text. -/
theorem looseText?_of_respelled (h : Respelled v w) :
    v.bind Arguments.looseText? = w.bind Arguments.looseText? := by
  cases h with
  | written v hv =>
    cases v with
    | number n =>
      rw [Json.compact, Option.bind_some, Option.bind_some, looseText?_of_ne_nil (render_ne_nil n)]
      rfl
    | bool b => cases b <;> rfl
    | null | text t | array items | object fields => cases hv
  | dropped v hv =>
    cases v with
    | null | array items | object fields => rfl
    | text t =>
      cases t with
      | nil => rfl
      | cons c t => cases hv
    | number n | bool b => cases hv

/-- No mark of a number is a letter that starts a word. -/
theorem lowerAscii_of_isMark {c : Char} (h : Numeral.isMark c = true) :
    Text.lowerAscii c ≠ 't' := by
  simp only [Numeral.isMark, isDigit, Bool.or_eq_true, Bool.and_eq_true, beq_iff_eq,
    decide_eq_true_iff] at h
  rcases h with ((((⟨-, hc⟩ | rfl) | rfl) | rfl) | rfl)
  · -- A digit stands below the capital letters, and so below `t`.
    have hlower : Text.lowerAscii c = c :=
      if_neg fun hcapital => absurd (Char.le_trans hcapital.1 hc) (by decide)
    rw [hlower]
    rintro rfl
    exact absurd hc (by decide)
  all_goals decide

/-- No number is written as a word. -/
theorem not_sameIgnoringCase_render (n : Numeral) :
    Text.sameIgnoringCase n.render "true".toList = false := by
  obtain ⟨c, t, ht⟩ := List.exists_cons_of_ne_nil (render_ne_nil n)
  have hc : Numeral.isMark c = true := isMark_of_mem_render n c (by simp [ht])
  rw [Text.sameIgnoringCase, ht, beq_eq_false_iff_ne]
  intro heq
  exact lowerAscii_of_isMark hc (List.cons.inj heq).1

/-- **Whether everything is asked for** does not depend on the spelling either. -/
theorem isUnlimited_of_respelled {a b : Arguments}
    (h : Respelled (a.get? "unlimited".toList) (b.get? "unlimited".toList)) :
    a.isUnlimited = b.isUnlimited := by
  unfold Arguments.isUnlimited
  generalize a.get? "unlimited".toList = v at h
  generalize b.get? "unlimited".toList = w at h
  cases h with
  | written v hv =>
    cases v with
    | number n => exact (not_sameIgnoringCase_render n).symm
    | bool b => cases b <;> decide
    | null | text t | array items | object fields => cases hv
  | dropped v hv =>
    cases v with
    | null | array items | object fields => rfl
    | text t =>
      cases t with
      | nil => decide
      | cons c t => cases hv
    | number n | bool b => cases hv

end Values

/-! ## Tool calls -/

section Calls

variable {tool : Tool} {a b args : Arguments} {name : Text} {v : Json}

/-- No tool has a parameter of one name twice. -/
theorem nodup_paramNames (tool : Tool) : tool.paramNames.Nodup := by
  cases tool <;> decide

/-- The name of a parameter tells whether it may be left out. -/
theorem isLoose_of_mem_looseNames {p : Param} (hp : p ∈ tool.params)
    (h : p.name ∈ tool.looseNames) : p.isLoose = true := by
  obtain ⟨q, hq, hname⟩ := List.mem_map.mp h
  obtain ⟨hq, hloose⟩ := List.mem_filter.mp hq
  rw [List.inj_on_of_nodup_map (nodup_paramNames tool) hp hq hname.symm]
  exact hloose

theorem SpelledAlike.readAlike (h : SpelledAlike tool a b) : ReadAlike tool.params a b where
  loose p hp _ := by
    rcases h p.name with heq | ⟨-, hrespelled⟩
    · rw [heq]
    · exact looseText?_of_respelled hrespelled
  strict p hp hstrict := by
    rcases h p.name with heq | ⟨hname, -⟩
    · exact heq
    · rw [isLoose_of_mem_looseNames hp hname] at hstrict
      cases hstrict

theorem SpelledAlike.isUnlimited (h : SpelledAlike tool a b) : a.isUnlimited = b.isUnlimited := by
  rcases h "unlimited".toList with heq | ⟨-, hrespelled⟩
  · exact isUnlimited_congr heq
  · exact isUnlimited_of_respelled hrespelled

/-- **Tool calls whose optional texts are spelled otherwise** are the same. -/
theorem dispatch_of_spelledAlike (h : SpelledAlike tool a b) (c : Config) :
    dispatch c tool.name a = dispatch c tool.name b := by
  refine dispatch_of_readAlike h.readAlike h.isUnlimited (fun htool => ?_) c
  subst htool
  rcases h "limit".toList with heq | ⟨hname, -⟩
  · exact limitPair_congr heq
  · exact absurd hname (by decide)

theorem spelledAlike_set (hname : name ∈ tool.looseNames) (hv : args.get? name = some v)
    (hplain : v.isPlain = true) :
    SpelledAlike tool args (Table.set name (.text v.compact) args) := by
  intro n
  by_cases hn : n = name
  · subst hn
    rw [get?_set_self, hv]
    exact .inr ⟨hname, .written v hplain⟩
  · exact .inl (get?_set_of_ne hn).symm

theorem spelledAlike_without (hname : name ∈ tool.looseNames) (hv : args.get? name = some v)
    (hhollow : v.isHollow = true) : SpelledAlike tool args (args.without name) := by
  intro n
  by_cases hn : n = name
  · subst hn
    rw [get?_without_self, hv]
    exact .inr ⟨hname, .dropped v hhollow⟩
  · exact .inl (get?_without_of_ne hn).symm

/-- **The spelling of optional texts does not matter.**  Where a tool declares a text that may be
left out, a number or a truth value may be replaced by the text that writes it, and nothing, an
empty text, an array or an object may be removed: the call sends the same and has the same result,
whatever the server answers. -/
theorem spelling_does_not_matter (hname : name ∈ tool.looseNames) (hv : args.get? name = some v)
    (c : Config) :
    (v.isPlain = true → dispatch c tool.name (Table.set name (.text v.compact) args) =
      dispatch c tool.name args) ∧
    (v.isHollow = true → dispatch c tool.name (args.without name) = dispatch c tool.name args) :=
  ⟨fun hplain => (dispatch_of_spelledAlike (spelledAlike_set hname hv hplain) c).symm,
    fun hhollow => (dispatch_of_spelledAlike (spelledAlike_without hname hv hhollow) c).symm⟩

end Calls

/-- Arguments with a number for a limit, and with nothing for a time. -/
def looseArguments : Arguments :=
  [("limit".toList, .number (.natural 5)), ("query".toList, .text "up".toList),
    ("time".toList, .null)]

/-- A query whose limit is a number and whose time is nothing sends the limit, and is the query
whose limit is a text and the one without a time. -/
theorem spelling_does_not_matter_of_limit :
    (∃ r ∈ sent addressedConfig Tool.executeQuery.name looseArguments Backend.offline,
      r.url.query = some "query=up&limit=5".toList) ∧
    dispatch addressedConfig Tool.executeQuery.name
        (Table.set "limit".toList (.text ['5']) looseArguments) =
      dispatch addressedConfig Tool.executeQuery.name looseArguments ∧
    dispatch addressedConfig Tool.executeQuery.name (looseArguments.without "time".toList) =
      dispatch addressedConfig Tool.executeQuery.name looseArguments := by
  have hlimit : "limit".toList ∈ Tool.executeQuery.looseNames := by decide
  have htime : "time".toList ∈ Tool.executeQuery.looseNames := by decide
  have hnumber : looseArguments.get? "limit".toList = some (.number (.natural 5)) := rfl
  have hnull : looseArguments.get? "time".toList = some .null := rfl
  let r : Request := ⟨⟨.https, [], none, ['h'], none, ["api".toList, "v1".toList, "query".toList],
    some "query=up&limit=5".toList, none⟩, [⟨Header.userAgent, Program.agent⟩], Span.ofSeconds 30⟩
  have hr : r ∈ sent addressedConfig Tool.executeQuery.name looseArguments Backend.offline := by
    decide +kernel
  exact ⟨⟨r, hr, rfl⟩, (spelling_does_not_matter hlimit hnumber addressedConfig).1 rfl,
    (spelling_does_not_matter htime hnull addressedConfig).2 rfl⟩

end MetricsBridge
