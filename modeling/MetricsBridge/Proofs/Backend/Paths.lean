import Mathlib.Tactic.ByContra
import MetricsBridge.Proofs.Backend.Sending
import MetricsBridge.Proofs.Url.Path

/-!
# Where calls go

The path of a request, read back, is the path of the base followed by `api`, `v1` and the segments
of the call.  All calls but one have segments of their own; `labelValues` brings along a label.  The
law holds of a label exactly if it is ordinary (`sent_path_iff`): dots alone are skipped, and
tabulators and line ends are dropped, so that another place is asked.
-/
namespace MetricsBridge

open Url

variable {α : Type}

/-- The bytes of the path of a call below a base. -/
def apiPath (base : Url) (segments : List Text) : List (List UInt8) :=
  withoutEmptyEnd base.decodedPath ++ ("api".toList :: "v1".toList :: segments).map Utf8.encode

/-- The calls that have segments of their own, and these segments. -/
inductive HasFixedPath : {α : Type} → Except CallError (Call α) → List String → Prop
  | query (expr : Text) (time : Option Text) (options : QueryOptions) :
      HasFixedPath (Call.query expr time options) ["query"]
  | queryRange (expr start stop step : Text) (options : QueryOptions) :
      HasFixedPath (Call.queryRange expr start stop step options) ["query_range"]
  | queryExemplars (expr start stop : Text) :
      HasFixedPath (Call.queryExemplars expr start stop) ["query_exemplars"]
  | metricNames (options : SelectorOptions) :
      HasFixedPath (Call.metricNames options) ["label", "__name__", "values"]
  | labelNames (options : SelectorOptions) : HasFixedPath (Call.labelNames options) ["labels"]
  | series (options : SelectorOptions) : HasFixedPath (Call.series options) ["series"]
  | metricMetadata (metric : Text) (limit : Option Text) :
      HasFixedPath (Call.metricMetadata metric limit) ["metadata"]
  | targetsMetadata (target metric limit : Option Text) :
      HasFixedPath (Call.targetsMetadata target metric limit) ["targets", "metadata"]
  | targets : HasFixedPath (.ok Call.targets) ["targets"]
  | alerts : HasFixedPath (.ok Call.alerts) ["alerts"]
  | alertmanagers : HasFixedPath (.ok Call.alertmanagers) ["alertmanagers"]
  | rules : HasFixedPath (.ok Call.rules) ["rules"]
  | buildInfo : HasFixedPath (.ok Call.buildInfo) ["status", "buildinfo"]
  | runtimeInfo : HasFixedPath (.ok Call.runtimeInfo) ["status", "runtimeinfo"]
  | flags : HasFixedPath (.ok Call.flags) ["status", "flags"]
  | statusConfig : HasFixedPath (.ok Call.statusConfig) ["status", "config"]
  | tsdbStats (limit : Option Text) : HasFixedPath (Call.tsdbStats limit) ["status", "tsdb"]

/-! ## The segments of a call -/

theorem segments_of_labelValues {label : Text} {options : SelectorOptions} {k : Call (List Text)}
    (h : Call.labelValues label options = .ok k) :
    k.segments = ["label".toList, label, "values".toList] := by
  simp only [Call.labelValues, bind_eq_ok, pure_eq_ok] at h
  obtain ⟨pairs, -, rfl⟩ := h
  rfl

theorem segments_of_lookUp {segments : List String} {named : List (String × Option Text)}
    {limit : Option Text} {k : Call Json} (h : Call.lookUp segments named limit = .ok k) :
    k.segments = segments.map String.toList := by
  simp only [Call.lookUp, bind_eq_ok, pure_eq_ok] at h
  obtain ⟨pairs, -, rfl⟩ := h
  rfl

theorem HasFixedPath.segments_eq {call : Except CallError (Call α)} {segments : List String}
    (h : HasFixedPath call segments) {k : Call α} (hk : call = .ok k) :
    k.segments = segments.map String.toList := by
  cases h with
  | query expr time options =>
    simp only [Call.query, bind_eq_ok, pure_eq_ok] at hk
    obtain ⟨_, -, _, -, _, -, rfl⟩ := hk
    rfl
  | queryRange expr start stop step options =>
    simp only [Call.queryRange, bind_eq_ok, pure_eq_ok] at hk
    obtain ⟨_, -, _, -, _, -, _, -, _, -, rfl⟩ := hk
    rfl
  | queryExemplars expr start stop =>
    simp only [Call.queryExemplars, bind_eq_ok, pure_eq_ok] at hk
    obtain ⟨_, -, _, -, rfl⟩ := hk
    rfl
  | metricNames options => exact segments_of_labelValues hk
  | labelNames options =>
    simp only [Call.labelNames, bind_eq_ok, pure_eq_ok] at hk
    obtain ⟨_, -, rfl⟩ := hk
    rfl
  | series options =>
    simp only [Call.series, bind_eq_ok, pure_eq_ok] at hk
    obtain ⟨_, -, rfl⟩ := hk
    rfl
  | metricMetadata metric limit => exact segments_of_lookUp hk
  | targetsMetadata target metric limit => exact segments_of_lookUp hk
  | tsdbStats limit => exact segments_of_lookUp hk
  | targets | alerts | alertmanagers | rules | buildInfo | runtimeInfo | flags | statusConfig =>
    rw [Except.ok.injEq] at hk
    subst hk
    rfl

theorem HasFixedPath.isOrdinary {call : Except CallError (Call α)} {segments : List String}
    (h : HasFixedPath call segments) : ∀ s ∈ segments.map String.toList, IsOrdinary s := by
  cases h <;> decide

/-! ## The path of a request -/

theorem path_of_request {c : Client} {k : Call α} {r : Request} (h : c.request k = .ok r) :
    r.url.path = extend c.base.path ("api".toList :: "v1".toList :: k.segments) := by
  rw [(Request.build_eq_ok h).1, takeAuthorization_path]
  rfl

theorem decodedPath_eq_map {c : Client} (hs : IsSlashFree c.base.path) {k : Call α} {r : Request}
    (h : c.request k = .ok r) : r.url.decodedPath = r.url.path.map Percent.decodeBytes := by
  refine decodedPath_of_path ?_
  rw [path_of_request h]
  exact isSlashFree_extend hs _

theorem apiPath_eq_map {base : Url} (hs : IsSlashFree base.path) (segments : List Text) :
    apiPath base segments = (withoutEmptyEnd base.path).map Percent.decodeBytes ++
      ("api".toList :: "v1".toList :: segments).map Utf8.encode := by
  rw [apiPath, decodedPath_of_path hs, map_withoutEmptyEnd]

theorem map_decodeBytes_encode (texts : List Text) :
    (texts.map (Percent.encode inSegment)).map Percent.decodeBytes = texts.map Utf8.encode := by
  rw [List.map_map]
  exact List.map_congr_left fun t _ => Percent.decodeBytes_encode (by decide) t

/-- **Ordinary segments are asked for as they are.** -/
theorem decodedPath_of_request {c : Client} (hs : IsSlashFree c.base.path)
    (ht : IsTight c.base.path) {k : Call α} (ho : ∀ s ∈ k.segments, IsOrdinary s) {r : Request}
    (h : c.request k = .ok r) : r.url.decodedPath = apiPath c.base k.segments := by
  have hord : ∀ s ∈ "api".toList :: "v1".toList :: k.segments, IsOrdinary s := by
    intro s hm
    rcases List.mem_cons.mp hm with rfl | hm
    · decide
    · rcases List.mem_cons.mp hm with rfl | hm
      · decide
      · exact ho s hm
  rw [decodedPath_eq_map hs h, path_of_request h, extend_of_isOrdinary ht (by decide) hord,
    List.map_append, map_decodeBytes_encode, apiPath_eq_map hs]

/-! ## Labels -/

/-- What stands in front of a label. -/
def labelPlace (base : Url) : List Text :=
  extend base.path ["api".toList, "v1".toList, "label".toList]

theorem labelPlace_eq {base : Url} (ht : IsTight base.path) :
    labelPlace base = withoutEmptyEnd base.path ++
      (["api".toList, "v1".toList, "label".toList].map (Percent.encode inSegment)) :=
  extend_of_isOrdinary ht (by decide) (by decide)

theorem length_labelPlace {base : Url} (ht : IsTight base.path) :
    (labelPlace base).length = (withoutEmptyEnd base.path).length + 3 := by
  rw [labelPlace_eq ht]
  simp

theorem ne_root_of_length (path : List Text) (h : 1 < path.length) : path ≠ [] ∧ path ≠ [[]] := by
  constructor <;> rintro rfl <;> simp at h

theorem map_labelPlace {base : Url} (hs : IsSlashFree base.path) (ht : IsTight base.path) :
    (labelPlace base).map Percent.decodeBytes = apiPath base ["label".toList] := by
  rw [labelPlace_eq ht, List.map_append, map_decodeBytes_encode, apiPath_eq_map hs]

theorem path_of_labelValues {c : Client} {label : Text} {k : Call α}
    (hk : k.segments = ["label".toList, label, "values".toList]) {r : Request}
    (h : c.request k = .ok r) :
    r.url.path = push (push (labelPlace c.base) label) "values".toList := by
  rw [path_of_request h, hk]
  exact extend_append c.base.path ["api".toList, "v1".toList, "label".toList]
    [label, "values".toList]

/-- **A label that is not ordinary is not asked for**: its segment is missing or another one. -/
theorem decodedPath_ne_of_not_isOrdinary {c : Client} (hs : IsSlashFree c.base.path)
    (ht : IsTight c.base.path) {label : Text} (hl : ¬ IsOrdinary label) {k : Call α}
    (hk : k.segments = ["label".toList, label, "values".toList]) {r : Request}
    (h : c.request k = .ok r) : r.url.decodedPath ≠ apiPath c.base k.segments := by
  intro he
  have hplace := labelPlace_eq ht
  have hlen := length_labelPlace ht
  obtain ⟨h0, h1⟩ := ne_root_of_length (labelPlace c.base) (by omega)
  rw [decodedPath_eq_map hs h, apiPath_eq_map hs, hk, path_of_labelValues hk h] at he
  rcases push_of_not_isOrdinary hl h0 h1 with hshort | ⟨s, hs', hne⟩
  · have hle := length_push_le (push (labelPlace c.base) label) "values".toList
    have hcount := congrArg List.length he
    simp only [List.length_map, List.length_append, List.length_cons, List.length_nil] at hcount
    omega
  · have hne1 := (ne_root_of_length (labelPlace c.base ++ [s]) (by simp; omega)).2
    rw [hs', push_of_isOrdinary (by decide), addSegment_of_ne hne1, hplace] at he
    simp only [List.map_append, map_decodeBytes_encode, List.append_assoc] at he
    have hrest := List.append_cancel_left he
    simp only [List.map_cons, List.map_nil, List.cons_append, List.nil_append, List.cons.injEq,
      true_and, and_true] at hrest
    exact hne hrest.1

/-- **A label leaves the place of labels exactly if it climbs out.** -/
theorem labelPlace_prefix_iff {c : Client} (hs : IsSlashFree c.base.path) (ht : IsTight c.base.path)
    {label : Text} {k : Call α} (hk : k.segments = ["label".toList, label, "values".toList])
    {r : Request} (h : c.request k = .ok r) :
    apiPath c.base ["label".toList] <+: r.url.decodedPath ↔ ¬ ClimbsOut label := by
  have hlen := length_labelPlace ht
  obtain ⟨-, h1⟩ := ne_root_of_length (labelPlace c.base) (by omega)
  rw [decodedPath_eq_map hs h, path_of_labelValues hk h, ← map_labelPlace hs ht]
  constructor
  · intro hpre hc
    have hpush : push (labelPlace c.base) label =
        withoutEmptyEnd c.base.path ++ ["api".toList, "v1".toList, []] := by
      rw [push_of_climbsOut hc h1, labelPlace_eq ht]
      simp [above, isDrive, Percent.encode, Percent.encodeChar, inSegment, keepsAllBut]
    have hne := (ne_root_of_length (push (labelPlace c.base) label) (by simp [hpush])).2
    rw [push_of_isOrdinary (t := "values".toList) (by decide), addSegment_of_ne hne, hpush,
      labelPlace_eq ht, List.map_append, List.append_assoc, List.map_append,
      List.prefix_append_right_inj] at hpre
    exact absurd hpre (by decide)
  · intro hc
    have hfirst := prefix_push hc h1
    have hle := hfirst.length_le
    have hne := (ne_root_of_length (push (labelPlace c.base) label) (by omega)).2
    exact (hfirst.trans (prefix_push (by decide) hne)).map _

/-! ## Main statement -/

/-- **Where requests go.**  A request for the values of a label asks for the path that the label
names exactly if the label is ordinary, so that different ordinary labels have different paths; it
stays below the place of labels exactly if the label does not climb out.  Every other request asks
for the segments of its call. -/
theorem sent_path_iff {agent : Option Text} {connection : Connection} {c : Client}
    (h : Client.connect agent connection = .ok c) (ht : IsTight c.base.path) :
    (∀ label options server, ∀ r ∈ c.requests (Call.labelValues label options) server,
      (r.url.decodedPath = apiPath c.base ["label".toList, label, "values".toList] ↔
        IsOrdinary label) ∧
      (apiPath c.base ["label".toList] <+: r.url.decodedPath ↔ ¬ ClimbsOut label)) ∧
    (∀ label label' options options' server server', IsOrdinary label → IsOrdinary label' →
      ∀ r ∈ c.requests (Call.labelValues label options) server,
      ∀ r' ∈ c.requests (Call.labelValues label' options') server',
      r.url.decodedPath = r'.url.decodedPath → label = label') ∧
    ∀ {α : Type} (call : Except CallError (Call α)) (segments : List String),
      HasFixedPath call segments → ∀ server, ∀ r ∈ c.requests call server,
      r.url.decodedPath = apiPath c.base (segments.map String.toList) := by
  obtain ⟨url, -, hurl, -, -⟩ := Client.connect_eq_ok.mp h
  have hs : IsSlashFree c.base.path := isSlashFree_of_parse hurl
  have hlabel : ∀ label options server, ∀ r ∈ c.requests (Call.labelValues label options) server,
      IsOrdinary label →
      r.url.decodedPath = apiPath c.base ["label".toList, label, "values".toList] := by
    intro label options server r hr ho
    obtain ⟨k, hk, hreq⟩ := Client.mem_requests.mp hr
    have hseg := segments_of_labelValues hk
    rw [← hseg]
    refine decodedPath_of_request hs ht ?_ hreq
    rw [hseg]
    simp [ho, show IsOrdinary ['l', 'a', 'b', 'e', 'l'] by decide,
      show IsOrdinary ['v', 'a', 'l', 'u', 'e', 's'] by decide]
  refine ⟨?_, ?_, ?_⟩
  · intro label options server r hr
    obtain ⟨k, hk, hreq⟩ := Client.mem_requests.mp hr
    have hseg := segments_of_labelValues hk
    refine ⟨⟨fun he => ?_, hlabel label options server r hr⟩, labelPlace_prefix_iff hs ht hseg hreq⟩
    by_contra hn
    exact decodedPath_ne_of_not_isOrdinary hs ht hn hseg hreq (by rw [hseg]; exact he)
  · intro label label' options options' server server' ho ho' r hr r' hr' he
    rw [hlabel label options server r hr ho, hlabel label' options' server' r' hr' ho'] at he
    have hrest := List.append_cancel_left he
    simp only [List.map_cons, List.map_nil, List.cons.injEq, true_and, and_true] at hrest
    exact Utf8.encode_injective hrest
  · intro α call segments hfix server r hr
    obtain ⟨k, hk, hreq⟩ := Client.mem_requests.mp hr
    rw [← hfix.segments_eq hk]
    refine decodedPath_of_request hs ht ?_ hreq
    rw [hfix.segments_eq hk]
    exact hfix.isOrdinary

/-- A label with a tabulator: the path that is asked for is that of the label without it. -/
theorem sent_path_of_tabulator :
    ∃ c r, Client.connect none { url := some "https://h/p/".toList } = .ok c ∧
      IsTight c.base.path ∧
      r ∈ c.requests (Call.labelValues "a\tb".toList {}) Backend.offline ∧
      r.url.render = "https://h/p/api/v1/label/ab/values".toList ∧
      r.url.decodedPath ≠ apiPath c.base ["label".toList, "a\tb".toList, "values".toList] := by
  let c : Client := ⟨⟨.https, [], none, ['h'], none, [['p'], []], none, none⟩,
    { url := some "https://h/p/".toList }, none⟩
  let r : Request := ⟨⟨.https, [], none, ['h'], none, ["p".toList, "api".toList, "v1".toList,
    "label".toList, "ab".toList, "values".toList], none, none⟩, [], Span.ofSeconds 30⟩
  have hc : Client.connect none { url := some "https://h/p/".toList } = .ok c := rfl
  have ht : IsTight c.base.path := by
    unfold IsTight
    decide
  have hr : r ∈ c.requests (Call.labelValues "a\tb".toList {}) Backend.offline := by
    decide +kernel
  refine ⟨c, r, hc, ht, hr, by decide, fun he => ?_⟩
  exact absurd (((sent_path_iff hc ht).1 _ _ _ r hr).1.mp he) (by decide)

end MetricsBridge
