import Mathlib.Data.List.Nodup
import MetricsBridge.Proofs.Session.Lifecycle

/-!
# Calls side by side

Calls of a session wait for the metrics server side by side; answers to their requests and notices
that cancel them come in any order.  Under every id, what has been asked for is what has been
replied and what still waits (`length_repliesTo_follow`), so that no id gets a second reply.  The
first event behind a call that answers its request or cancels it decides what the call gets
(`repliesTo_follow_of_waiting`).  From this `cancellation_touches_only_its_call` follows: a call
that is cancelled gets the result that says so, and every other call gets what it would get alone.
-/
namespace MetricsBridge

namespace SessionEvent

/-- The id of the request that comes. -/
def requestId? : SessionEvent → Option RequestId
  | .receive (.request id _) => some id
  | _ => none

/-- The answer that comes to the request of the call under an id. -/
def answer? (id : RequestId) : SessionEvent → Option Answer
  | .hear call a => if call = id then some a else none
  | .receive _ => none

/-- What an event makes of the call under an id that waits for an answer: the answer gives it its
result, and so does a notice that cancels it. -/
def verdict? (id : RequestId) (tool : Text) (f : Answer → ToolResult) :
    SessionEvent → Option ToolResult
  | .hear call a => if call = id then some (f a) else none
  | .receive (.notice (.cancel call)) => if call = id then some (.cancelled tool) else none
  | .receive _ => none

/-- The event is the request under an id, or the answer to the request of its call. -/
def isOwn (id : RequestId) : SessionEvent → Bool
  | .receive (.request call _) => call == id
  | .hear call _ => call == id
  | .receive _ => false

/-- An event is the request under an id, cancels its call, answers the request of its call, or has
nothing to do with the id. -/
theorem cases_of_id (id : RequestId) (e : SessionEvent) :
    (e.Spares id ∧ e.requestId? ≠ some id) ∨ (∃ d, e = .receive (.request id d)) ∨
      e = .receive (.notice (.cancel id)) ∨ ∃ a, e = .hear id a := by
  cases e with
  | receive m =>
    cases m with
    | request call d =>
      by_cases h : call = id
      · subst h
        exact .inr (.inl ⟨d, rfl⟩)
      · refine .inl ⟨?_, fun he => h (Option.some.inj he)⟩
        cases d with
        | callTool name args => exact h
        | _ => trivial
    | notice n =>
      cases n with
      | cancel call =>
        by_cases h : call = id
        · subst h
          exact .inr (.inr (.inl rfl))
        · exact .inl ⟨h, nofun⟩
      | ready | other => exact .inl ⟨trivial, nofun⟩
    | outcome => exact .inl ⟨trivial, nofun⟩
  | hear call a =>
    by_cases h : call = id
    · subst h
      exact .inr (.inr (.inr ⟨a, rfl⟩))
    · exact .inl ⟨h, nofun⟩

end SessionEvent

/-- The plan starts with a request. -/
def Plan.asks {α : Type} : Plan α → Bool
  | .done _ => false
  | .send _ _ => true

/-- The call under an id is cancelled before an answer to its request comes. -/
def IsCancelledIn (id : RequestId) (es : List SessionEvent) : Prop :=
  ∃ before after, es = before ++ .receive (.notice (.cancel id)) :: after ∧
    ∀ a, .hear id a ∉ before

namespace Session

open SessionEvent

/-- The responses under an id among what is sent. -/
def repliesTo (id : RequestId) (sent : List Sending) : List Response :=
  (responses sent).filter fun r => r.id == id

/-- No two of the calls that wait and of the requests that come have the same id. -/
def HasDistinctIds (s : Session) (es : List SessionEvent) : Prop :=
  (s.pending.map PendingCall.id ++ es.filterMap requestId?).Nodup

/-! ## Replies -/

section Replies

variable {c : Config} {s : Session} {id other : RequestId}

@[simp] theorem repliesTo_append (sent more : List Sending) :
    repliesTo id (sent ++ more) = repliesTo id sent ++ repliesTo id more := by
  simp only [repliesTo, responses_append, List.filter_append]

theorem repliesTo_response_self (body : Except Refusal Result) :
    repliesTo id [.response ⟨id, body⟩] = [⟨id, body⟩] :=
  List.filter_cons_of_pos (beq_self_eq_true id)

theorem repliesTo_response_of_ne (h : other ≠ id) (body : Except Refusal Result) :
    repliesTo id [.response ⟨other, body⟩] = [] :=
  List.filter_cons_of_neg fun hid => h (beq_iff_eq.mp hid)

theorem repliesTo_proceed_of_ne (h : other ≠ id) (tool : Text) (plan : Plan ToolResult) :
    repliesTo id (s.proceed other tool plan).2 = [] := by
  cases plan with
  | done r => exact repliesTo_response_of_ne h _
  | send r next => rfl

theorem repliesTo_attend_of_ne (h : other ≠ id) (d : Demand) :
    repliesTo id (s.attend c other d).2 = [] := by
  cases d with
  | callTool name args => exact repliesTo_proceed_of_ne h name _
  | _ => exact repliesTo_response_of_ne h _

theorem repliesTo_cancel_of_ne (h : other ≠ id) : repliesTo id (s.cancel other).2 = [] := by
  unfold cancel
  split
  · rfl
  · exact repliesTo_response_of_ne h _

theorem repliesTo_hear_of_ne (h : other ≠ id) (a : Answer) :
    repliesTo id (s.hear other a).2 = [] := by
  unfold hear
  split
  · rfl
  · exact repliesTo_proceed_of_ne h _ _

/-- An event that spares a call and is no request under its id brings no reply to it. -/
theorem repliesTo_step (hs : s.phase = .ready) {e : SessionEvent} (he : e.Spares id)
    (hid : e.requestId? ≠ some id) : repliesTo id (s.step c e).2 = [] := by
  cases e with
  | receive m =>
    rw [step]
    rcases receive_cases c hs m with ⟨other, d, rfl, hr⟩ | ⟨other, rfl, hr⟩ | ⟨-, -, hr⟩
    · rw [hr]
      exact repliesTo_attend_of_ne (fun h => hid (congrArg some h)) d
    · rw [hr]
      exact repliesTo_cancel_of_ne he
    · rw [hr]
      rfl
  | hear call a => exact repliesTo_hear_of_ne he a

end Replies

/-! ## Every request is replied to or waits -/

section Counting

variable {c : Config} {s : Session} {id : RequestId}

theorem waiting_eq_nil_iff : s.waiting id = [] ↔ s.find? id = none := by
  rw [find?_eq_head?, List.head?_eq_none_iff]

theorem length_waiting_of_find? {p : PendingCall} (h : s.find? id = some p) :
    (s.waiting id).length = ((s.release id).waiting id).length + 1 := by
  rw [find?_eq_head?] at h
  obtain ⟨rest, hrest⟩ := List.head?_eq_some_iff.mp h
  rw [waiting_release_self, hrest, List.tail_cons, List.length_cons]

theorem length_waiting (s : Session) (id : RequestId) :
    (s.waiting id).length = (s.pending.map PendingCall.id).count id := by
  rw [waiting, ← List.countP_eq_length_filter, List.count_eq_countP, List.countP_map]
  rfl

/-- A call that goes on is replied to or waits. -/
theorem length_repliesTo_proceed (s : Session) (id : RequestId) (tool : Text)
    (plan : Plan ToolResult) : (repliesTo id (s.proceed id tool plan).2).length
      + ((s.proceed id tool plan).1.waiting id).length = (s.waiting id).length + 1 := by
  cases plan with
  | done r =>
    rw [proceed, repliesTo_response_self, List.length_singleton, Nat.add_comm]
  | send r next =>
    have hw : (s.proceed id tool (.send r next)).1.waiting id =
        ⟨id, tool, r, next⟩ :: s.waiting id := waiting_cons_self _
    have hr : repliesTo id (s.proceed id tool (.send r next)).2 = [] := rfl
    rw [hw, hr, List.length_nil, List.length_cons, Nat.zero_add]

theorem length_repliesTo_attend (s : Session) (id : RequestId) (d : Demand) :
    (repliesTo id (s.attend c id d).2).length + ((s.attend c id d).1.waiting id).length =
      (s.waiting id).length + 1 := by
  cases d with
  | callTool name args => exact length_repliesTo_proceed s id name _
  | _ =>
    rw [attend, respond, repliesTo_response_self, List.length_singleton, Nat.add_comm]

theorem length_repliesTo_cancel (s : Session) (id : RequestId) :
    (repliesTo id (s.cancel id).2).length + ((s.cancel id).1.waiting id).length =
      (s.waiting id).length := by
  unfold cancel
  split
  · exact Nat.zero_add _
  · next p hp =>
    rw [repliesTo_response_self, List.length_singleton, length_waiting_of_find? hp, Nat.add_comm]

theorem length_repliesTo_hear (s : Session) (id : RequestId) (a : Answer) :
    (repliesTo id (s.hear id a).2).length + ((s.hear id a).1.waiting id).length =
      (s.waiting id).length := by
  unfold hear
  split
  · exact Nat.zero_add _
  · next p hp => rw [length_repliesTo_proceed, length_waiting_of_find? hp]

/-- **An event keeps the balance** of an id: what comes is replied to or waits. -/
theorem length_repliesTo_step (hs : s.phase = .ready) (e : SessionEvent) (id : RequestId) :
    (repliesTo id (s.step c e).2).length + ((s.step c e).1.waiting id).length =
      (s.waiting id).length + e.requestId?.toList.count id := by
  rcases e.cases_of_id id with ⟨he, hid⟩ | ⟨d, rfl⟩ | rfl | ⟨a, rfl⟩
  · have hcount : e.requestId?.toList.count id = 0 := by
      rw [List.count_eq_zero, Option.mem_toList]
      exact hid
    rw [repliesTo_step hs he hid, waiting_step hs he, hcount, List.length_nil, Nat.zero_add,
      Nat.add_zero]
  · rw [step, receive_request hs, length_repliesTo_attend]
    simp [requestId?]
  · rw [step, receive_cancel hs, length_repliesTo_cancel]
    rfl
  · rw [step, length_repliesTo_hear]
    rfl

/-- **Every request is replied to or waits**, and nothing is replied to twice. -/
theorem length_repliesTo_follow (hs : s.phase = .ready) (es : List SessionEvent)
    (id : RequestId) :
    (repliesTo id (s.follow c es).2).length + ((s.follow c es).1.waiting id).length =
      (s.waiting id).length + (es.filterMap requestId?).count id := by
  induction es generalizing s with
  | nil => exact Nat.add_comm _ _
  | cons e es ih =>
    have hstep := length_repliesTo_step (c := c) hs e id
    have hrest := ih (phase_step (c := c) hs e)
    have hcount : ((e :: es).filterMap requestId?).count id =
        e.requestId?.toList.count id + (es.filterMap requestId?).count id := by
      cases h : e.requestId? <;> simp [h, List.count_cons, Nat.add_comm]
    rw [follow_cons, hcount]
    dsimp only
    rw [repliesTo_append, List.length_append]
    omega

end Counting

/-! ## Ids that are used once -/

section Distinct

variable {c : Config} {s : Session} {es : List SessionEvent} {id : RequestId}

theorem HasDistinctIds.of_append {before after : List SessionEvent}
    (h : s.HasDistinctIds (before ++ after)) : s.HasDistinctIds before := by
  rw [HasDistinctIds, List.filterMap_append, ← List.append_assoc] at h
  exact (List.nodup_append.mp h).1

/-- **No id gets a second reply**, nor a reply while a call under it still waits. -/
theorem HasDistinctIds.length_le (h : s.HasDistinctIds es) (hs : s.phase = .ready)
    (id : RequestId) :
    (repliesTo id (s.follow c es).2).length + ((s.follow c es).1.waiting id).length ≤ 1 := by
  rw [length_repliesTo_follow hs, length_waiting s, ← List.count_append]
  exact List.nodup_iff_count_le_one.mp h id

/-- An id that no call waits under and no request comes with gets no reply, and none waits under it.
-/
theorem follow_of_idle (hs : s.phase = .ready) (hw : s.waiting id = [])
    (hes : id ∉ es.filterMap requestId?) :
    repliesTo id (s.follow c es).2 = [] ∧ (s.follow c es).1.waiting id = [] := by
  have hbalance := length_repliesTo_follow (c := c) hs es id
  rw [hw, List.length_nil, List.count_eq_zero.mpr hes, Nat.add_eq_zero_iff] at hbalance
  exact ⟨List.eq_nil_of_length_eq_zero hbalance.1, List.eq_nil_of_length_eq_zero hbalance.2⟩

theorem cancel_of_idle (hw : s.waiting id = []) : s.cancel id = (s, []) := by
  rw [cancel, waiting_eq_nil_iff.mp hw]

/-- A notice that cancels a call which does not wait changes nothing. -/
theorem follow_cancel_of_idle (hs : s.phase = .ready) {before : List SessionEvent}
    (hw : (s.follow c before).1.waiting id = []) (after : List SessionEvent) :
    s.follow c (before ++ .receive (.notice (.cancel id)) :: after) =
      s.follow c (before ++ after) := by
  have hstep : (s.follow c before).1.step c (.receive (.notice (.cancel id))) =
      ((s.follow c before).1, []) := by
    rw [step, receive_cancel (phase_follow hs before), cancel_of_idle hw]
  rw [follow_append, follow_append, follow_cons, hstep, List.nil_append]

/-- A reply is under the id of a call that has waited or of a request that has come. -/
theorem id_mem_of_reply (hs : s.phase = .ready) {r : Response}
    (hr : r ∈ responses (s.follow c es).2) :
    r.id ∈ s.pending.map PendingCall.id ++ es.filterMap requestId? := by
  have hbalance := length_repliesTo_follow (c := c) hs es r.id
  have hreply : r ∈ repliesTo r.id (s.follow c es).2 :=
    List.mem_filter.mpr ⟨hr, beq_self_eq_true r.id⟩
  rw [length_waiting s, ← List.count_append] at hbalance
  have hpos := List.length_pos_of_mem hreply
  exact List.count_pos_iff.mp (by omega)

end Distinct

/-! ## What decides a call -/

section Verdict

variable {c : Config} {s : Session} {es : List SessionEvent} {id : RequestId} {tool : Text}
  {r : Request} {f : Answer → ToolResult}

theorem verdict?_of_spares {e : SessionEvent} (h : e.Spares id) : e.verdict? id tool f = none := by
  cases e with
  | receive m =>
    cases m with
    | notice n =>
      cases n with
      | cancel call => rw [verdict?, if_neg h]
      | ready | other => rfl
    | request call d => rfl
    | outcome => rfl
  | hear call a => rw [verdict?, if_neg h]

/-- The event that decides a call which waits for one answer ends it with a reply. -/
theorem step_of_verdict? (hs : s.phase = .ready)
    (h : s.find? id = some ⟨id, tool, r, fun a => .done (f a)⟩) {e : SessionEvent}
    {result : ToolResult} (he : e.verdict? id tool f = some result) :
    s.step c e = (s.release id, [.response ⟨id, .ok (.called result)⟩]) := by
  rcases e.cases_of_id id with ⟨hspares, -⟩ | ⟨d, rfl⟩ | rfl | ⟨a, rfl⟩
  · rw [verdict?_of_spares hspares] at he
    cases he
  · cases he
  · rw [verdict?, if_pos rfl, Option.some.injEq] at he
    rw [step, receive_cancel hs, cancel, h, ← he]
  · rw [verdict?, if_pos rfl, Option.some.injEq] at he
    rw [step, hear_of_find? h, he]

theorem spares_of_verdict?_eq_none {e : SessionEvent} (he : e.verdict? id tool f = none)
    (hid : e.requestId? ≠ some id) : e.Spares id := by
  rcases e.cases_of_id id with ⟨hspares, -⟩ | ⟨d, rfl⟩ | rfl | ⟨a, rfl⟩
  · exact hspares
  · exact absurd rfl hid
  · rw [verdict?, if_pos rfl] at he
    cases he
  · rw [verdict?, if_pos rfl] at he
    cases he

/-- **A call that waits gets what the first event makes of it** that answers its request or cancels
it, and nothing after that. -/
theorem repliesTo_follow_of_waiting (hs : s.phase = .ready)
    (hw : s.waiting id = [⟨id, tool, r, fun a => .done (f a)⟩])
    (hes : id ∉ es.filterMap requestId?) :
    repliesTo id (s.follow c es).2 = (es.findSome? (verdict? id tool f)).toList.map
      fun result => ⟨id, .ok (.called result)⟩ := by
  induction es generalizing s with
  | nil => rfl
  | cons e es ih =>
    have hid : e.requestId? ≠ some id := by
      intro h
      exact hes (List.mem_filterMap.mpr ⟨e, List.mem_cons_self, h⟩)
    have hrest : id ∉ es.filterMap requestId? := by
      intro h
      obtain ⟨e', he', hid'⟩ := List.mem_filterMap.mp h
      exact hes (List.mem_filterMap.mpr ⟨e', List.mem_cons_of_mem e he', hid'⟩)
    rw [follow_cons, repliesTo_append, List.findSome?_cons]
    cases he : e.verdict? id tool f with
    | none =>
      have hspares := spares_of_verdict?_eq_none he hid
      rw [repliesTo_step hs hspares hid, List.nil_append]
      exact ih (phase_step hs e) ((waiting_step hs hspares).trans hw) hrest
    | some result =>
      have hfind : s.find? id = some ⟨id, tool, r, fun a => .done (f a)⟩ := by
        rw [find?_eq_head?, hw, List.head?_cons]
      have hstep := step_of_verdict? (c := c) hs hfind he
      have hnone : (s.release id).waiting id = [] := by
        rw [waiting_release_self, hw, List.tail_cons]
      have hidle := follow_of_idle (c := c) (s := s.release id) hs hnone hrest
      rw [hstep, repliesTo_response_self, hidle.1]
      rfl

end Verdict

/-! ## Which events decide a call -/

section Deciding

variable {id : RequestId} {e : SessionEvent} {es : List SessionEvent} {tool : Text}
  {f : Answer → ToolResult}

theorem answer?_of_spares (h : e.Spares id) : e.answer? id = none := by
  cases e with
  | receive m => rfl
  | hear call a => rw [answer?, if_neg h]

theorem isCancelledIn_cons : IsCancelledIn id (e :: es) ↔
    e = .receive (.notice (.cancel id)) ∨ (∀ a, e ≠ .hear id a) ∧ IsCancelledIn id es := by
  constructor
  · rintro ⟨before, after, hes, hbefore⟩
    rcases before with _ | ⟨b, before⟩
    · exact .inl (List.cons.inj hes).1
    · obtain ⟨rfl, rfl⟩ := List.cons.inj hes
      refine .inr ⟨fun a he => hbefore a (he ▸ List.mem_cons_self), before, after, rfl, ?_⟩
      exact fun a ha => hbefore a (List.mem_cons_of_mem e ha)
  · rintro (rfl | ⟨he, before, after, rfl, hbefore⟩)
    · exact ⟨[], es, rfl, fun a => List.not_mem_nil⟩
    · refine ⟨e :: before, after, rfl, fun a ha => ?_⟩
      rcases List.mem_cons.mp ha with ha | ha
      · exact he a ha.symm
      · exact hbefore a ha

/-- A call that is cancelled in time gets the result that says so. -/
theorem findSome?_verdict?_of_cancelled (h : IsCancelledIn id es) :
    es.findSome? (verdict? id tool f) = some (.cancelled tool) := by
  induction es with
  | nil =>
    obtain ⟨before, after, hes, -⟩ := h
    cases before <;> cases hes
  | cons e es ih =>
    rw [List.findSome?_cons]
    rcases isCancelledIn_cons.mp h with rfl | ⟨he, hrest⟩
    · rw [verdict?, if_pos rfl]
    · rcases e.cases_of_id id with ⟨hspares, -⟩ | ⟨d, rfl⟩ | rfl | ⟨a, rfl⟩
      · rw [verdict?_of_spares hspares, ih hrest]
      · exact ih hrest
      · rw [verdict?, if_pos rfl]
      · exact absurd rfl (he a)

/-- A call that is not cancelled in time gets what the first answer to its request gives. -/
theorem findSome?_verdict?_of_not_cancelled (h : ¬IsCancelledIn id es) :
    es.findSome? (verdict? id tool f) = (es.findSome? (answer? id)).map f := by
  induction es with
  | nil => rfl
  | cons e es ih =>
    rw [isCancelledIn_cons, not_or, not_and] at h
    obtain ⟨hcancel, hrest⟩ := h
    rw [List.findSome?_cons, List.findSome?_cons]
    rcases e.cases_of_id id with ⟨hspares, -⟩ | ⟨d, rfl⟩ | rfl | ⟨a, rfl⟩
    · rw [verdict?_of_spares hspares, answer?_of_spares hspares]
      refine ih (hrest ?_)
      rintro a rfl
      exact hspares rfl
    · exact ih (hrest nofun)
    · exact absurd rfl hcancel
    · rw [verdict?, answer?, if_pos rfl, if_pos rfl]
      rfl

/-- The events that have to do with a call keep all the answers to its request. -/
theorem findSome?_answer?_filter_isOwn :
    (es.filter (isOwn id)).findSome? (answer? id) = es.findSome? (answer? id) := by
  induction es with
  | nil => rfl
  | cons e es ih =>
    by_cases he : e.isOwn id = true
    · rw [List.filter_cons_of_pos he, List.findSome?_cons, List.findSome?_cons, ih]
    · have hnone : e.answer? id = none := by
        cases e with
        | receive m => rfl
        | hear call a => exact if_neg fun hcall => he (beq_iff_eq.mpr hcall)
      rw [List.filter_cons_of_neg he, List.findSome?_cons, hnone, ih]

/-- They cancel nothing. -/
theorem not_isCancelledIn_filter_isOwn : ¬IsCancelledIn id (es.filter (isOwn id)) := by
  rintro ⟨before, after, hes, -⟩
  have hmem : SessionEvent.receive (.notice (.cancel id)) ∈ es.filter (isOwn id) := by
    rw [hes]
    exact List.mem_append_right before List.mem_cons_self
  cases (List.mem_filter.mp hmem).2

end Deciding

/-! ## Calls in their histories -/

section Call

variable {c : Config} {s : Session} {id : RequestId} {name : Text} {args : Arguments}
  {before after : List SessionEvent}

/-- The id of a request is used by nothing else. -/
theorem HasDistinctIds.of_request {e : SessionEvent} (h : s.HasDistinctIds (before ++ e :: after))
    (he : e.requestId? = some id) :
    s.waiting id = [] ∧ id ∉ before.filterMap requestId? ∧ id ∉ after.filterMap requestId? := by
  have hcount := List.nodup_iff_count_le_one.mp h id
  rw [List.filterMap_append, List.filterMap_cons_some he, List.count_append, List.count_append,
    List.count_cons_self, ← length_waiting] at hcount
  refine ⟨List.eq_nil_of_length_eq_zero (by omega), ?_, ?_⟩
  · exact List.count_eq_zero.mp (by omega)
  · exact List.count_eq_zero.mp (by omega)

variable (hs : s.phase = .ready) (hw : s.waiting id = [])
  (hbefore : id ∉ before.filterMap requestId?)

include hs hw hbefore

/-- What has come before a call brings no reply to it. -/
theorem repliesTo_follow_call : repliesTo id
      (s.follow c (before ++ .receive (.request id (.callTool name args)) :: after)).2 =
    let asked := (s.follow c before).1.proceed id name (dispatch c name args)
    repliesTo id asked.2 ++ repliesTo id (asked.1.follow c after).2 := by
  have hready := phase_follow (c := c) hs before
  rw [follow_append, repliesTo_append, (follow_of_idle hs hw hbefore).1, List.nil_append,
    follow_cons, repliesTo_append, step, receive_request hready, attend]

variable (hafter : id ∉ after.filterMap requestId?)

include hafter

/-- A call that makes no request gets its result whatever happens. -/
theorem repliesTo_follow_of_done {result : ToolResult} (hd : dispatch c name args = .done result) :
    repliesTo id
      (s.follow c (before ++ .receive (.request id (.callTool name args)) :: after)).2 =
      [⟨id, .ok (.called result)⟩] := by
  have hidle := follow_of_idle (c := c) hs hw hbefore
  have hready := phase_follow (c := c) hs before
  rw [repliesTo_follow_call hs hw hbefore, hd]
  dsimp only [proceed]
  rw [repliesTo_response_self, (follow_of_idle hready hidle.2 hafter).1, List.append_nil]

/-- A call that makes a request gets what the first event behind it makes of it that answers the
request or cancels the call. -/
theorem repliesTo_follow_of_send {r : Request} {f : Answer → ToolResult}
    (hd : dispatch c name args = .send r fun a => .done (f a)) :
    repliesTo id
      (s.follow c (before ++ .receive (.request id (.callTool name args)) :: after)).2 =
      (after.findSome? (verdict? id name f)).toList.map
        fun result => ⟨id, .ok (.called result)⟩ := by
  have hidle := follow_of_idle (c := c) hs hw hbefore
  have hready := phase_follow (c := c) hs before
  have hwaits : (((s.follow c before).1.proceed id name (dispatch c name args)).1).waiting id =
      [⟨id, name, r, fun a => .done (f a)⟩] := by
    rw [hd]
    exact (waiting_cons_self _).trans (congrArg _ hidle.2)
  have hphase := (phase_proceed id name (dispatch c name args)).trans hready
  rw [repliesTo_follow_call hs hw hbefore]
  dsimp only
  rw [repliesTo_follow_of_waiting hphase hwaits hafter, hd]
  rfl

/-- **A call that is cancelled** while its request has no answer gets the result that says so. -/
theorem repliesTo_follow_of_cancelled (hasks : (dispatch c name args).asks = true)
    (hcancel : IsCancelledIn id after) : repliesTo id
      (s.follow c (before ++ .receive (.request id (.callTool name args)) :: after)).2 =
      [⟨id, .ok (.called (.cancelled name))⟩] := by
  rcases isShort_dispatch c name args with ⟨result, hd⟩ | ⟨r, f, hd⟩
  · rw [hd] at hasks
    cases hasks
  · rw [repliesTo_follow_of_send hs hw hbefore hafter hd, findSome?_verdict?_of_cancelled hcancel]
    rfl

/-- **A call that is not cancelled** in time gets what the answer to its request makes of it. -/
theorem repliesTo_follow_of_not_cancelled
    (hcancel : (dispatch c name args).asks = true → ¬IsCancelledIn id after) : repliesTo id
      (s.follow c (before ++ .receive (.request id (.callTool name args)) :: after)).2 =
      ((dispatch c name args).run fun _ => after.findSome? (answer? id)).result.toList.map
        fun result => ⟨id, .ok (.called result)⟩ := by
  rcases isShort_dispatch c name args with ⟨result, hd⟩ | ⟨r, f, hd⟩
  · rw [repliesTo_follow_of_done hs hw hbefore hafter hd, hd]
    rfl
  · have hasks : (dispatch c name args).asks = true := by rw [hd, Plan.asks]
    rw [repliesTo_follow_of_send hs hw hbefore hafter hd,
      findSome?_verdict?_of_not_cancelled (hcancel hasks), hd, Plan.run_send_done]

end Call

/-- **What a call gets alone** is what the first answer to its request makes of it. -/
theorem repliesTo_follow_alone {id : RequestId} {before after : List SessionEvent}
    (hbefore : id ∉ before.filterMap requestId?) (hafter : id ∉ after.filterMap requestId?)
    (c : Config) (name : Text) (args : Arguments) :
    repliesTo id (({ phase := .ready } : Session).follow c
      ((before ++ .receive (.request id (.callTool name args)) :: after).filter (isOwn id))).2 =
      ((dispatch c name args).run fun _ => after.findSome? (answer? id)).result.toList.map
        fun result => ⟨id, .ok (.called result)⟩ := by
  have hown : (SessionEvent.receive (.request id (.callTool name args))).isOwn id = true :=
    beq_self_eq_true id
  have hsub (es : List SessionEvent) (h : id ∉ es.filterMap requestId?) :
      id ∉ (es.filter (isOwn id)).filterMap requestId? :=
    fun hmem => h ((List.filter_sublist.filterMap requestId?).subset hmem)
  rw [List.filter_append, List.filter_cons_of_pos hown,
    repliesTo_follow_of_not_cancelled rfl rfl (hsub _ hbefore) (hsub _ hafter)
      fun _ => not_isCancelledIn_filter_isOwn,
    findSome?_answer?_filter_isOwn]

end Session

open Session SessionEvent

/-- **Cancellation touches only its own call.**  Whatever comes to an initialised session, as long
as no two requests have the same id: there is one reply at most under each id, and none under an id
that no request has; a call that is cancelled while its request is not answered gets the result that
says so, and nothing else; every other call gets what it would get if nothing came but its request
and the answers to it; and a notice that cancels a call which has not come, or has its reply,
changes nothing. -/
theorem cancellation_touches_only_its_call {c : Config} {s : Session} {es : List SessionEvent}
    (hs : IsInitialised c s) (hes : s.HasDistinctIds es) :
    (∀ id, (repliesTo id (s.follow c es).2).length ≤ 1) ∧
    (∀ r ∈ responses (s.follow c es).2,
      r.id ∈ s.pending.map PendingCall.id ++ es.filterMap requestId?) ∧
    (∀ id name args before after,
      es = before ++ .receive (.request id (.callTool name args)) :: after →
      ((dispatch c name args).asks = true → IsCancelledIn id after →
        repliesTo id (s.follow c es).2 = [⟨id, .ok (.called
          ⟨"Tool call '".toList ++ name ++ "' was cancelled".toList, true⟩)⟩]) ∧
      (((dispatch c name args).asks = true → ¬IsCancelledIn id after) →
        repliesTo id (s.follow c es).2 =
          repliesTo id (({ phase := .ready } : Session).follow c (es.filter (isOwn id))).2 ∧
        repliesTo id (s.follow c es).2 =
          ((dispatch c name args).run fun _ => after.findSome? (answer? id)).result.toList.map
            fun result => ⟨id, .ok (.called result)⟩)) ∧
    ∀ id before after, es = before ++ after →
      (id ∉ s.pending.map PendingCall.id ++ before.filterMap requestId? ∨
        repliesTo id (s.follow c before).2 ≠ []) →
      s.follow c (before ++ .receive (.notice (.cancel id)) :: after) = s.follow c es := by
  have hready := hs.phase
  refine ⟨fun id => ?_, fun r hr => id_mem_of_reply hready hr, ?_, ?_⟩
  · exact (Nat.le_add_right _ _).trans (hes.length_le hready id)
  · rintro id name args before after rfl
    obtain ⟨hw, hbefore, hafter⟩ := hes.of_request rfl
    refine ⟨repliesTo_follow_of_cancelled hready hw hbefore hafter, fun hcancel => ?_⟩
    have hreplies := repliesTo_follow_of_not_cancelled hready hw hbefore hafter hcancel
    exact ⟨hreplies.trans (repliesTo_follow_alone hbefore hafter c name args).symm, hreplies⟩
  · rintro id before after rfl hid
    have hbalance := length_repliesTo_follow (c := c) hready before id
    have hle := hes.of_append.length_le (c := c) hready id
    refine follow_cancel_of_idle hready (List.eq_nil_of_length_eq_zero ?_) after
    rcases hid with hid | hid
    · -- Nothing under the id has come, so that nothing waits under it.
      rw [length_waiting s, ← List.count_append, List.count_eq_zero.mpr hid] at hbalance
      omega
    · have hpos := List.length_pos_iff.mpr hid
      omega

/-- A call of the tool that shows alerts. -/
def alertsCall (id : Nat) : SessionEvent :=
  .receive (.request (.number id) (.callTool "get_alerts".toList []))

/-- Two calls, of which the first is cancelled, and the answers to both. -/
def twoCalls : List SessionEvent :=
  [alertsCall 1, alertsCall 2, .receive (.notice (.cancel (.number 1))),
   .hear (.number 2) (.replied 404 []), .hear (.number 1) (.replied 404 [])]

/-- Of two calls side by side the one that is cancelled says so, and the other gets what it would
get alone. -/
theorem cancellation_touches_only_its_call_of_two_calls :
    let c : Config := { connection := { url := some "http://h".toList } }
    let s : Session := { phase := .ready }
    repliesTo (.number 1) (s.follow c twoCalls).2 =
      [⟨.number 1, .ok (.called ⟨"Tool call 'get_alerts' was cancelled".toList, true⟩)⟩] ∧
    repliesTo (.number 2) (s.follow c twoCalls).2 =
      repliesTo (.number 2) (s.follow c
        [alertsCall 2, .hear (.number 2) (.replied 404 [])]).2 := by
  intro c s
  have hs : IsInitialised c s := ⟨.number 0, [], [], rfl⟩
  have hes : s.HasDistinctIds twoCalls := by
    unfold HasDistinctIds
    decide
  have hasks : (dispatch c "get_alerts".toList []).asks = true := by decide +kernel
  obtain ⟨-, -, hcalls, -⟩ := cancellation_touches_only_its_call hs hes
  obtain ⟨hfirst, -⟩ := hcalls (.number 1) "get_alerts".toList [] [] _ rfl
  obtain ⟨-, hsecond⟩ := hcalls (.number 2) "get_alerts".toList [] [alertsCall 1] _ rfl
  refine ⟨hfirst hasks ⟨[alertsCall 2], _, rfl, fun a => ?_⟩, (hsecond fun _ => ?_).1⟩
  · rw [List.mem_singleton]
    exact nofun
  · rw [isCancelledIn_cons, isCancelledIn_cons]
    rintro (h | ⟨-, h | ⟨h, -⟩⟩)
    · cases h
    · cases h
    · exact h _ rfl

end MetricsBridge
