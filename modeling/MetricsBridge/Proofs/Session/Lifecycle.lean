import MetricsBridge.Proofs.Server.Calling
import MetricsBridge.Session.Basic

/-!
# Histories of sessions

A session takes messages and hears the answers to the requests of its calls, in any order.
`Session.follow` is what becomes of it in such a history and what it sends.  A session that has
become ready in its history has been greeted and told that its client is ready, and stays ready
(`isInitialised_iff`); a call that waits is left alone by all that does not cancel or answer it
(`waiting_follow`); and a message that is delivered is a short history of its own
(`deliver_eq_follow`).
-/
namespace MetricsBridge

/-- What happens to a session: a message comes, or the answer to the request of a call. -/
inductive SessionEvent where
  | receive (m : Message)
  | hear (call : RequestId) (a : Answer)

namespace SessionEvent

/-- The message that comes. -/
def message? : SessionEvent → Option Message
  | .receive m => some m
  | .hear _ _ => none

/-- The event leaves the call under an id alone: it does not cancel it, does not start another under
the same id, and is not the answer to its request. -/
def Spares (id : RequestId) : SessionEvent → Prop
  | .receive (.notice (.cancel other)) => other ≠ id
  | .receive (.request other (.callTool _ _)) => other ≠ id
  | .receive _ => True
  | .hear other _ => other ≠ id

end SessionEvent

namespace Session

/-- The session after an event, and what it sends. -/
def step (c : Config) (s : Session) : SessionEvent → Session × List Sending
  | .receive m => s.receive c m
  | .hear call a => s.hear call a

/-- The session after a history, and what it has sent in it. -/
def follow (c : Config) (s : Session) : List SessionEvent → Session × List Sending
  | [] => (s, [])
  | e :: es =>
    let (s, sent) := s.step c e
    let (s, more) := follow c s es
    (s, sent ++ more)

/-- The session has been greeted and told that its client is ready, whatever has happened since. -/
def IsInitialised (c : Config) (s : Session) : Prop :=
  ∃ id protocol es, s = (({} : Session).follow c (.receive (.request id (.greeting protocol)) ::
    .receive (.notice .ready) :: es)).1

section Histories

variable {c : Config} {s : Session}

theorem follow_cons (e : SessionEvent) (es : List SessionEvent) : s.follow c (e :: es) =
    (((s.step c e).1.follow c es).1, (s.step c e).2 ++ ((s.step c e).1.follow c es).2) := rfl

theorem follow_append (es es' : List SessionEvent) : s.follow c (es ++ es') =
    (((s.follow c es).1.follow c es').1,
      (s.follow c es).2 ++ ((s.follow c es).1.follow c es').2) := by
  induction es generalizing s with
  | nil => rfl
  | cons e es ih => rw [List.cons_append, follow_cons, ih, follow_cons, List.append_assoc]

theorem follow_singleton (e : SessionEvent) : s.follow c [e] = s.step c e := by
  rw [follow_cons, follow, List.append_nil]

@[simp] theorem responses_append (sent more : List Sending) :
    responses (sent ++ more) = responses sent ++ responses more :=
  List.filterMap_append

end Histories

/-! ## Sessions that are ready -/

section Ready

variable {c : Config} {s : Session} {id : RequestId}

theorem phase_proceed (id : RequestId) (tool : Text) (p : Plan ToolResult) :
    (s.proceed id tool p).1.phase = s.phase := by
  cases p <;> rfl

theorem phase_attend (id : RequestId) (d : Demand) : (s.attend c id d).1.phase = s.phase := by
  cases d with
  | callTool name args => exact phase_proceed id name _
  | _ => rfl

theorem phase_cancel (id : RequestId) : (s.cancel id).1.phase = s.phase := by
  unfold cancel
  split <;> rfl

theorem phase_hear (id : RequestId) (a : Answer) : (s.hear id a).1.phase = s.phase := by
  unfold hear
  split
  · rfl
  · exact phase_proceed _ _ _

/-- What a session that is ready does with a message is to attend to a request, to cancel a call, or
nothing. -/
theorem receive_cases (c : Config) (h : s.phase = .ready) (m : Message) :
    (∃ id d, m = .request id d ∧ s.receive c m = s.attend c id d) ∨
    (∃ id, m = .notice (.cancel id) ∧ s.receive c m = s.cancel id) ∨
    ((∀ id d, m ≠ .request id d) ∧ (∀ id, m ≠ .notice (.cancel id)) ∧ s.receive c m = (s, [])) := by
  obtain ⟨phase, pending⟩ := s
  cases h
  cases m with
  | request id d => exact .inl ⟨id, d, rfl, rfl⟩
  | notice n =>
    cases n with
    | cancel id => exact .inr (.inl ⟨id, rfl, rfl⟩)
    | ready | other => exact .inr (.inr ⟨nofun, nofun, rfl⟩)
  | outcome => exact .inr (.inr ⟨nofun, nofun, rfl⟩)

theorem receive_request (h : s.phase = .ready) (id : RequestId) (d : Demand) :
    s.receive c (.request id d) = s.attend c id d := by
  rcases receive_cases c h (.request id d) with ⟨_, _, hm, hr⟩ | ⟨_, hm, -⟩ | ⟨hm, -, -⟩
  · cases hm
    exact hr
  · cases hm
  · exact absurd rfl (hm id d)

theorem receive_cancel (h : s.phase = .ready) (id : RequestId) :
    s.receive c (.notice (.cancel id)) = s.cancel id := by
  rcases receive_cases c h (.notice (.cancel id)) with ⟨_, _, hm, -⟩ | ⟨_, hm, hr⟩ | ⟨-, hm, -⟩
  · cases hm
  · cases hm
    exact hr
  · exact absurd rfl (hm id)

/-- A session that is ready stays so. -/
theorem phase_step (h : s.phase = .ready) (e : SessionEvent) : (s.step c e).1.phase = .ready := by
  cases e with
  | receive m =>
    rw [step]
    rcases receive_cases c h m with ⟨id, d, -, hr⟩ | ⟨id, -, hr⟩ | ⟨-, -, hr⟩
    · rw [hr, phase_attend, h]
    · rw [hr, phase_cancel, h]
    · rw [hr, h]
  | hear call a => rw [step, phase_hear, h]

theorem phase_follow (h : s.phase = .ready) (es : List SessionEvent) :
    (s.follow c es).1.phase = .ready := by
  induction es generalizing s with
  | nil => exact h
  | cons e es ih => exact ih (phase_step h e)

theorem IsInitialised.phase (h : IsInitialised c s) : s.phase = .ready := by
  obtain ⟨id, protocol, es, rfl⟩ := h
  rw [follow_cons, follow_cons]
  exact phase_follow rfl es

/-- A session that has ended stays so. -/
theorem phase_step_of_ended (h : s.phase = .ended) (e : SessionEvent) :
    (s.step c e).1.phase = .ended := by
  cases e with
  | receive m => rw [step, receive.eq_def, h]; exact h
  | hear call a => rw [step, phase_hear, h]

theorem phase_follow_of_ended (h : s.phase = .ended) (es : List SessionEvent) :
    (s.follow c es).1.phase = .ended := by
  induction es generalizing s with
  | nil => exact h
  | cons e es ih => exact ih (phase_step_of_ended h e)

/-- A session that has been greeted becomes ready by the notice that its client is. -/
theorem exists_ready_of_greeted {es : List SessionEvent}
    (h : ((⟨.greeted, []⟩ : Session).follow c es).1.phase = .ready) :
    ∃ es', ((⟨.greeted, []⟩ : Session).follow c es).1 =
      ((⟨.greeted, []⟩ : Session).follow c (.receive (.notice .ready) :: es')).1 := by
  induction es with
  | nil => cases h
  | cons e es ih =>
    -- Anything else ends a session that has been greeted, and in its end none is ready.
    have hended : ∀ m, m ≠ .notice .ready →
        ((⟨.greeted, []⟩ : Session).step c (.receive m)).1.phase = .ended := by
      intro m hm
      rcases m with _ | n | _
      · rfl
      · cases n with
        | ready => exact absurd rfl hm
        | cancel | other => rfl
      · rfl
    cases e with
    | receive m =>
      by_cases hm : m = .notice .ready
      · exact ⟨es, by rw [hm]⟩
      · rw [follow_cons, phase_follow_of_ended (hended m hm)] at h
        cases h
    | hear call a =>
      -- No call waits yet, so that the answer changes nothing.
      exact ih h

/-- **A session is initialised exactly if** it has become ready in a history of its own. -/
theorem isInitialised_iff :
    IsInitialised c s ↔ s.phase = .ready ∧ ∃ es, s = (({} : Session).follow c es).1 := by
  constructor
  · intro h
    obtain ⟨id, protocol, es, hs⟩ := id h
    exact ⟨h.phase, _, hs⟩
  · rintro ⟨hs, es, rfl⟩
    induction es with
    | nil => cases hs
    | cons e es ih =>
      -- A fresh session ends with anything but a greeting.
      have hended : ∀ m, (∀ id protocol, m ≠ .request id (.greeting protocol)) →
          (({} : Session).step c (.receive m)).1.phase = .ended := by
        intro m hm
        rcases m with ⟨id, d⟩ | _ | _
        · cases d with
          | greeting protocol => exact absurd rfl (hm id protocol)
          | _ => rfl
        · rfl
        · rfl
      cases e with
      | receive m =>
        by_cases hm : ∃ id protocol, m = .request id (.greeting protocol)
        · obtain ⟨id, protocol, rfl⟩ := hm
          obtain ⟨es', hes'⟩ := exists_ready_of_greeted hs
          exact ⟨id, protocol, es', hes'⟩
        · have hne := hended m fun id protocol he => hm ⟨id, protocol, he⟩
          rw [follow_cons, phase_follow_of_ended hne] at hs
          cases hs
      | hear call a => exact ih hs

end Ready

/-! ## Calls that wait -/

section Waiting

variable {c : Config} {s : Session} {id other : RequestId} {p : PendingCall}

/-- The calls that wait under an id, the newest in front. -/
def waiting (s : Session) (id : RequestId) : List PendingCall :=
  s.pending.filter fun p => p.id == id

theorem find?_eq_head? : s.find? id = (s.waiting id).head? :=
  List.head?_filter.symm

theorem filter_eraseP_of_disjoint {α : Type} {p q : α → Bool} (h : ∀ a, q a = true → p a = false)
    (l : List α) : (l.eraseP q).filter p = l.filter p := by
  induction l with
  | nil => rfl
  | cons a l ih =>
    by_cases hq : q a = true
    · rw [List.eraseP_cons_of_pos hq, List.filter_cons, h a hq]
      rfl
    · rw [List.eraseP_cons_of_neg hq, List.filter_cons, List.filter_cons, ih]

theorem filter_eraseP_self {α : Type} (p : α → Bool) (l : List α) :
    (l.eraseP p).filter p = (l.filter p).tail := by
  induction l with
  | nil => rfl
  | cons a l ih =>
    by_cases hp : p a = true
    · rw [List.eraseP_cons_of_pos hp, List.filter_cons_of_pos hp, List.tail_cons]
    · rw [List.eraseP_cons_of_neg hp, List.filter_cons_of_neg hp, List.filter_cons_of_neg hp, ih]

/-- Of several calls under an id the newest is the one that is released. -/
theorem waiting_release_self : (s.release id).waiting id = (s.waiting id).tail :=
  filter_eraseP_self _ _

theorem waiting_release_of_ne (h : other ≠ id) :
    (s.release other).waiting id = s.waiting id := by
  refine filter_eraseP_of_disjoint (fun p hp => ?_) s.pending
  rw [beq_iff_eq.mp hp]
  exact beq_false_of_ne h

theorem waiting_cons_self (p : PendingCall) :
    ({ s with pending := p :: s.pending } : Session).waiting p.id = p :: s.waiting p.id :=
  List.filter_cons_of_pos (beq_self_eq_true p.id)

theorem waiting_proceed_of_ne (h : other ≠ id) (tool : Text) (plan : Plan ToolResult) :
    (s.proceed other tool plan).1.waiting id = s.waiting id := by
  cases plan with
  | done r => rfl
  | send r next =>
    refine List.filter_cons_of_neg fun hid => h ?_
    exact beq_iff_eq.mp hid

theorem waiting_cancel_of_ne (h : other ≠ id) :
    (s.cancel other).1.waiting id = s.waiting id := by
  unfold cancel
  split
  · rfl
  · exact waiting_release_of_ne h

theorem waiting_hear_of_ne (h : other ≠ id) (a : Answer) :
    (s.hear other a).1.waiting id = s.waiting id := by
  unfold hear
  split
  · rfl
  · rw [waiting_proceed_of_ne h, waiting_release_of_ne h]

/-- The calls under an id stay as they are in an event that spares them. -/
theorem waiting_step (hs : s.phase = .ready) {e : SessionEvent} (he : e.Spares id) :
    (s.step c e).1.waiting id = s.waiting id := by
  cases e with
  | receive m =>
    rw [step]
    rcases receive_cases c hs m with ⟨other, d, rfl, hr⟩ | ⟨other, rfl, hr⟩ | ⟨-, -, hr⟩
    · rw [hr]
      cases d with
      | callTool name args => exact waiting_proceed_of_ne he name _
      | _ => rfl
    · rw [hr]
      exact waiting_cancel_of_ne he
    · rw [hr]
  | hear call a => exact waiting_hear_of_ne he a

theorem waiting_follow (hs : s.phase = .ready) {es : List SessionEvent}
    (hes : ∀ e ∈ es, e.Spares id) : (s.follow c es).1.waiting id = s.waiting id := by
  induction es generalizing s with
  | nil => rfl
  | cons e es ih =>
    obtain ⟨he, hes⟩ := List.forall_mem_cons.mp hes
    rw [follow_cons, ih (phase_step hs e) hes, waiting_step hs he]

theorem find?_follow (hs : s.phase = .ready) {es : List SessionEvent}
    (hes : ∀ e ∈ es, e.Spares id) : (s.follow c es).1.find? id = s.find? id := by
  rw [find?_eq_head?, waiting_follow hs hes, find?_eq_head?]

/-- The newest call under an id is the one that waits. -/
theorem find?_cons_pending (p : PendingCall) :
    ({ s with pending := p :: s.pending } : Session).find? p.id = some p := by
  rw [find?_eq_head?, waiting_cons_self, List.head?_cons]

end Waiting

/-! ## Messages that are delivered -/

section Delivering

variable {c : Config} {s : Session} {id : RequestId} {m : Message}

/-- A message that leads to a request of the metrics server starts a call, which waits for the
answer to this one request. -/
theorem receive_of_asking (h : asking? (s.receive c m).2 = some id) :
    ∃ (name : Text) (r : Request) (f : Answer → ToolResult), s.receive c m =
      ({ s with pending := ⟨id, name, r, fun a => .done (f a)⟩ :: s.pending }, [.request id r]) := by
  by_cases hs : s.phase = .ready
  · rcases receive_cases c hs m with ⟨other, d, rfl, hr⟩ | ⟨other, -, hr⟩ | ⟨-, -, hr⟩
    · rw [hr] at h ⊢
      cases d with
      | callTool name args =>
        rw [attend] at h ⊢
        rcases isShort_dispatch c name args with ⟨result, hd⟩ | ⟨r, f, hd⟩
        · rw [hd] at h
          cases h
        · rw [hd] at h ⊢
          cases h
          exact ⟨name, r, f, rfl⟩
      | _ => cases h
    · rw [hr, cancel] at h
      split at h <;> cases h
    · rw [hr] at h
      cases h
  · -- Before it is ready a session responds to a greeting at most.
    have hnone : asking? (s.receive c m).2 = none := by
      unfold receive
      split <;> first | rfl | exact absurd ‹_› hs
    rw [hnone] at h
    cases h

section Answer

variable {name : Text} {r : Request} {f : Answer → ToolResult} {call : RequestId}
  (h : s.find? id = some ⟨call, name, r, fun a => .done (f a)⟩)

include h

/-- The newest call under an id, if it waits for one answer, is done with it. -/
theorem hear_of_find? (a : Answer) :
    s.hear id a = (s.release id, [.response ⟨id, .ok (.called (f a))⟩]) := by
  rw [hear, h]
  rfl

/-- Settling the newest call under an id, if it waits for one answer, is hearing this answer. -/
theorem settle_of_find? (backend : Backend) :
    (backend [r] = none ∧ s.settle backend id = (s, [⟨r, none⟩], [])) ∨
    ∃ a, backend [r] = some a ∧ s.settle backend id =
      (s.release id, [⟨r, some a⟩], [⟨id, .ok (.called (f a))⟩]) := by
  rw [settle, h]
  dsimp only
  rw [Plan.run_send_done]
  cases backend [r] with
  | none => exact .inl ⟨rfl, rfl⟩
  | some a => exact .inr ⟨a, rfl, rfl⟩

end Answer

theorem deliver_of_not_asking (h : asking? (s.receive c m).2 = none) (backend : Backend) :
    s.deliver c backend m = ((s.receive c m).1, [], responses (s.receive c m).2) := by
  simp only [deliver, h]

theorem deliver_of_asking (h : asking? (s.receive c m).2 = some id) (backend : Backend) :
    s.deliver c backend m = (((s.receive c m).1.settle backend id).1,
      ((s.receive c m).1.settle backend id).2.1,
      responses (s.receive c m).2 ++ ((s.receive c m).1.settle backend id).2.2) := by
  simp only [deliver, h]

/-- **A message that is delivered** is a history of its own: the message, and then the answer to the
request that it leads to, if there is one. -/
theorem deliver_eq_follow (c : Config) (backend : Backend) (s : Session) (m : Message) :
    ∃ es, es.filterMap SessionEvent.message? = [] ∧
      (s.deliver c backend m).1 = (s.follow c (.receive m :: es)).1 ∧
      (s.deliver c backend m).2.2 = responses (s.follow c (.receive m :: es)).2 := by
  cases h : asking? (s.receive c m).2 with
  | none =>
    refine ⟨[], rfl, ?_⟩
    rw [deliver_of_not_asking h, follow_singleton]
    exact ⟨rfl, rfl⟩
  | some id =>
    obtain ⟨name, r, f, hr⟩ := receive_of_asking h
    have hstep : s.step c (.receive m) = s.receive c m := rfl
    have hfind : (s.receive c m).1.find? id = some ⟨id, name, r, fun a => .done (f a)⟩ := by
      rw [hr]
      exact find?_cons_pending _
    rw [deliver_of_asking h]
    rcases settle_of_find? hfind backend with ⟨-, hset⟩ | ⟨a, -, hset⟩
    · refine ⟨[], rfl, ?_⟩
      rw [hset, follow_singleton, hstep, List.append_nil]
      exact ⟨rfl, rfl⟩
    · refine ⟨[.hear id a], rfl, ?_⟩
      rw [hset, follow_cons, follow_singleton, hstep, step, hear_of_find? hfind,
        responses_append]
      exact ⟨rfl, rfl⟩

end Delivering

end Session

end MetricsBridge
