import MetricsBridge.Proofs.Session.Lifecycle
import MetricsBridge.Session.EventStream

/-!
# The streams of a hub

A hub is looked up by id.  The lemmas here say what opening, dropping, changing a stream and posting
do to the streams that are found, so that no later proof looks at the list itself; `Channel.Follows`
says that a stream carries what its session sends.
-/
namespace MetricsBridge

/-! ## What happens to a stream -/

namespace Channel

open Session

/-- A stream goes on as its session does: the session goes through a history in which it receives
the messages `taken`, and the stream carries the responses that the session sends. -/
structure Follows (c : Config) (ch next : Channel) (taken : List Message) : Prop where
  id : next.id = ch.id
  session : ∃ es, es.filterMap SessionEvent.message? = taken ∧
    next.session = (ch.session.follow c es).1 ∧
    next.events = ch.events ++ (responses (ch.session.follow c es).2).map .message

namespace Follows

variable {c : Config} {x y z : Channel} {taken taken' : List Message}

theorem refl (x : Channel) : x.Follows c x [] :=
  ⟨rfl, [], rfl, rfl, (List.append_nil _).symm⟩

theorem trans (h : x.Follows c y taken) (h' : y.Follows c z taken') :
    x.Follows c z (taken ++ taken') := by
  obtain ⟨es, htaken, hsession, hevents⟩ := h.session
  obtain ⟨es', htaken', hsession', hevents'⟩ := h'.session
  refine ⟨h'.id.trans h.id, es ++ es', ?_, ?_, ?_⟩
  · rw [List.filterMap_append, htaken, htaken']
  · rw [hsession', hsession, follow_append]
  · rw [hevents', hevents, hsession, follow_append, responses_append, List.map_append,
      List.append_assoc]

end Follows

/-- A message comes to stand behind those that wait. -/
def put (m : Message) (ch : Channel) : Channel :=
  { ch with inbox := ch.inbox ++ [m] }

/-- The session takes a message, and the server answers what it asks for. -/
def deliver (c : Config) (backend : Backend) (ch : Channel) (m : Message) :
    Channel × List Exchange :=
  let delivered := ch.session.deliver c backend m
  (carry { ch with session := delivered.1 } delivered.2.2, delivered.2.1)

variable (c : Config) (backend : Backend) (ch : Channel)

theorem follows_put (m : Message) : ch.Follows c (ch.put m) [] :=
  ⟨rfl, [], rfl, rfl, (List.append_nil _).symm⟩

theorem follows_take : ch.Follows c (ch.take c) ch.inbox.head?.toList := by
  unfold take
  split
  · next h =>
    rw [h]
    exact .refl ch
  · next m rest h =>
    rw [h]
    refine ⟨rfl, [.receive m], rfl, ?_⟩
    rw [follow_singleton]
    exact ⟨rfl, rfl⟩

theorem follows_hear (call : RequestId) (a : Answer) : ch.Follows c (ch.hear call a) [] := by
  refine ⟨rfl, [.hear call a], rfl, ?_⟩
  rw [follow_singleton]
  exact ⟨rfl, rfl⟩

theorem follows_deliver (m : Message) : ch.Follows c (ch.deliver c backend m).1 [m] := by
  obtain ⟨es, htaken, hsession, hresponses⟩ := deliver_eq_follow c backend ch.session m
  refine ⟨rfl, .receive m :: es, ?_, hsession, ?_⟩
  · rw [List.filterMap_cons, SessionEvent.message?, htaken]
  · rw [deliver, carry, hresponses]

theorem takeAll_cons (m : Message) (rest : List Message) : takeAll c backend ch (m :: rest) =
    ((takeAll c backend (ch.deliver c backend m).1 rest).1,
      (ch.deliver c backend m).2 ++ (takeAll c backend (ch.deliver c backend m).1 rest).2) := rfl

theorem follows_takeAll (ms : List Message) : ch.Follows c (takeAll c backend ch ms).1 ms := by
  induction ms generalizing ch with
  | nil => exact ⟨rfl, [], rfl, rfl, (List.append_nil _).symm⟩
  | cons m rest ih => exact (ch.follows_deliver c backend m).trans (ih _)

/-- A session that takes a message takes the oldest one. -/
theorem inbox_take : (ch.take c).inbox = ch.inbox.tail := by
  unfold take
  split
  · next h => rw [h, List.tail_nil]
  · next m rest h => rw [h, List.tail_cons]; rfl

theorem inbox_takeAll (ms : List Message) : (takeAll c backend ch ms).1.inbox = [] := by
  induction ms generalizing ch with
  | nil => rfl
  | cons m rest ih => exact ih _

end Channel

/-! ## Streams of an id -/

namespace Hub

/-- The ids of the open streams. -/
def ids (hub : Hub) : List Text :=
  hub.map Channel.id

section Lookup

variable {hub : Hub} {id other path : Text} {ch : Channel} {f : Channel → Channel}

theorem id_of_channel? (h : hub.channel? id = some ch) : ch.id = id := by
  have hid := List.find?_some h
  exact beq_iff_eq.mp hid

theorem channel?_eq_none : hub.channel? id = none ↔ id ∉ hub.ids := by
  rw [channel?, List.find?_eq_none, ids, List.mem_map]
  simp only [beq_iff_eq, not_exists, not_and]

theorem exists_channel?_iff : (∃ ch, hub.channel? id = some ch) ↔ id ∈ hub.ids := by
  rw [← Option.isSome_iff_exists, ← Option.ne_none_iff_isSome, ne_eq, channel?_eq_none, not_not]

/-! ### Ids -/

@[simp] theorem ids_opened : (hub.opened path id).ids = hub.ids ++ [id] := by
  simp [ids, opened]

theorem ids_dropped : (hub.dropped id).ids = hub.ids.filter (· != id) := by
  rw [ids, ids, dropped, List.filter_map]
  rfl

theorem ids_map (hf : ∀ ch, (f ch).id = ch.id) : ids (hub.map f) = hub.ids := by
  rw [ids, ids, List.map_map]
  exact List.map_congr_left fun ch _ => hf ch

theorem id_ite (hf : ∀ ch, (f ch).id = ch.id) (ch : Channel) :
    (if ch.id = id then f ch else ch).id = ch.id := by
  split_ifs
  · exact hf ch
  · rfl

theorem ids_update (hf : ∀ ch, (f ch).id = ch.id) : (hub.update id f).ids = hub.ids :=
  ids_map (id_ite hf)

/-! ### Streams -/

/-- A stream that is opened comes behind those that are open. -/
theorem channel?_opened : (hub.opened path id).channel? other =
    (hub.channel? other).or
      (if other = id then some ⟨id, [.endpoint (target path id)], [], {}⟩ else none) := by
  rw [channel?, opened, List.find?_append]
  by_cases h : other = id
  · subst h
    simp [channel?]
  · have hne : (id == other) = false := beq_false_of_ne (Ne.symm h)
    simp [channel?, h, hne]

theorem channel?_dropped : (hub.dropped id).channel? other =
    if other = id then none else hub.channel? other := by
  rw [channel?, dropped, List.find?_filter]
  split_ifs with h
  · rw [List.find?_eq_none]
    intro ch _
    simp [h]
  · rw [channel?]
    congr 1
    funext ch
    by_cases hc : ch.id = other
    · simp [hc, h]
    · simp [hc]

theorem channel?_map (hf : ∀ ch, (f ch).id = ch.id) :
    channel? (hub.map f) id = (hub.channel? id).map f := by
  have hids : ((fun ch : Channel => ch.id == id) ∘ f) = fun ch => ch.id == id := by
    funext ch
    rw [Function.comp_apply, hf]
  rw [channel?, List.find?_map, hids, channel?]

theorem channel?_update (hf : ∀ ch, (f ch).id = ch.id) : (hub.update id f).channel? other =
    if other = id then (hub.channel? other).map f else hub.channel? other := by
  rw [update, channel?_map (id_ite hf)]
  cases hch : hub.channel? other with
  | none => split_ifs <;> rfl
  | some ch =>
    rw [Option.map_some, id_of_channel? hch]
    split_ifs <;> rfl

/-! ### Posting -/

/-- **What becomes of a message that is posted**: its stream is not open; its session has ended; or
it comes to stand behind the messages that wait for its session. -/
theorem post_cases (hub : Hub) (id : Text) (m : Message) :
    (hub.channel? id = none ∧ hub.post id m = (.unknownSession, hub)) ∨
    (∃ ch, hub.channel? id = some ch ∧ ch.session.phase = .ended ∧
      hub.post id m = (.sessionEnded, hub)) ∨
    ∃ ch, hub.channel? id = some ch ∧ ch.session.phase ≠ .ended ∧
      hub.post id m = (.accepted, hub.update id (Channel.put m)) := by
  unfold post
  cases hch : hub.channel? id with
  | none => exact .inl ⟨rfl, rfl⟩
  | some ch =>
    by_cases hended : ch.session.phase = .ended
    · exact .inr (.inl ⟨ch, rfl, hended, if_pos hended⟩)
    · exact .inr (.inr ⟨ch, rfl, hended, if_neg hended⟩)

end Lookup

end Hub

end MetricsBridge
