import Mathlib.Data.List.Induction
import Mathlib.Data.List.Nodup
import MetricsBridge.Proofs.Session.Hub

/-!
# Sessions over event streams are kept apart

A server of event streams is met with requests, streams that are dropped, and sessions that go on,
in any order.  `StreamServer.next` is one such occurrence and `StreamServer.run` a history of them.
What a history leaves behind follows from what each occurrence does to the streams of an id: a
stream carries what a session of its own sends (`follows_run`), and `sessions_are_kept_apart` says
which streams are open, what each has carried first, which messages wait for its session, and what
becomes of the next message that is posted.
-/
namespace MetricsBridge

/-- What happens to a server of event streams: a request comes in, and a stream that it opens gets
the id `fresh`; a stream is dropped; a session takes the oldest message that waits, or hears the
answer to the request of a call, or all sessions take every message that waits. -/
inductive Occurrence where
  | request (fresh : Text) (r : Inbound)
  | drop (id : Text)
  | take (id : Text)
  | hear (id : Text) (call : RequestId) (a : Answer)
  | work (backend : Backend)

namespace StreamServer

/-! ## Histories -/

/-- The server after an occurrence. -/
def next (server : StreamServer) : Occurrence → StreamServer
  | .request fresh r => (server.handle fresh r).2
  | .drop id => server.drop id
  | .take id => { server with hub := server.hub.update id (Channel.take server.config) }
  | .hear id call a => { server with hub := server.hub.update id fun ch => ch.hear call a }
  | .work backend => (server.work backend).1

/-- The server after a history. -/
def run (server : StreamServer) (os : List Occurrence) : StreamServer :=
  os.foldl next server

/-- The id that an occurrence gives to a stream. -/
def named? (server : StreamServer) : Occurrence → Option Text
  | .request fresh r =>
    match server.action r with
    | .openStream | .openAndDrop => some fresh
    | .refuse _ | .post _ _ => none
  | _ => none

/-- The id of the stream that an occurrence opens and leaves open. -/
def opened? (server : StreamServer) : Occurrence → Option Text
  | .request fresh r =>
    match server.action r with
    | .openStream => some fresh
    | .openAndDrop | .refuse _ | .post _ _ => none
  | _ => none

/-- A history has opened the stream of an id and has not dropped it since. -/
def IsOpen (server : StreamServer) (os : List Occurrence) (id : Text) : Prop :=
  ∃ before o after, os = before ++ o :: after ∧ server.opened? o = some id ∧
    Occurrence.drop id ∉ after

/-- Each occurrence of a history with the server that it meets. -/
def meetings : StreamServer → List Occurrence → List (StreamServer × Occurrence)
  | _, [] => []
  | server, o :: os => (server, o) :: meetings (server.next o) os

/-- The message that an occurrence gets accepted for the session of an id. -/
def acceptedAt (id : Text) : StreamServer × Occurrence → List Message
  | (server, .request fresh r) =>
    match server.action r with
    | .post session m =>
      if session = id ∧ (server.handle fresh r).1 = .accepted then [m] else []
    | _ => []
  | _ => []

/-- The messages that the session of an id takes in an occurrence. -/
def takenAt (id : Text) : StreamServer × Occurrence → List Message
  | (server, .take session) =>
    if session = id then ((server.hub.channel? id).bind fun ch => ch.inbox.head?).toList else []
  | (server, .work _) => ((server.hub.channel? id).map Channel.inbox).getD []
  | _ => []

/-- The messages that a history gets accepted for the session of an id, in order. -/
def accepted (server : StreamServer) (os : List Occurrence) (id : Text) : List Message :=
  (server.meetings os).flatMap (acceptedAt id)

/-- The messages that the session of an id takes in a history, in order. -/
def taken (server : StreamServer) (os : List Occurrence) (id : Text) : List Message :=
  (server.meetings os).flatMap (takenAt id)

section Histories

variable {server : StreamServer} {os : List Occurrence} {o : Occurrence} {id : Text}

theorem run_nil : server.run [] = server := rfl

theorem run_concat : server.run (os ++ [o]) = (server.run os).next o := by
  simp [run, List.foldl_append]

theorem meetings_concat :
    server.meetings (os ++ [o]) = server.meetings os ++ [(server.run os, o)] := by
  induction os generalizing server with
  | nil => rfl
  | cons o' os ih =>
    have hrun : server.run (o' :: os) = (server.next o').run os := rfl
    rw [List.cons_append, meetings, meetings, ih, hrun, List.cons_append]

theorem accepted_concat : server.accepted (os ++ [o]) id =
    server.accepted os id ++ acceptedAt id (server.run os, o) := by
  simp [accepted, meetings_concat, List.flatMap_append]

theorem taken_concat : server.taken (os ++ [o]) id =
    server.taken os id ++ takenAt id (server.run os, o) := by
  simp [taken, meetings_concat, List.flatMap_append]

/-- A stream is open after one more occurrence if it was and is not dropped, or if it is opened. -/
theorem isOpen_concat : server.IsOpen (os ++ [o]) id ↔
    (server.IsOpen os id ∧ o ≠ .drop id) ∨ server.opened? o = some id := by
  constructor
  · rintro ⟨before, o', after, hos, ho, hafter⟩
    rcases List.eq_nil_or_concat after with rfl | ⟨init, last, rfl⟩
    · obtain ⟨rfl, hlast⟩ := List.append_inj' hos rfl
      cases hlast
      exact .inr ho
    · rw [List.concat_eq_append] at hos hafter
      rw [← List.cons_append, ← List.append_assoc] at hos
      obtain ⟨rfl, hlast⟩ := List.append_inj' hos rfl
      cases hlast
      rw [List.mem_append, not_or, List.mem_singleton] at hafter
      exact .inl ⟨⟨before, o', init, rfl, ho, hafter.1⟩, Ne.symm hafter.2⟩
  · rintro (⟨⟨before, o', after, rfl, ho, hafter⟩, hne⟩ | ho)
    · refine ⟨before, o', after ++ [o], by simp, ho, ?_⟩
      rw [List.mem_append, not_or, List.mem_singleton]
      exact ⟨hafter, Ne.symm hne⟩
    · exact ⟨os, o, [], rfl, ho, List.not_mem_nil⟩

end Histories

/-! ## One occurrence -/

section Steps

variable {server : StreamServer} {o : Occurrence} {fresh id : Text} {r : Inbound} {m : Message}

theorem next_of_refuse {s : Status} (h : server.action r = .refuse s) :
    server.next (.request fresh r) = server := by
  simp only [next, handle, h]

theorem next_of_openStream (h : server.action r = .openStream) :
    server.next (.request fresh r) =
      { server with hub := server.hub.opened server.messagePath fresh } := by
  simp only [next, handle, h]

theorem next_of_openAndDrop (h : server.action r = .openAndDrop) :
    server.next (.request fresh r) =
      { server with hub := (server.hub.opened server.messagePath fresh).dropped fresh } := by
  simp only [next, handle, h]

theorem handle_of_post (h : server.action r = .post id m) : server.handle fresh r =
    ((server.hub.post id m).1.status, { server with hub := (server.hub.post id m).2 }) := by
  rw [handle, h]

/-- What becomes of a message that is posted, and of the server. -/
theorem handle_post_cases (fresh : Text) (h : server.action r = .post id m) :
    (server.hub.channel? id = none ∧ server.handle fresh r = (.notFound, server)) ∨
    (∃ ch, server.hub.channel? id = some ch ∧ ch.session.phase = .ended ∧
      server.handle fresh r = (.gone, server)) ∨
    ∃ ch, server.hub.channel? id = some ch ∧ ch.session.phase ≠ .ended ∧
      server.handle fresh r =
        (.accepted, { server with hub := server.hub.update id (Channel.put m) }) := by
  rw [handle_of_post h]
  rcases server.hub.post_cases id m with ⟨hch, hp⟩ | ⟨ch, hch, hended, hp⟩ | ⟨ch, hch, hended, hp⟩
  · exact .inl ⟨hch, by rw [hp]; rfl⟩
  · exact .inr (.inl ⟨ch, hch, hended, by rw [hp]; rfl⟩)
  · exact .inr (.inr ⟨ch, hch, hended, by rw [hp]; rfl⟩)

/-- An occurrence changes nothing but the streams. -/
theorem next_eq (server : StreamServer) (o : Occurrence) :
    ∃ hub, server.next o = { server with hub } := by
  cases o with
  | request fresh r =>
    cases h : server.action r with
    | refuse s => exact ⟨_, next_of_refuse h⟩
    | openStream => exact ⟨_, next_of_openStream h⟩
    | openAndDrop => exact ⟨_, next_of_openAndDrop h⟩
    | post id m => exact ⟨_, congrArg Prod.snd (handle_of_post h)⟩
  | drop id | take id | hear id call a | work backend => exact ⟨_, rfl⟩

theorem ids_next_of_post (h : server.action r = .post id m) :
    (server.next (.request fresh r)).hub.ids = server.hub.ids := by
  rw [next]
  rcases handle_post_cases fresh h with ⟨-, hp⟩ | ⟨ch, -, -, hp⟩ | ⟨ch, -, -, hp⟩
  · rw [hp]
  · rw [hp]
  · rw [hp]
    exact Hub.ids_update fun ch => rfl

theorem ids_next_take : (server.next (.take id)).hub.ids = server.hub.ids :=
  Hub.ids_update fun ch => (ch.follows_take server.config).id

theorem ids_next_hear {call : RequestId} {a : Answer} :
    (server.next (.hear id call a)).hub.ids = server.hub.ids :=
  Hub.ids_update fun ch => (ch.follows_hear server.config call a).id

theorem hub_work (server : StreamServer) (backend : Backend) : (server.work backend).1.hub =
    server.hub.map fun ch => (ch.work server.config backend).1 := by
  simp [work, List.map_map, Function.comp_def]

theorem id_work {backend : Backend} (ch : Channel) :
    (ch.work server.config backend).1.id = ch.id :=
  (ch.follows_takeAll server.config backend ch.inbox).id

theorem ids_next_work {backend : Backend} :
    (server.next (.work backend)).hub.ids = server.hub.ids := by
  rw [next, hub_work, Hub.ids_map id_work]

/-- **What an occurrence does to the ids.**  The open streams are those that were and are not
dropped, and the one that is opened, if its id is new. -/
theorem mem_ids_next (hnew : ∀ fresh, server.named? o = some fresh → fresh ∉ server.hub.ids) :
    id ∈ (server.next o).hub.ids ↔
      (id ∈ server.hub.ids ∧ o ≠ .drop id) ∨ server.opened? o = some id := by
  cases o with
  | request fresh r =>
    cases h : server.action r with
    | refuse s => simp [next_of_refuse h, opened?, h]
    | openStream => simp [next_of_openStream h, opened?, h, eq_comm]
    | openAndDrop =>
      have hfresh : fresh ∉ server.hub.ids := hnew fresh (by simp [named?, h])
      have hmem : id ∈ server.hub.ids → id ≠ fresh := fun hid he => hfresh (he ▸ hid)
      simp only [next_of_openAndDrop h, Hub.ids_dropped, Hub.ids_opened, List.mem_filter,
        List.mem_append, List.mem_singleton, bne_iff_ne, opened?, h]
      tauto
    | post session m => simp [ids_next_of_post h, opened?, h]
  | drop other =>
    simp only [next, drop, Hub.ids_dropped, List.mem_filter, bne_iff_ne, opened?, ne_eq,
      Occurrence.drop.injEq, reduceCtorEq, or_false]
    exact and_congr_right fun _ => not_congr eq_comm
  | take session => simp [ids_next_take, opened?]
  | hear session call a => simp [ids_next_hear, opened?]
  | work backend => simp [ids_next_work, opened?]

theorem nodup_ids_next (hnew : ∀ fresh, server.named? o = some fresh → fresh ∉ server.hub.ids)
    (h : server.hub.ids.Nodup) : (server.next o).hub.ids.Nodup := by
  have happend : ∀ fresh, fresh ∉ server.hub.ids → (server.hub.ids ++ [fresh]).Nodup :=
    fun fresh hfresh => by rw [List.nodup_append_comm]; exact List.nodup_cons.mpr ⟨hfresh, h⟩
  cases o with
  | request fresh r =>
    cases ha : server.action r with
    | refuse s => rwa [next_of_refuse ha]
    | openStream =>
      rw [next_of_openStream ha, Hub.ids_opened]
      exact happend fresh (hnew fresh (by simp [named?, ha]))
    | openAndDrop =>
      rw [next_of_openAndDrop ha, Hub.ids_dropped, Hub.ids_opened]
      exact (happend fresh (hnew fresh (by simp [named?, ha]))).filter _
    | post session m => rwa [ids_next_of_post ha]
  | drop other =>
    rw [next, drop, Hub.ids_dropped]
    exact h.filter _
  | take session => rwa [ids_next_take]
  | hear session call a => rwa [ids_next_hear]
  | work backend => rwa [ids_next_work]

/-- Nothing is accepted for a session whose stream is not open, and it takes nothing. -/
theorem nothing_at (h : server.hub.channel? id = none) :
    acceptedAt id (server, o) = [] ∧ takenAt id (server, o) = [] := by
  cases o with
  | request fresh r =>
    refine ⟨?_, rfl⟩
    cases ha : server.action r with
    | post session m =>
      simp only [acceptedAt, ha]
      rw [if_neg]
      rintro ⟨rfl, haccepted⟩
      rcases handle_post_cases fresh ha with ⟨-, hp⟩ | ⟨ch, hch, -⟩ | ⟨ch, hch, -⟩
      · rw [hp] at haccepted
        cases haccepted
      · rw [h] at hch
        cases hch
      · rw [h] at hch
        cases hch
    | refuse s | openStream | openAndDrop => simp only [acceptedAt, ha]
  | drop other | hear session call a => exact ⟨rfl, rfl⟩
  | take session => simp [acceptedAt, takenAt, h]
  | work backend => simp [acceptedAt, takenAt, h]

/-- A stream goes on: the messages `accepted` have come to stand behind those that wait for its
session, and the session has taken the messages `taken` from those in front. -/
structure Develops (c : Config) (ch ch' : Channel) (accepted taken : List Message) : Prop where
  follows : ch.Follows c ch' taken
  inbox : ch.inbox ++ accepted = taken ++ ch'.inbox

section Develops

variable (c : Config) (ch : Channel)

theorem Develops.refl : Develops c ch ch [] [] :=
  ⟨.refl ch, List.append_nil _⟩

theorem develops_put (m : Message) : Develops c ch (ch.put m) [m] [] :=
  ⟨ch.follows_put c m, rfl⟩

theorem develops_take : Develops c ch (ch.take c) [] ch.inbox.head?.toList := by
  refine ⟨ch.follows_take c, ?_⟩
  rw [ch.inbox_take c, List.append_nil]
  cases ch.inbox <;> rfl

theorem develops_hear (call : RequestId) (a : Answer) : Develops c ch (ch.hear call a) [] [] :=
  ⟨ch.follows_hear c call a, List.append_nil _⟩

theorem develops_work (backend : Backend) : Develops c ch (ch.work c backend).1 [] ch.inbox := by
  refine ⟨ch.follows_takeAll c backend ch.inbox, ?_⟩
  rw [Channel.work, ch.inbox_takeAll]

end Develops

/-- **What an occurrence does to a stream** that is open afterwards: it was open before and has gone
on, or it has been opened. -/
theorem channel?_next {ch' : Channel} (h : (server.next o).hub.channel? id = some ch') :
    (∃ ch, server.hub.channel? id = some ch ∧
      Develops server.config ch ch' (acceptedAt id (server, o)) (takenAt id (server, o))) ∨
    (server.hub.channel? id = none ∧ server.named? o = some id ∧
      ch' = ⟨id, [.endpoint (Hub.target server.messagePath id)], [], {}⟩) := by
  cases o with
  | request fresh r =>
    have htaken : takenAt id (server, .request fresh r) = [] := rfl
    rw [htaken]
    cases ha : server.action r with
    | refuse s =>
      rw [next_of_refuse ha] at h
      simp only [acceptedAt, ha]
      exact .inl ⟨ch', h, .refl _ ch'⟩
    | openStream =>
      rw [next_of_openStream ha, Hub.channel?_opened] at h
      simp only [acceptedAt, ha]
      cases hch : server.hub.channel? id with
      | some ch =>
        rw [hch] at h
        cases h
        exact .inl ⟨_, rfl, .refl _ _⟩
      | none =>
        rw [hch, Option.none_or] at h
        split_ifs at h with hid
        cases h
        exact .inr ⟨rfl, by rw [named?, ha, hid], by rw [hid]⟩
    | openAndDrop =>
      rw [next_of_openAndDrop ha, Hub.channel?_dropped, Hub.channel?_opened] at h
      simp only [acceptedAt, ha]
      split_ifs at h
      rw [Option.or_none] at h
      exact .inl ⟨ch', h, .refl _ ch'⟩
    | post session m =>
      rw [next] at h
      simp only [acceptedAt, ha]
      rcases handle_post_cases fresh ha with ⟨-, hp⟩ | ⟨-, -, -, hp⟩ | ⟨-, -, -, hp⟩
      · rw [hp] at h ⊢
        exact .inl ⟨ch', h, by simpa using Develops.refl server.config ch'⟩
      · rw [hp] at h ⊢
        exact .inl ⟨ch', h, by simpa using Develops.refl server.config ch'⟩
      · have hid : ∀ ch, (Channel.put m ch).id = ch.id := fun ch => rfl
        rw [hp, Hub.channel?_update hid] at h
        rw [hp]
        split_ifs at h with hid
        · obtain ⟨ch, hch, rfl⟩ := Option.map_eq_some_iff.mp h
          exact .inl ⟨ch, hch, by simpa [hid] using develops_put server.config ch m⟩
        · exact .inl ⟨ch', h, by simpa [Ne.symm hid] using Develops.refl server.config ch'⟩
  | drop other =>
    rw [next, drop, Hub.channel?_dropped] at h
    split_ifs at h
    exact .inl ⟨ch', h, .refl _ ch'⟩
  | take session =>
    rw [next, Hub.channel?_update fun ch => (ch.follows_take server.config).id] at h
    split_ifs at h with hid
    · obtain ⟨ch, hch, rfl⟩ := Option.map_eq_some_iff.mp h
      refine .inl ⟨ch, hch, ?_⟩
      simpa [acceptedAt, takenAt, hid, hid ▸ hch] using develops_take server.config ch
    · refine .inl ⟨ch', h, ?_⟩
      simpa [acceptedAt, takenAt, Ne.symm hid] using Develops.refl server.config ch'
  | hear session call a =>
    rw [next, Hub.channel?_update fun ch => (ch.follows_hear server.config call a).id] at h
    split_ifs at h
    · obtain ⟨ch, hch, rfl⟩ := Option.map_eq_some_iff.mp h
      exact .inl ⟨ch, hch, develops_hear server.config ch call a⟩
    · exact .inl ⟨ch', h, .refl _ ch'⟩
  | work backend =>
    rw [next, hub_work, Hub.channel?_map id_work] at h
    obtain ⟨ch, hch, rfl⟩ := Option.map_eq_some_iff.mp h
    refine .inl ⟨ch, hch, ?_⟩
    simpa [acceptedAt, takenAt, hch] using develops_work server.config ch backend

end Steps

/-! ## Histories with fresh ids -/

/-- No id is given twice. -/
def HasFreshIds (server : StreamServer) (os : List Occurrence) : Prop :=
  (os.filterMap server.named?).Nodup

section Runs

variable {server : StreamServer} {os : List Occurrence} {o : Occurrence} {id : Text}

/-- A history changes nothing but the streams. -/
theorem run_eq (server : StreamServer) (os : List Occurrence) :
    ∃ hub, server.run os = { server with hub } := by
  induction os using List.reverseRecOn with
  | nil => exact ⟨_, rfl⟩
  | append_singleton os o ih =>
    obtain ⟨hub, hrun⟩ := ih
    obtain ⟨hub', hnext⟩ := next_eq (server.run os) o
    exact ⟨hub', by rw [run_concat, hnext, hrun]⟩

theorem action_run : (server.run os).action = server.action := by
  obtain ⟨hub, hrun⟩ := run_eq server os
  rw [hrun]
  rfl

theorem messagePath_run : (server.run os).messagePath = server.messagePath := by
  obtain ⟨hub, hrun⟩ := run_eq server os
  rw [hrun]

theorem config_run : (server.run os).config = server.config := by
  obtain ⟨hub, hrun⟩ := run_eq server os
  rw [hrun]

theorem named?_run : (server.run os).named? o = server.named? o := by
  cases o with
  | request fresh r => rw [named?, named?, action_run]
  | drop id | take id | hear id call a | work backend => rfl

theorem opened?_run : (server.run os).opened? o = server.opened? o := by
  cases o with
  | request fresh r => rw [opened?, opened?, action_run]
  | drop id | take id | hear id call a | work backend => rfl

theorem named?_of_opened? (h : server.opened? o = some id) : server.named? o = some id := by
  cases o with
  | request fresh r =>
    rw [opened?] at h
    rw [named?]
    split at h
    · exact h
    all_goals cases h
  | drop id | take id | hear id call a | work backend => cases h

/-- An open stream has been given its id. -/
theorem mem_named_of_isOpen (h : server.IsOpen os id) : id ∈ os.filterMap server.named? := by
  obtain ⟨before, o, after, rfl, ho, -⟩ := h
  refine List.mem_filterMap.mpr ⟨o, ?_, named?_of_opened? ho⟩
  exact List.mem_append_right _ List.mem_cons_self

theorem HasFreshIds.of_concat (h : server.HasFreshIds (os ++ [o])) :
    server.HasFreshIds os ∧
      ∀ fresh, server.named? o = some fresh → fresh ∉ os.filterMap server.named? := by
  rw [HasFreshIds, List.filterMap_append, List.nodup_append'] at h
  obtain ⟨hos, -, hdisjoint⟩ := h
  refine ⟨hos, fun fresh ho hmem => hdisjoint hmem ?_⟩
  exact List.mem_filterMap.mpr ⟨o, List.mem_singleton_self o, ho⟩

variable (hempty : server.hub = [])

include hempty

/-- **The open streams** are those that have been opened and not dropped since. -/
theorem mem_ids_run (hfresh : server.HasFreshIds os) :
    id ∈ (server.run os).hub.ids ↔ server.IsOpen os id := by
  induction os using List.reverseRecOn generalizing id with
  | nil =>
    rw [run_nil, hempty]
    refine iff_of_false List.not_mem_nil ?_
    rintro ⟨before, o, after, hos, -⟩
    cases before <;> cases hos
  | append_singleton os o ih =>
    obtain ⟨hos, ho⟩ := hfresh.of_concat
    rw [run_concat, mem_ids_next, ih hos, opened?_run, isOpen_concat]
    intro fresh hnamed hmem
    rw [named?_run] at hnamed
    exact ho fresh hnamed (mem_named_of_isOpen ((ih hos).mp hmem))

/-- A new id is not that of an open stream. -/
theorem notMem_ids_run (hfresh : server.HasFreshIds (os ++ [o])) :
    ∀ fresh, (server.run os).named? o = some fresh → fresh ∉ (server.run os).hub.ids := by
  obtain ⟨hos, ho⟩ := hfresh.of_concat
  intro fresh hnamed hmem
  rw [named?_run] at hnamed
  exact ho fresh hnamed (mem_named_of_isOpen ((mem_ids_run hempty hos).mp hmem))

theorem nodup_ids_run (hfresh : server.HasFreshIds os) : (server.run os).hub.ids.Nodup := by
  induction os using List.reverseRecOn with
  | nil =>
    rw [run_nil, hempty]
    exact List.nodup_nil
  | append_singleton os o ih =>
    rw [run_concat]
    exact nodup_ids_next (notMem_ids_run hempty hfresh) (ih hfresh.of_concat.1)

/-- Before an id is given, nothing has been accepted for its session, and nothing taken. -/
theorem nothing_before (hfresh : server.HasFreshIds os) (h : id ∉ os.filterMap server.named?) :
    server.accepted os id = [] ∧ server.taken os id = [] := by
  induction os using List.reverseRecOn with
  | nil => exact ⟨rfl, rfl⟩
  | append_singleton os o ih =>
    rw [List.filterMap_append, List.mem_append, not_or] at h
    obtain ⟨hos, -⟩ := hfresh.of_concat
    obtain ⟨haccepted, htaken⟩ := ih hos h.1
    have hnone : (server.run os).hub.channel? id = none := by
      rw [Hub.channel?_eq_none, mem_ids_run hempty hos]
      exact fun hopen => h.1 (mem_named_of_isOpen hopen)
    obtain ⟨hat, htakes⟩ := nothing_at (o := o) hnone
    rw [accepted_concat, taken_concat, haccepted, htaken, hat, htakes]
    exact ⟨rfl, rfl⟩

/-- **The messages that wait** for a session are those that have been accepted for it and that it
has not taken, in order. -/
theorem accepted_run (hfresh : server.HasFreshIds os) {ch : Channel}
    (h : (server.run os).hub.channel? id = some ch) :
    server.accepted os id = server.taken os id ++ ch.inbox := by
  induction os using List.reverseRecOn generalizing ch with
  | nil =>
    rw [run_nil, hempty] at h
    cases h
  | append_singleton os o ih =>
    obtain ⟨hos, ho⟩ := hfresh.of_concat
    rw [run_concat] at h
    rw [accepted_concat, taken_concat]
    rcases channel?_next h with ⟨old, hold, hdev⟩ | ⟨hnone, hnamed, rfl⟩
    · calc server.accepted os id ++ acceptedAt id (server.run os, o)
          = server.taken os id ++ (old.inbox ++ acceptedAt id (server.run os, o)) := by
            rw [ih hos hold, List.append_assoc]
        _ = server.taken os id ++ (takenAt id (server.run os, o) ++ ch.inbox) := by rw [hdev.inbox]
        _ = (server.taken os id ++ takenAt id (server.run os, o)) ++ ch.inbox := by
            rw [List.append_assoc]
    · rw [named?_run] at hnamed
      obtain ⟨haccepted, htaken⟩ := nothing_before hempty hos (ho id hnamed)
      obtain ⟨hat, htakes⟩ := nothing_at (o := o) hnone
      rw [haccepted, htaken, hat, htakes]
      rfl

/-- **A stream carries what its session sends**: first where to post, and then the responses of a
session that starts afresh and receives the messages that have been taken. -/
theorem follows_run (hfresh : server.HasFreshIds os) {ch : Channel}
    (h : (server.run os).hub.channel? id = some ch) :
    (⟨id, [.endpoint (Hub.target server.messagePath id)], [], {}⟩ : Channel).Follows server.config
      ch (server.taken os id) := by
  induction os using List.reverseRecOn generalizing ch with
  | nil =>
    rw [run_nil, hempty] at h
    cases h
  | append_singleton os o ih =>
    obtain ⟨hos, ho⟩ := hfresh.of_concat
    rw [run_concat] at h
    rw [taken_concat]
    rcases channel?_next h with ⟨old, hold, hdev⟩ | ⟨hnone, hnamed, rfl⟩
    · rw [config_run] at hdev
      exact (ih hos hold).trans hdev.follows
    · rw [named?_run] at hnamed
      obtain ⟨-, htaken⟩ := nothing_before hempty hos (ho id hnamed)
      obtain ⟨-, htakes⟩ := nothing_at (o := o) hnone
      rw [htaken, htakes, messagePath_run]
      exact .refl _

theorem events_run (hfresh : server.HasFreshIds os) {ch : Channel}
    (h : (server.run os).hub.channel? id = some ch) :
    ∃ rs : List Response,
      ch.events = .endpoint (Hub.target server.messagePath id) :: rs.map .message := by
  obtain ⟨es, -, -, hevents⟩ := (follows_run hempty hfresh h).session
  exact ⟨_, hevents⟩

end Runs

/-! ## Main statement -/

/-- **Sessions are kept apart**, whatever has happened to a server that had no streams, as long as
no id is given twice.  The open streams are those that have been opened and not dropped since, each
once.  A stream carries first where to post the messages of its session, and then responses only.
The messages that wait for a session are those accepted for it that it has not taken, in order.  A
message for a stream that is not open is not found and changes nothing; one for a session that has
ended is gone and changes nothing; any other is accepted, stands behind those that wait for its
session, and leaves every other stream as it was. -/
theorem sessions_are_kept_apart (server : StreamServer) (hempty : server.hub = [])
    (os : List Occurrence) (hfresh : server.HasFreshIds os) :
    ((server.run os).hub.ids.Nodup ∧
      ∀ id, id ∈ (server.run os).hub.ids ↔ server.IsOpen os id) ∧
    (∀ id ch, (server.run os).hub.channel? id = some ch →
      (∃ rs : List Response,
        ch.events = .endpoint (Hub.target server.messagePath id) :: rs.map .message) ∧
      server.accepted os id = server.taken os id ++ ch.inbox) ∧
    ∀ fresh r id m, server.action r = .post id m →
      (¬ server.IsOpen os id → (server.run os).handle fresh r = (.notFound, server.run os)) ∧
      ∀ ch, (server.run os).hub.channel? id = some ch →
        (ch.session.phase = .ended →
          (server.run os).handle fresh r = (.gone, server.run os)) ∧
        (ch.session.phase ≠ .ended → ∃ hub,
          (server.run os).handle fresh r = (.accepted, { server.run os with hub }) ∧
          hub.channel? id = some { ch with inbox := ch.inbox ++ [m] } ∧
          ∀ other, other ≠ id → hub.channel? other = (server.run os).hub.channel? other) := by
  refine ⟨⟨nodup_ids_run hempty hfresh, fun id => mem_ids_run hempty hfresh⟩,
    fun id ch hch => ⟨events_run hempty hfresh hch, accepted_run hempty hfresh hch⟩,
    fun fresh r id m hr => ?_⟩
  have hopen : ∀ ch, (server.run os).hub.channel? id = some ch → server.IsOpen os id :=
    fun ch hch => (mem_ids_run hempty hfresh).mp (Hub.exists_channel?_iff.mp ⟨ch, hch⟩)
  have hput : ∀ ch, (Channel.put m ch).id = ch.id := fun ch => rfl
  have haction : (server.run os).action = server.action := action_run
  rw [← haction] at hr
  rcases handle_post_cases fresh hr with ⟨hnone, hp⟩ | ⟨ch, hch, hended, hp⟩ | ⟨ch, hch, hgoes, hp⟩
  · refine ⟨fun _ => hp, fun ch hch => ?_⟩
    rw [hnone] at hch
    cases hch
  · refine ⟨fun hclosed => absurd (hopen ch hch) hclosed, fun ch' hch' => ?_⟩
    obtain rfl := Option.some.inj (hch.symm.trans hch')
    exact ⟨fun _ => hp, fun hgoes => absurd hended hgoes⟩
  · refine ⟨fun hclosed => absurd (hopen ch hch) hclosed, fun ch' hch' => ?_⟩
    obtain rfl := Option.some.inj (hch.symm.trans hch')
    refine ⟨fun hended => absurd hended hgoes, fun _ => ⟨_, hp, ?_, fun other hother => ?_⟩⟩
    · rw [Hub.channel?_update hput, if_pos rfl, hch]
      rfl
    · rw [Hub.channel?_update hput, if_neg hother]

end StreamServer

/-- A request that opens a stream. -/
def openingRequest : Inbound :=
  .ofTarget "GET".toList "/sse".toList [] []

/-- A request that posts the notice that a client is ready. -/
def readyRequest (id : String) : Inbound :=
  .ofTarget "POST".toList ("/message?sessionId=" ++ id).toList
    [("content-type".toList, "application/json".toList)]
    "\x7b\"jsonrpc\":\"2.0\",\"method\":\"notifications/initialized\"\x7d".toList

/-- A message that satisfies `p` is posted to a session. -/
def StreamAction.posts (id : Text) (p : Message → Bool) : StreamAction → Bool
  | .post session m => session == id && p m
  | _ => false

theorem eq_post_of_posts {id : Text} {p : Message → Bool} {a : StreamAction}
    (h : a.posts id p = true) : ∃ m, a = .post id m ∧ p m = true := by
  unfold StreamAction.posts at h
  split at h
  · obtain ⟨hid, hp⟩ := Bool.and_eq_true_iff.mp h
    exact ⟨_, by rw [beq_iff_eq.mp hid], hp⟩
  · cases h

/-- The message is the notice that the client is ready. -/
def Message.isReady : Message → Bool
  | .notice .ready => true
  | _ => false

theorem eq_of_isReady {m : Message} (h : m.isReady = true) : m = .notice .ready := by
  unfold Message.isReady at h
  split at h
  · rfl
  · cases h

/-- Two streams are opened, a message is posted for each, and one is dropped. -/
def twoStreams : List Occurrence :=
  [.request "a".toList openingRequest, .request "b".toList openingRequest,
   .request [] (readyRequest "a"), .request [] (readyRequest "b"), .drop "b".toList]

/-- Of the two streams one is left: a message for the other is not found, and one for it is accepted
and stands behind the one that waits. -/
theorem sessions_are_kept_apart_of_two :
    let server := StreamServer.start {} "sse".toList "/message/".toList
    (server.run twoStreams).handle [] (readyRequest "b") = (.notFound, server.run twoStreams) ∧
    ∃ ch hub, (server.run twoStreams).hub.channel? "a".toList = some ch ∧ ch.inbox.length = 1 ∧
      (server.run twoStreams).handle [] (readyRequest "a") =
        (.accepted, { server.run twoStreams with hub }) ∧
      hub.channel? "a".toList = some { ch with inbox := ch.inbox ++ [.notice .ready] } := by
  intro server
  have hfresh : server.HasFreshIds twoStreams := by
    unfold StreamServer.HasFreshIds
    decide +kernel
  have ha : (server.action (readyRequest "a")).posts "a".toList Message.isReady = true := by
    decide +kernel
  have hb : (server.action (readyRequest "b")).posts "b".toList Message.isReady = true := by
    decide +kernel
  have hids : (server.run twoStreams).hub.ids = ["a".toList] := by decide +kernel
  have hch : ((server.run twoStreams).hub.channel? "a".toList).map
      (fun ch => (ch.inbox.length, ch.session.phase)) = some (1, .fresh) := by decide +kernel
  obtain ⟨ma, hpa, hma⟩ := eq_post_of_posts ha
  obtain ⟨mb, hpb, -⟩ := eq_post_of_posts hb
  rw [eq_of_isReady hma] at hpa
  obtain ⟨⟨-, hopen⟩, -, hpost⟩ :=
    StreamServer.sessions_are_kept_apart server rfl twoStreams hfresh
  constructor
  · refine (hpost [] _ _ _ hpb).1 ?_
    rw [← hopen, hids]
    decide
  · obtain ⟨ch, hfound, hstate⟩ := Option.map_eq_some_iff.mp hch
    obtain ⟨hlength, hphase⟩ := Prod.mk.inj hstate
    have hgoes : ch.session.phase ≠ .ended := by
      rw [hphase]
      decide
    obtain ⟨hub, hp, hbehind, -⟩ :=
      ((hpost [] _ _ _ hpa).2 ch hfound).2 hgoes
    exact ⟨ch, hub, hfound, hlength, hp, hbehind⟩

end MetricsBridge
