import MetricsBridge.Proofs.Session.Streams
import MetricsBridge.Session.Streamable

/-!
# The same tools over every transport

A call of a tool and the list of the tools are answered alike whether they come as a line, are
posted for an event stream, or are posted on their own.  `ToolDemand.answer` says what the answer is
by `dispatch` and the offered tools alone, without any session, and `isShownBy_of_mem` what the
client sees of it as JSON; `transports_serve_the_same_tools` says that every transport gives this
answer, whatever has happened to the session before.  That the sessions of the two servers are
sessions like any other is `StreamServer.isInitialised_run` and `PostServer.isInitialised_run`.
-/
namespace MetricsBridge

open Session

/-- What a client asks of the tools. -/
inductive ToolDemand where
  | call (name : Text) (args : Table Json)
  | list

namespace ToolDemand

/-- The demand as a request has it. -/
def demand : ToolDemand → Demand
  | .call name args => .callTool name args
  | .list => .listTools

/-- What the metrics server is asked, and what is answered under an id; nothing is answered to a
call whose answer stays out. -/
def answer (c : Config) (backend : Backend) (id : RequestId) :
    ToolDemand → List Exchange × List Response
  | .call name args =>
    let o := (dispatch c name args).run backend
    (o.exchanges, o.result.toList.map fun r => ⟨id, .ok (.called r)⟩)
  | .list => ([], [⟨id, .ok (.tools c.enabledTools)⟩])

end ToolDemand

/-! ## Answers as JSON -/

/-- The result of a tool as JSON: one text, and whether it is an error. -/
structure ToolResult.IsShownBy (r : ToolResult) (j : Json) : Prop where
  content : ∃ part, j.get? "content".toList = some (.array [part]) ∧
    part.get? "type".toList = some (.text "text".toList) ∧
    part.get? "text".toList = some (.text r.text)
  isError : j.get? "isError".toList = some (.bool r.isError)

/-- A tool as JSON: its name, what it does, and the schema of its arguments. -/
structure Tool.IsShownBy (t : Tool) (j : Json) : Prop where
  name : j.get? "name".toList = some (.text t.name)
  description : j.get? "description".toList = some (.text t.description)
  inputSchema : j.get? "inputSchema".toList = some t.inputSchema

/-- What a demand brings, as JSON: the result that `dispatch` gives, or the offered tools in their
order. -/
def ToolDemand.IsShownBy (c : Config) (backend : Backend) (d : ToolDemand) (j : Json) : Prop :=
  match d with
  | .call name args =>
    ∃ r : ToolResult, ((dispatch c name args).run backend).result = some r ∧ r.IsShownBy j
  | .list =>
    ∃ shown, j.get? "tools".toList = some (.array shown) ∧
      List.Forall₂ Tool.IsShownBy c.enabledTools shown

theorem ToolResult.isShownBy_toJson (r : ToolResult) : r.IsShownBy r.toJson :=
  ⟨⟨_, rfl, rfl, rfl⟩, rfl⟩

theorem Tool.isShownBy_describe (t : Tool) : t.IsShownBy t.describe :=
  ⟨rfl, rfl, rfl⟩

/-- A response with a result has its id and this result, and no error. -/
theorem toJson_of_result (id : RequestId) (result : Result) :
    (⟨id, .ok result⟩ : Response).toJson.get? "id".toList = some id.toJson ∧
    (⟨id, .ok result⟩ : Response).toJson.get? "result".toList = some result.toJson ∧
    (⟨id, .ok result⟩ : Response).toJson.get? "error".toList = none :=
  ⟨rfl, rfl, rfl⟩

/-- **What is answered to a demand** is a result, whose JSON shows what the demand brings. -/
theorem isShownBy_of_mem {c : Config} {backend : Backend} {id : RequestId} {d : ToolDemand}
    {response : Response} (h : response ∈ (d.answer c backend id).2) :
    ∃ result, response = ⟨id, .ok result⟩ ∧ d.IsShownBy c backend result.toJson := by
  cases d with
  | call name args =>
    obtain ⟨r, hr, rfl⟩ := List.mem_map.mp h
    exact ⟨.called r, rfl, r, Option.mem_toList.mp hr, r.isShownBy_toJson⟩
  | list =>
    have hshown : List.Forall₂ Tool.IsShownBy c.enabledTools (c.enabledTools.map Tool.describe) :=
      List.forall₂_map_right_iff.mpr (List.forall₂_same.mpr fun t _ => t.isShownBy_describe)
    exact ⟨.tools c.enabledTools, List.mem_singleton.mp h, _, rfl, hshown⟩

/-! ## Sessions -/

section Sessions

variable {c : Config} {s : Session} {id : RequestId} (d : ToolDemand)

/-- **What a session does with a demand**: it responds at once, or it sends a request and waits for
the answer to it; and so does the demand on its own. -/
theorem attend_demand (c : Config) (s : Session) (id : RequestId) :
    (∃ result, s.attend c id d.demand = (s, [.response ⟨id, .ok result⟩]) ∧
      ∀ backend, d.answer c backend id = ([], [⟨id, .ok result⟩])) ∨
    ∃ (name : Text) (r : Request) (f : Answer → ToolResult), s.attend c id d.demand =
      ({ s with pending := ⟨id, name, r, fun a => .done (f a)⟩ :: s.pending }, [.request id r]) ∧
      ∀ backend, d.answer c backend id =
        ([⟨r, backend [r]⟩], (backend [r]).toList.map fun a => ⟨id, .ok (.called (f a))⟩) := by
  cases d with
  | list => exact .inl ⟨_, rfl, fun _ => rfl⟩
  | call name args =>
    rw [ToolDemand.demand, attend]
    rcases isShort_dispatch c name args with ⟨result, hd⟩ | ⟨r, f, hd⟩
    · refine .inl ⟨.called result, by rw [hd]; rfl, fun backend => ?_⟩
      rw [ToolDemand.answer, hd]
      rfl
    · refine .inr ⟨name, r, f, by rw [hd]; rfl, fun backend => ?_⟩
      rw [ToolDemand.answer, hd, Plan.run_send_done]
      cases backend [r] <;> rfl

/-- A demand that is delivered to a session that is ready is answered. -/
theorem deliver_demand (h : s.phase = .ready) (backend : Backend) :
    (s.deliver c backend (.request id d.demand)).2 = d.answer c backend id := by
  have hr := receive_request (c := c) h id d.demand
  rcases attend_demand d c s id with ⟨result, hd, ha⟩ | ⟨name, r, f, hd, ha⟩
  · rw [hd] at hr
    have hnone : asking? (s.receive c (.request id d.demand)).2 = none := by rw [hr]; rfl
    rw [deliver_of_not_asking hnone, hr, ha]
    rfl
  · rw [hd] at hr
    have hsome : asking? (s.receive c (.request id d.demand)).2 = some id := by rw [hr]; rfl
    rw [deliver_of_asking hsome, hr, ha]
    rcases settle_of_find? (find?_cons_pending _) backend with ⟨hb, hset⟩ | ⟨a, hb, hset⟩
    · rw [hset, hb]
      rfl
    · rw [hset, hb]
      rfl

/-- A demand is answered at once, or the answer to the request that it leads to is heard later, when
other things have happened to the session. -/
theorem hear_demand (h : s.phase = .ready) {es : List SessionEvent} (hes : ∀ e ∈ es, e.Spares id)
    (backend : Backend) :
    ((s.receive c (.request id d.demand)).2 = (d.answer c backend id).2.map .response ∧
      (d.answer c backend id).1 = []) ∨
    ∃ r, (s.receive c (.request id d.demand)).2 = [.request id r] ∧
      (d.answer c backend id).1 = [⟨r, backend [r]⟩] ∧
      (d.answer c backend id).2 = (backend [r]).toList.flatMap fun a =>
        responses ((((s.receive c (.request id d.demand)).1.follow c es).1).hear id a).2 := by
  have hr := receive_request (c := c) h id d.demand
  rcases attend_demand d c s id with ⟨result, hd, ha⟩ | ⟨name, r, f, hd, ha⟩
  · left
    rw [hr, hd, ha]
    exact ⟨rfl, rfl⟩
  · right
    rw [hd] at hr
    have hwaits : (s.receive c (.request id d.demand)).1.find? id =
        some ⟨id, name, r, fun a => .done (f a)⟩ := by
      rw [hr]
      exact find?_cons_pending _
    have hready : (s.receive c (.request id d.demand)).1.phase = .ready := phase_step h (.receive _)
    rw [← find?_follow hready hes] at hwaits
    refine ⟨r, by rw [hr], by rw [ha], ?_⟩
    rw [ha]
    cases backend [r] with
    | none => rfl
    | some a =>
      rw [Option.toList_some, List.flatMap_singleton, hear_of_find? hwaits]
      rfl

end Sessions

/-! ## Over event streams -/

namespace Channel

variable (c : Config) (backend : Backend) (ch : Channel) (m : Message)

/-- What a session takes does not depend on what waits. -/
theorem takeAll_put (ms : List Message) :
    takeAll c backend (ch.put m) ms = takeAll c backend ch ms := by
  induction ms generalizing ch with
  | nil => rfl
  | cons first rest ih =>
    have hput : (ch.put m).deliver c backend first =
      ((ch.deliver c backend first).1.put m, (ch.deliver c backend first).2) := rfl
    rw [takeAll_cons, takeAll_cons, hput, ih]

/-- The last message is taken by the session as the others have left it. -/
theorem takeAll_concat (ms : List Message) : takeAll c backend ch (ms ++ [m]) =
    (((takeAll c backend ch ms).1.deliver c backend m).1,
      (takeAll c backend ch ms).2 ++ ((takeAll c backend ch ms).1.deliver c backend m).2) := by
  induction ms generalizing ch with
  | nil => rw [List.nil_append, takeAll_cons, takeAll, List.append_nil]; rfl
  | cons first rest ih => rw [List.cons_append, takeAll_cons, takeAll_cons, ih, List.append_assoc]

/-- A message that is posted is the last that the session takes. -/
theorem work_put : (ch.put m).work c backend =
    (((ch.work c backend).1.deliver c backend m).1,
      (ch.work c backend).2 ++ ((ch.work c backend).1.deliver c backend m).2) := by
  have hinbox : (ch.put m).inbox = ch.inbox ++ [m] := rfl
  rw [work, hinbox, takeAll_put, takeAll_concat, work]

/-- A session that has ended is not ready, whatever it takes. -/
theorem phase_of_work (h : (ch.work c backend).1.session.phase = .ready) :
    ch.session.phase ≠ .ended := by
  intro hended
  obtain ⟨es, -, hsession, -⟩ := (ch.follows_takeAll c backend ch.inbox).session
  rw [work, hsession, phase_follow_of_ended hended] at h
  cases h

end Channel

namespace StreamServer

variable {server : StreamServer} {session : Text} {ch : Channel} {fresh : Text} {r : Inbound}
  {id : RequestId} (d : ToolDemand)

/-- A session that is ready, or becomes so, on a stream that is open is initialised. -/
theorem isInitialised_run {os : List Occurrence} {later : Channel} {taken : List Message}
    (hempty : server.hub = []) (hfresh : server.HasFreshIds os)
    (h : (server.run os).hub.channel? session = some ch)
    (hlater : ch.Follows server.config later taken) (hready : later.session.phase = .ready) :
    IsInitialised server.config later.session := by
  obtain ⟨es, -, hsession, -⟩ := ((follows_run hempty hfresh h).trans hlater).session
  exact isInitialised_iff.mpr ⟨hready, es, hsession⟩

/-- A demand that is posted for a stream is answered on it, once the session has taken what waits.
-/
theorem post_demand (backend : Backend) (h : server.hub.channel? session = some ch)
    (hready : (ch.work server.config backend).1.session.phase = .ready)
    (hr : server.action r = .post session (.request id d.demand)) :
    (server.handle fresh r).1 = .accepted ∧
    ∃ next, (server.handle fresh r).2.hub.channel? session = some next ∧
      (next.work server.config backend).1.events = (ch.work server.config backend).1.events ++
        (d.answer server.config backend id).2.map .message ∧
      (next.work server.config backend).2 = (ch.work server.config backend).2 ++
        (d.answer server.config backend id).1 := by
  rcases handle_post_cases fresh hr with ⟨hnone, -⟩ | ⟨ch', hch', hended, -⟩ | ⟨-, -, -, hp⟩
  · rw [hnone] at h
    cases h
  · obtain rfl := Option.some.inj (h.symm.trans hch')
    exact absurd hended (ch.phase_of_work _ _ hready)
  · rw [hp]
    refine ⟨rfl, ch.put (.request id d.demand), ?_, ?_⟩
    · have hput : ∀ ch, (Channel.put (.request id d.demand) ch).id = ch.id := fun ch => rfl
      rw [Hub.channel?_update hput, if_pos rfl, h]
      rfl
    · rw [Channel.work_put, ← deliver_demand d hready backend]
      exact ⟨rfl, rfl⟩

end StreamServer

/-! ## Over single requests -/

namespace PostServer

/-- A request that comes in, the id of a session that it starts, and the metrics server as it is
then. -/
structure Visit where
  backend : Backend
  fresh : Text
  request : Inbound

/-- The server after a visit. -/
def next (server : PostServer) (v : Visit) : PostServer :=
  (server.handle v.backend v.fresh v.request).2

/-- The server after a history of visits. -/
def run (server : PostServer) (vs : List Visit) : PostServer :=
  vs.foldl next server

/-- Every session has come from a fresh one in a history of its own. -/
def HasHistories (server : PostServer) : Prop :=
  ∀ e ∈ server.sessions, ∃ es, e.2 = (({} : Session).follow server.config es).1

section Runs

variable {server : PostServer} {session : Text} {s : Session}

theorem mem_of_session? (h : server.session? session = some s) :
    (session, s) ∈ server.sessions := by
  obtain ⟨before, after, hsessions, -⟩ := List.lookup_eq_some_iff.mp h
  rw [hsessions]
  exact List.mem_append_right _ List.mem_cons_self

theorem HasHistories.remove (h : server.HasHistories) (session : Text) :
    (server.remove session).HasHistories :=
  fun e he => h e (List.mem_of_mem_filter he)

theorem HasHistories.update (h : server.HasHistories)
    (hs : ∃ es, s = (({} : Session).follow server.config es).1) (session : Text) :
    (server.update session s).HasHistories := by
  intro e he
  obtain ⟨old, hold, rfl⟩ := List.mem_map.mp he
  split_ifs
  · exact hs
  · exact h old hold

/-- A session goes on in its history when a message is delivered. -/
theorem exists_history_deliver {c : Config} (backend : Backend) (m : Message)
    (h : ∃ es, s = (({} : Session).follow c es).1) :
    ∃ es, (s.deliver c backend m).1 = (({} : Session).follow c es).1 := by
  obtain ⟨es, rfl⟩ := h
  obtain ⟨more, -, hmore, -⟩ := deliver_eq_follow c backend (({} : Session).follow c es).1 m
  exact ⟨es ++ .receive m :: more, by rw [hmore, follow_append]⟩

theorem HasHistories.settled (h : server.HasHistories)
    (hs : ∃ es, s = (({} : Session).follow server.config es).1) (session : Text) :
    (server.settled session s).HasHistories := by
  unfold PostServer.settled
  split_ifs
  · exact h.remove session
  · exact h.update hs session

/-- **What a visit does to the sessions**: nothing, or it starts one, goes on with one, or removes
one. -/
theorem next_cases (server : PostServer) (v : Visit) :
    server.next v = server ∨
    (∃ m, server.next v = { server with sessions := server.sessions ++
      [(v.fresh, (({} : Session).deliver server.config v.backend m).1)] }) ∨
    (∃ session s m, server.session? session = some s ∧
      server.next v = server.settled session (s.deliver server.config v.backend m).1) ∨
    ∃ session, server.next v = server.remove session := by
  rw [next, handle]
  cases server.action v.request with
  | refuse | listen => exact .inl rfl
  | start id demand => exact .inr (.inl ⟨_, rfl⟩)
  | deliver session m =>
    cases hs : server.session? session with
    | none =>
      left
      simp only [hs]
    | some s =>
      refine .inr (.inr (.inl ⟨session, s, m, hs, ?_⟩))
      simp only [hs]
      cases m <;> rfl
  | finish session => exact .inr (.inr (.inr ⟨session, rfl⟩))

theorem config_next (server : PostServer) (v : Visit) : (server.next v).config = server.config := by
  rcases server.next_cases v with h | ⟨m, h⟩ | ⟨session, s, m, -, h⟩ | ⟨session, h⟩
  · rw [h]
  · rw [h]
  · rw [h, settled]
    split_ifs <;> rfl
  · rw [h]
    rfl

theorem HasHistories.next (h : server.HasHistories) (v : Visit) : (server.next v).HasHistories := by
  rcases server.next_cases v with hn | ⟨m, hn⟩ | ⟨session, s, m, hs, hn⟩ | ⟨session, hn⟩
  · rw [hn]
    exact h
  · rw [hn]
    intro e he
    rcases List.mem_append.mp he with he | he
    · exact h e he
    · obtain rfl := List.mem_singleton.mp he
      exact exists_history_deliver v.backend m ⟨[], rfl⟩
  · rw [hn]
    exact h.settled (exists_history_deliver v.backend m (h _ (mem_of_session? hs))) session
  · rw [hn]
    exact h.remove session

theorem HasHistories.run (h : server.HasHistories) (vs : List Visit) :
    (server.run vs).HasHistories := by
  induction vs generalizing server with
  | nil => exact h
  | cons v vs ih => exact ih (h.next v)

theorem config_run (server : PostServer) (vs : List Visit) :
    (server.run vs).config = server.config := by
  induction vs generalizing server with
  | nil => rfl
  | cons v vs ih => exact (ih (server.next v)).trans (server.config_next v)

/-- A session that has become ready over single requests is initialised. -/
theorem isInitialised_run (hempty : server.sessions = []) {vs : List Visit}
    (h : (server.run vs).session? session = some s) (hready : s.phase = .ready) :
    IsInitialised server.config s := by
  have hstart : server.HasHistories := fun e he => by
    rw [hempty] at he
    cases he
  obtain ⟨es, hes⟩ := hstart.run vs _ (mem_of_session? h)
  rw [config_run] at hes
  exact isInitialised_iff.mpr ⟨hready, es, hes⟩

end Runs

/-- A demand that is posted to a session is answered by the stream of the request. -/
theorem deliver_demand {server : PostServer} {session fresh : Text} {s : Session} {r : Inbound}
    {id : RequestId} (d : ToolDemand) (backend : Backend) (h : server.session? session = some s)
    (hready : s.phase = .ready)
    (hr : server.action r = .deliver session (.request id d.demand)) :
    (server.handle backend fresh r).1 =
      { status := .ok,
        stream := some ((d.answer server.config backend id).2,
          (d.answer server.config backend id).1) } := by
  rw [← MetricsBridge.deliver_demand d hready backend]
  simp only [handle, hr, h]

end PostServer

/-! ## Main statement -/

theorem answer_eq_result {c : Config} {backend : Backend} (h : ∀ r, backend [r] ≠ none)
    (id : RequestId) (d : ToolDemand) :
    ∃ result, (d.answer c backend id).2 = [⟨id, .ok result⟩] := by
  rcases attend_demand d c {} id with ⟨result, -, ha⟩ | ⟨name, r, f, -, ha⟩
  · exact ⟨result, by rw [ha]⟩
  · obtain ⟨a, hb⟩ := Option.ne_none_iff_exists'.mp (h r)
    exact ⟨.called (f a), by rw [ha, hb]; rfl⟩

/-- **All transports serve the same tools.**  Let a client ask for a call of a tool or for the list
of the tools, in a session that is initialised, whatever has happened in it.  If the metrics server
is waited for, the request as a line is answered just so as the demand is on its own.  If other
things happen to the session in between, which neither cancel the call nor start another under its
id, the answer comes at once or when the answer to its request is heard.  A request that is posted
for an event stream is accepted, and the stream carries this answer behind all that comes of the
messages that wait; one that is posted to a session of its own has this answer for its stream.
Every time the metrics server is asked the same.  The answer is a result under the id of the
request, and never an error; as JSON it shows the text of the tool's result and whether that is an
error, or every offered tool. -/
theorem transports_serve_the_same_tools (c : Config) (backend : Backend) (id : RequestId)
    (d : ToolDemand) :
    (∀ s, IsInitialised c s →
      (s.deliver c backend (.request id d.demand)).2 = d.answer c backend id) ∧
    (∀ s es, IsInitialised c s → (∀ e ∈ es, e.Spares id) →
      ((s.receive c (.request id d.demand)).2 = (d.answer c backend id).2.map .response ∧
        (d.answer c backend id).1 = []) ∨
      ∃ r, (s.receive c (.request id d.demand)).2 = [.request id r] ∧
        (d.answer c backend id).1 = [⟨r, backend [r]⟩] ∧
        (d.answer c backend id).2 = (backend [r]).toList.flatMap fun a =>
          responses ((((s.receive c (.request id d.demand)).1.follow c es).1).hear id a).2) ∧
    (∀ (server : StreamServer) session ch fresh r, server.config = c →
      server.hub.channel? session = some ch → IsInitialised c (ch.work c backend).1.session →
      server.action r = .post session (.request id d.demand) →
      (server.handle fresh r).1 = .accepted ∧
      ∃ next, (server.handle fresh r).2.hub.channel? session = some next ∧
        (next.work c backend).1.events =
          (ch.work c backend).1.events ++ (d.answer c backend id).2.map .message ∧
        (next.work c backend).2 = (ch.work c backend).2 ++ (d.answer c backend id).1) ∧
    (∀ (server : PostServer) session s fresh r, server.config = c →
      server.session? session = some s → IsInitialised c s →
      server.action r = .deliver session (.request id d.demand) →
      (server.handle backend fresh r).1 =
        { status := .ok,
          stream := some ((d.answer c backend id).2, (d.answer c backend id).1) }) ∧
    ((∀ r, backend [r] ≠ none) → ∃ result, (d.answer c backend id).2 = [⟨id, .ok result⟩]) ∧
    ∀ response ∈ (d.answer c backend id).2, ∃ result : Result,
      response.body = .ok result ∧
      response.toJson.get? "id".toList = some id.toJson ∧
      response.toJson.get? "result".toList = some result.toJson ∧
      response.toJson.get? "error".toList = none ∧
      d.IsShownBy c backend result.toJson := by
  refine ⟨fun s hs => deliver_demand d hs.phase backend,
    fun s es hs hes => hear_demand d hs.phase hes backend, ?_, ?_, ?_, ?_⟩
  · rintro server session ch fresh r rfl hch hs hr
    exact StreamServer.post_demand d backend hch hs.phase hr
  · rintro server session s fresh r rfl hs hinit hr
    exact PostServer.deliver_demand d backend hs hinit.phase hr
  · exact fun hreplies => answer_eq_result hreplies id d
  · intro response hmem
    obtain ⟨result, rfl, hshown⟩ := isShownBy_of_mem hmem
    obtain ⟨hid, hresult, herror⟩ := toJson_of_result id result
    exact ⟨result, rfl, hid, hresult, herror, hshown⟩

/-- A call of a tool that shows alerts, under the id 1. -/
def Message.isAlertsCall : Message → Bool
  | .request (.number 1) (.callTool name []) => name == "get_alerts".toList
  | _ => false

theorem eq_of_isAlertsCall {m : Message} (h : m.isAlertsCall = true) :
    m = .request (.number 1) (ToolDemand.call "get_alerts".toList []).demand := by
  unfold Message.isAlertsCall at h
  split at h
  · rw [beq_iff_eq.mp h]
    rfl
  · cases h

/-- A message that satisfies `p` is delivered to a session. -/
def PostAction.delivers (session : Text) (p : Message → Bool) : PostAction → Bool
  | .deliver other m => other == session && p m
  | _ => false

theorem eq_deliver_of_delivers {session : Text} {p : Message → Bool} {a : PostAction}
    (h : a.delivers session p = true) : ∃ m, a = .deliver session m ∧ p m = true := by
  unfold PostAction.delivers at h
  split at h
  · obtain ⟨hsession, hp⟩ := Bool.and_eq_true_iff.mp h
    exact ⟨_, by rw [beq_iff_eq.mp hsession], hp⟩
  · cases h

/-- A request that posts a message and may name a session. -/
def messageRequest (target : String) (session : Option Text) (body : String) : Inbound :=
  .ofTarget "POST".toList target.toList
    ([("content-type".toList, "application/json".toList),
      ("accept".toList, "application/json, text/event-stream".toList)]
      ++ session.toList.map ("mcp-session-id".toList, ·))
    body.toList

/-- A greeting. -/
def greetingBody : String :=
  "\x7b\"jsonrpc\":\"2.0\",\"id\":0,\"method\":\"initialize\",\"params\":\x7b"
    ++ "\"protocolVersion\":\"\",\"capabilities\":\x7b\x7d,"
    ++ "\"clientInfo\":\x7b\"name\":\"\",\"version\":\"\"\x7d\x7d\x7d"

/-- The notice that the client is ready. -/
def readyBody : String :=
  "\x7b\"jsonrpc\":\"2.0\",\"method\":\"notifications/initialized\"\x7d"

/-- A call of a tool. -/
def callBody : String :=
  "\x7b\"jsonrpc\":\"2.0\",\"id\":1,\"method\":\"tools/call\",\"params\":\x7b"
    ++ "\"name\":\"get_alerts\"\x7d\x7d"

/-- A stream is opened, and its client greets and is ready. -/
def greetedStream : List Occurrence :=
  [.request "a".toList openingRequest,
   .request [] (messageRequest "/message?sessionId=a" none greetingBody),
   .request [] (messageRequest "/message?sessionId=a" none readyBody)]

/-- A client greets without a session and is ready in the one that it gets. -/
def greetedPosts : List PostServer.Visit :=
  [⟨.offline, "a".toList, messageRequest "/mcp" none greetingBody⟩,
   ⟨.offline, [], messageRequest "/mcp" (some "a".toList) readyBody⟩]

/-- A call of a tool is answered alike on a stream whose client has greeted and by a single request.
-/
theorem transports_serve_the_same_tools_of_alerts :
    let server := StreamServer.start {} "/sse".toList "/message".toList
    let streams := server.run greetedStream
    let posts := (PostServer.start {} "/mcp".toList).run greetedPosts
    let expected := (ToolDemand.call "get_alerts".toList []).answer {} .offline (.number 1)
    (∃ earlier later,
      streams.hub.channel? "a".toList = some earlier ∧
      (streams.handle [] (messageRequest "/message?sessionId=a" none callBody)).2.hub.channel?
        "a".toList = some later ∧
      (later.work {} .offline).1.events =
        (earlier.work {} .offline).1.events ++ expected.2.map .message) ∧
    (posts.handle .offline [] (messageRequest "/mcp" (some "a".toList) callBody)).1.stream =
      some (expected.2, expected.1) := by
  intro server streams posts expected
  obtain ⟨-, -, hstreams, hposts, -⟩ := transports_serve_the_same_tools {} .offline (.number 1)
    (.call "get_alerts".toList [])
  constructor
  · have hfresh : server.HasFreshIds greetedStream := by
      unfold StreamServer.HasFreshIds
      decide +kernel
    have haction : (server.action (messageRequest "/message?sessionId=a" none callBody)).posts
        "a".toList Message.isAlertsCall = true := by decide +kernel
    have hready : (streams.hub.channel? "a".toList).map
        (fun ch => (ch.work {} .offline).1.session.phase) = some .ready := by decide +kernel
    obtain ⟨m, hposted, hm⟩ := eq_post_of_posts haction
    rw [eq_of_isAlertsCall hm, ← StreamServer.action_run] at hposted
    obtain ⟨ch, hch, hphase⟩ := Option.map_eq_some_iff.mp hready
    have hinit := StreamServer.isInitialised_run rfl hfresh hch
      (ch.follows_takeAll {} .offline ch.inbox) hphase
    obtain ⟨-, later, hlater, hevents, -⟩ :=
      hstreams streams "a".toList ch [] _ StreamServer.config_run hch hinit hposted
    exact ⟨ch, later, hch, hlater, hevents⟩
  · have haction : (posts.action (messageRequest "/mcp" (some "a".toList) callBody)).delivers
        "a".toList Message.isAlertsCall = true := by decide +kernel
    have hready : (posts.session? "a".toList).map Session.phase = some .ready := by
      decide +kernel
    obtain ⟨m, hdelivered, hm⟩ := eq_deliver_of_delivers haction
    rw [eq_of_isAlertsCall hm] at hdelivered
    obtain ⟨s, hs, hphase⟩ := Option.map_eq_some_iff.mp hready
    have hinit := PostServer.isInitialised_run rfl hs hphase
    rw [hposts posts "a".toList s [] _ (PostServer.config_run _ _) hs hinit hdelivered]

end MetricsBridge
