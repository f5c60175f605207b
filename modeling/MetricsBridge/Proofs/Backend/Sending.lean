import MetricsBridge.Backend.Client
import MetricsBridge.Proofs.Success
import MetricsBridge.Proofs.Text.Percent

/-!
# What is sent

Whatever a server answers, the requests of a call that a client attempts are those that the call's
own data determine: none if an argument is refused or the request cannot be built, and otherwise one
(`Client.mem_requests`).  `Request.build_eq_ok` and `Client.connect_eq_ok` say all that is in a
request and in a client.
-/
namespace MetricsBridge

variable {α β : Type}

namespace Plan

/-- A plan that is done sends nothing. -/
@[simp] theorem requests_run_done (server : Backend) (a : α) :
    ((Plan.done a).run server).requests = [] := rfl

theorem runAfter_map (f : α → β) (server : Backend) (p : Plan α) (past : List Request) :
    (p.map f).runAfter server past =
      ⟨(p.runAfter server past).exchanges, (p.runAfter server past).result.map f⟩ := by
  induction p generalizing past with
  | done a => rfl
  | send r next ih =>
    have hmap : (Plan.send r next).map f = .send r fun answer => (next answer).map f := rfl
    rw [hmap, runAfter, runAfter]
    cases server (past ++ [r]) with
    | none => rfl
    | some answer => simp only [ih answer (past ++ [r])]

/-- What is made of the result is made of it when the plan has been run. -/
theorem run_map (f : α → β) (server : Backend) (p : Plan α) : (p.map f).run server =
    ⟨(p.run server).exchanges, (p.run server).result.map f⟩ :=
  runAfter_map f server p []

/-- What is made of the result does not change what is sent. -/
@[simp] theorem requests_run_map (f : α → β) (server : Backend) (p : Plan α) :
    ((p.map f).run server).requests = (p.run server).requests := by
  rw [run_map]
  rfl

@[simp] theorem result_run_map (f : α → β) (server : Backend) (p : Plan α) :
    ((p.map f).run server).result = (p.run server).result.map f := by
  rw [run_map]

/-- One request, and whatever the answer to it, nothing more. -/
theorem run_send_done (server : Backend) (r : Request) (next : Answer → α) :
    (Plan.send r fun answer => .done (next answer)).run server =
      ⟨[⟨r, server [r]⟩], (server [r]).map next⟩ := by
  rw [Plan.run, runAfter, List.nil_append]
  cases server [r] <;> rfl

@[simp] theorem requests_run_send_done (server : Backend) (r : Request) (next : Answer → α) :
    ((Plan.send r fun answer => .done (next answer)).run server).requests = [r] := by
  rw [run_send_done]
  rfl

end Plan

/-! ### Clients -/

namespace Client

/-- The requests that a client sends to a server for a call. -/
def requests (c : Client) (call : Except CallError (Call α)) (server : Backend) : List Request :=
  ((c.attempt call).run server).requests

theorem requests_perform (server : Backend) (c : Client) (call : Call α) :
    ((c.perform call).run server).requests = (c.request call).toOption.toList := by
  unfold perform
  cases c.request call with
  | error fault => rfl
  | ok r => simp [Except.toOption]

/-- A request that is built is sent, and the answer to it is received. -/
theorem run_perform {server : Backend} {c : Client} {call : Call α} {r : Request} {answer : Answer}
    (hr : c.request call = .ok r) (hanswer : server [r] = some answer) :
    (c.perform call).run server = ⟨[⟨r, some answer⟩], some (receive call.shape r answer)⟩ := by
  simp [perform, hr, Plan.run, Plan.runAfter, hanswer]

/-- **A request is sent exactly if the call's arguments are good and it can be built.** -/
theorem mem_requests {server : Backend} {c : Client} {call : Except CallError (Call α)}
    {r : Request} : r ∈ c.requests call server ↔ ∃ k, call = .ok k ∧ c.request k = .ok r := by
  unfold requests
  cases call with
  | error e =>
    rw [attempt, Plan.requests_run_done]
    simp
  | ok k =>
    rw [attempt, requests_perform]
    cases hr : c.request k with
    | error fault => simp [Except.toOption, hr]
    | ok r' => simp [Except.toOption, hr, eq_comm]

theorem connect_eq_ok {agent : Option Text} {connection : Connection} {c : Client} :
    connect agent connection = .ok c ↔
      ∃ url, connection.url = some url ∧ Url.parse url = .ok c.base ∧ c.connection = connection ∧
        c.agent = agent := by
  obtain ⟨base, connection', agent'⟩ := c
  unfold connect
  cases hu : connection.url with
  | none => simp
  | some url =>
    cases hp : Url.parse url with
    | error fault => simp [hp]
    | ok u => simp [hp, eq_comm]

end Client

/-! ### Requests -/

namespace Url

@[simp] theorem takeAuthorization_path (u : Url) : u.takeAuthorization.2.path = u.path := by
  unfold takeAuthorization
  split
  · rfl
  · dsimp only
    split_ifs <;> rfl

@[simp] theorem takeAuthorization_query (u : Url) : u.takeAuthorization.2.query = u.query := by
  unfold takeAuthorization
  split
  · rfl
  · dsimp only
    split_ifs <;> rfl

/-- **The pairs of a call stand behind those of the base**, whatever query the base has. -/
theorem parse_addPairs (query : Option Text) (pairs : List Form.Pair) :
    Form.parse ((addPairs query pairs).getD []) = Form.parse (query.getD []) ++ pairs := by
  unfold addPairs
  by_cases hq : query.getD [] = []
  · by_cases hs : Form.serialize pairs = []
    · have hp := Form.parse_serialize pairs
      rw [hs] at hp
      simp [hq, ← hp]
      rfl
    · simp [hq, hs]
      rfl
  · by_cases hp : pairs = []
    · simp [hq, hp]
    · simp [hq, hp, Form.parse_append_serialize]

end Url

theorem Request.build_eq_ok {c : Connection} {agent : Option Text} {url : Url} {patience : Span}
    {r : Request} (h : Request.build c agent url patience = .ok r) :
    r.url = url.takeAuthorization.2 ∧
      r.headers = url.takeAuthorization.1 ++ c.authHeaders ++ c.orgHeaders
        ++ (agent.map fun name => ⟨Header.userAgent, name⟩).toList ∧
      r.patience = patience := by
  unfold Request.build at h
  dsimp only at h
  split_ifs at h
  rw [Except.ok.injEq] at h
  subst h
  exact ⟨rfl, rfl, rfl⟩

end MetricsBridge
