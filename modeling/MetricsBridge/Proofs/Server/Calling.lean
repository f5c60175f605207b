import MetricsBridge.Proofs.Backend.Sending
import MetricsBridge.Server.Dispatch

/-!
# What a tool call sends

`mem_sent` says all that has to be the case for a tool call to send a request: the tool exists and
is offered, there is a client, the arguments make a job, and the job's call makes the request.  What
is known of the requests of tool calls follows from it.
-/
namespace MetricsBridge

/-- The requests that a tool call sends to a server. -/
def sent (c : Config) (name : Text) (args : Arguments) (server : Backend) : List Request :=
  ((dispatch c name args).run server).requests

/-! ### Names of tools -/

theorem find?_name (tool : Tool) : Tool.find? tool.name = some tool := by
  cases tool <;> decide

theorem Tool.mem_all (tool : Tool) : tool ∈ Tool.all := by
  cases tool <;> decide

theorem find?_eq_none {name : Text} :
    Tool.find? name = none ↔ ∀ tool ∈ Tool.all, tool.name ≠ name := by
  rw [Tool.find?, List.find?_eq_none]
  simp

/-! ### Clients of tool calls -/

/-- The address that a tool call asks, if one is configured or given. -/
def effectiveUrl (c : Config) (args : Arguments) : Option Text :=
  c.connection.url.or (nonBlank args.url)

/-- The client of a tool call has the configured connection, but for its address and its tenant. -/
theorem forCall_eq_ok {c : Config} {args : Arguments} {client : Client}
    (h : Client.forCall (some Program.agent) c.connection args.url args.orgId = .ok client) :
    ∃ url, effectiveUrl c args = some url ∧ Url.parse url = .ok client.base ∧
      client.connection = { c.connection with
        url := some url, orgId := c.connection.orgId.or (nonBlank args.orgId) } ∧
      client.agent = some Program.agent := by
  simp only [Client.forCall, bind_eq_ok] at h
  obtain ⟨connection, hres, hcon⟩ := h
  obtain ⟨url, hurl, hparse, hconn, hagent⟩ := Client.connect_eq_ok.mp hcon
  unfold Connection.resolve at hres
  cases he : c.connection.url.or (nonBlank args.url) with
  | none => simp [he] at hres
  | some u =>
    rw [he] at hres
    simp only [Except.ok.injEq] at hres
    subst hres
    simp only [Option.some.injEq] at hurl
    subst hurl
    exact ⟨u, he, hparse, hconn, hagent⟩

/-! ### Tool calls -/

theorem requests_perform_job (server : Backend) (client : Client) (j : Job) :
    ((j.perform client).run server).requests = client.requests j.call server := by
  rw [Job.perform, Plan.requests_run_map]
  rfl

theorem requests_perform_tool {server : Backend} {client : Client} {args : Arguments} {tool : Tool}
    {r : Request} : r ∈ ((tool.perform client args).run server).requests ↔
      ∃ j, tool.job args = .ok j ∧ r ∈ client.requests j.call server := by
  unfold Tool.perform
  cases tool.job args with
  | error e => simp
  | ok j => simp [requests_perform_job]

/-- **A tool call sends a request exactly if** the tool exists and is offered, there is a client
for it, its arguments make a job, and the call of the job makes the request. -/
theorem mem_sent {c : Config} {name : Text} {args : Arguments} {server : Backend} {r : Request} :
    r ∈ sent c name args server ↔ ∃ tool client j call,
      Tool.find? name = some tool ∧ c.offersTool tool = true ∧
      Client.forCall (some Program.agent) c.connection args.url args.orgId = .ok client ∧
      tool.job args = .ok j ∧ j.call = .ok call ∧ client.request call = .ok r := by
  unfold sent
  rw [dispatch, Plan.requests_run_map]
  unfold execute
  cases hf : Tool.find? name with
  | none => simp
  | some tool =>
    cases ho : c.offersTool tool with
    | false => simp [ho]
    | true =>
      cases hc : Client.forCall (some Program.agent) c.connection args.url args.orgId with
      | error e => simp [ho]
      | ok client =>
        simp only [ho, Bool.not_true, Bool.false_eq_true, if_false, Plan.requests_run_map,
          requests_perform_tool, Client.mem_requests, Option.some.injEq, Except.ok.injEq]
        constructor
        · rintro ⟨j, hj, call, hcall, hr⟩
          exact ⟨tool, client, j, call, rfl, ho, rfl, hj, hcall, hr⟩
        · rintro ⟨_, _, j, call, rfl, -, rfl, hj, hcall, hr⟩
          exact ⟨j, hj, call, hcall, hr⟩

/-! ### Jobs -/

/-- What a job makes of an answer to its request. -/
def Job.outcome (j : Job) (k : Call j.Data) (r : Request) (answer : Answer) :
    Except ToolError Text :=
  match Client.receive k.shape r answer with
  | .ok reply => .ok (j.render reply)
  | .error e => .error (.failed j.action e)

section Jobs

variable {j : Job} {client : Client}

theorem perform_of_bad_call {e : CallError} (he : j.call = .error e) :
    j.perform client = .done (.error (.failed j.action e)) := by
  rw [Job.perform, he]
  rfl

theorem perform_of_bad_request {k : Call j.Data} (hk : j.call = .ok k) {fault : SendFault}
    (hr : client.request k = .error fault) :
    j.perform client = .done (.error (.failed j.action (.notSent fault))) := by
  rw [Job.perform, hk, Client.attempt, Client.perform, hr]
  rfl

theorem perform_of_request {k : Call j.Data} (hk : j.call = .ok k) {r : Request}
    (hr : client.request k = .ok r) :
    j.perform client = .send r fun answer => .done (j.outcome k r answer) := by
  rw [Job.perform, hk, Client.attempt, Client.perform, hr]
  rfl

end Jobs

/-- **What a tool call is.**  Either it stops with an error at once, or it makes the request of its
job, and limits the text that the job makes of the answer. -/
theorem execute_cases (c : Config) (name : Text) (args : Arguments) :
    (∃ e, execute c name args = .done (.error e)) ∨
    ∃ tool j, ∃ k : Call j.Data, ∃ r, Tool.find? name = some tool ∧ tool.job args = .ok j ∧
      j.call = .ok k ∧ execute c name args = .send r fun answer =>
        .done ((j.outcome k r answer).map fun t => Render.limit t args.isUnlimited) := by
  unfold execute
  cases Tool.find? name with
  | none => exact .inl ⟨_, rfl⟩
  | some tool =>
    dsimp only
    split_ifs
    · exact .inl ⟨_, rfl⟩
    · cases Client.forCall (some Program.agent) c.connection args.url args.orgId with
      | error e => exact .inl ⟨_, rfl⟩
      | ok client =>
        dsimp only
        unfold Tool.perform
        cases hj : tool.job args with
        | error e => exact .inl ⟨_, rfl⟩
        | ok j =>
          dsimp only
          cases hk : j.call with
          | error e =>
            rw [perform_of_bad_call hk]
            exact .inl ⟨_, rfl⟩
          | ok k =>
            cases hr : client.request k with
            | error fault =>
              rw [perform_of_bad_request hk hr]
              exact .inl ⟨_, rfl⟩
            | ok r =>
              rw [perform_of_request hk hr]
              exact .inr ⟨tool, j, k, r, rfl, hj, hk, rfl⟩

/-! ### One request at most -/

/-- A plan that makes one request at most. -/
def Plan.IsShort {α : Type} (p : Plan α) : Prop :=
  (∃ a, p = .done a) ∨
    ∃ (r : Request) (f : Answer → α), p = .send r fun answer => .done (f answer)

section Short

variable {α β : Type}

theorem Plan.isShort_done (a : α) : (Plan.done a).IsShort :=
  .inl ⟨a, rfl⟩

theorem Plan.IsShort.map {p : Plan α} (h : p.IsShort) (f : α → β) : (p.map f).IsShort := by
  rcases h with ⟨a, rfl⟩ | ⟨r, g, rfl⟩
  · exact .inl ⟨f a, rfl⟩
  · exact .inr ⟨r, fun answer => f (g answer), rfl⟩

theorem Plan.IsShort.length_requests_le {p : Plan α} (h : p.IsShort) (server : Backend) :
    (p.run server).requests.length ≤ 1 := by
  rcases h with ⟨a, rfl⟩ | ⟨r, f, rfl⟩
  · exact Nat.zero_le 1
  · rw [requests_run_send_done]
    exact le_rfl

/-- **A tool call makes one request at most**, whatever comes of it. -/
theorem isShort_dispatch (c : Config) (name : Text) (args : Arguments) :
    (dispatch c name args).IsShort := by
  refine Plan.IsShort.map ?_ _
  rcases execute_cases c name args with ⟨e, h⟩ | ⟨_, _, _, r, _, _, _, h⟩
  · rw [h]
    exact Plan.isShort_done _
  · rw [h]
    exact .inr ⟨r, _, rfl⟩

end Short

end MetricsBridge
