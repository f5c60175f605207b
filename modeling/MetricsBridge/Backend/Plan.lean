import MetricsBridge.Backend.Request

/-!
# Plans

A plan says which requests are to be sent and what to make of each answer.  Running it against a
server that answers as it likes gives the exchanges made and, unless an answer stays out, a result.
-/
namespace MetricsBridge

/-- What becomes of a request: it does not get there; it gets there and the connection ends; an
answer breaks off; or an answer comes, with a status and a body.  This is the outcome of one send of
the HTTP library, the redirects included that the library follows by itself, so that an error on the
way of a redirect is not told apart. -/
inductive Answer where
  | unreachable
  | dropped
  | cutShort
  | replied (status : Nat) (body : Text)
  deriving DecidableEq, Repr

/-- Whether the request got there. -/
def Answer.isReceived : Answer → Bool
  | .unreachable => false
  | _ => true

/-- Which requests are to be sent, and what to make of each answer. -/
inductive Plan (α : Type) where
  | done (a : α)
  | send (r : Request) (next : Answer → Plan α)

namespace Plan

variable {α β : Type}

/-- One plan after the other. -/
def bind : Plan α → (α → Plan β) → Plan β
  | .done a, f => f a
  | .send r next, f => .send r fun answer => (next answer).bind f

/-- A plan with its result changed. -/
def map (f : α → β) (p : Plan α) : Plan β :=
  p.bind fun a => .done (f a)

instance : Monad Plan where
  pure := .done
  bind := bind

end Plan

/-- How a server answers the last of the requests it has been sent; no answer means that it stays
silent. -/
abbrev Backend := List Request → Option Answer

/-- A server that nothing gets to. -/
def Backend.offline : Backend := fun _ => some .unreachable

/-- A request and its answer, if there is one. -/
structure Exchange where
  request : Request
  answer : Option Answer
  deriving DecidableEq, Repr

/-- What comes of running a plan: the exchanges in order, and the result unless an answer stays
out. -/
structure Outcome (α : Type) where
  exchanges : List Exchange
  result : Option α
  deriving DecidableEq, Repr

/-- Runs a plan after the requests `past`. -/
def Plan.runAfter {α : Type} (server : Backend) (past : List Request) : Plan α → Outcome α
  | .done a => ⟨[], some a⟩
  | .send r next =>
    match server (past ++ [r]) with
    | none => ⟨[⟨r, none⟩], none⟩
    | some answer =>
      let rest := (next answer).runAfter server (past ++ [r])
      ⟨⟨r, some answer⟩ :: rest.exchanges, rest.result⟩

/-- Runs a plan. -/
def Plan.run {α : Type} (server : Backend) (p : Plan α) : Outcome α :=
  p.runAfter server []

/-- Whether the request got there; one that is still without an answer has. -/
def Exchange.isReceived (e : Exchange) : Bool :=
  (e.answer.map Answer.isReceived).getD true

/-- The requests of an outcome. -/
def Outcome.requests {α : Type} (o : Outcome α) : List Request :=
  o.exchanges.map Exchange.request

end MetricsBridge
