import MetricsBridge.Json.Error

/-!
# Why a call of the metrics API fails

A call fails before anything is sent, because an argument or the address is no good; while it is
sent; or by what comes back.
-/
namespace MetricsBridge

/-- How sending a request fails. -/
inductive SendFault where
  | unreachable (url : Text)
  | brokenBody
  | illegalHeader
  | illegalAddress (url : Text)
  deriving DecidableEq, Repr

/-- The wording of a fault in sending. -/
def SendFault.message : SendFault → Text
  | .unreachable url => "error sending request for url (".toList ++ url ++ [')']
  | .brokenBody => "error decoding response body".toList
  | .illegalHeader => "builder error".toList
  | .illegalAddress url => "builder error for url (".toList ++ url ++ [')']

/-- Why a call of the metrics API fails. -/
inductive CallError where
  | missingUrl
  | invalidUrl (url reason : Text)
  | invalidTime (input : Text)
  | invalidDuration (input : Text)
  | invalidLimit (input : Text)
  | notSent (fault : SendFault)
  | status (code : Nat) (body : Text)
  | api (kind message : Text)
  | undecodable (error : Json.ReadError)
  deriving DecidableEq, Repr

/-- The wording of a failure. -/
def CallError.message : CallError → Text
  | .missingUrl =>
    ("prometheus URL is required: either set PROMETHEUS_URL environment variable or provide "
      ++ "prometheus_url parameter").toList
  | .invalidUrl url reason => "invalid Prometheus URL '".toList ++ url ++ "': ".toList ++ reason
  | .invalidTime input =>
    "invalid time parameter '".toList ++ input ++ "': expected RFC3339 or Unix timestamp".toList
  | .invalidDuration input =>
    "invalid duration '".toList ++ input
      ++ "': expected a Prometheus duration like '30s', '5m', '1h30m' or float seconds".toList
  | .invalidLimit input =>
    "invalid limit '".toList ++ input ++ "': expected a non-negative integer".toList
  | .notSent fault => "request failed: ".toList ++ fault.message
  | .status code body =>
    "server returned HTTP ".toList ++ Text.ofNat code ++ ": ".toList ++ body
  | .api kind message => kind ++ ": ".toList ++ message
  | .undecodable error => "failed to decode response: ".toList ++ error.message

end MetricsBridge
