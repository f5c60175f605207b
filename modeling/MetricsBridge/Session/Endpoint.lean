import MetricsBridge.Text.Blank

/-!
# Where the server listens

The paths of its endpoints and the address that it binds, in normal form.
-/
namespace MetricsBridge

/-- A path with a slash before it and none after it, except for the root. -/
def Endpoint.normalize (t : Text) : Text :=
  match ((Text.trim t).reverse.dropWhile (· == '/')).reverse with
  | [] => ['/']
  | '/' :: rest => '/' :: rest
  | path => '/' :: path

/-- An address; one without a host stands for every interface. -/
def Address.normalize (t : Text) : Text :=
  match t with
  | ':' :: _ => "0.0.0.0".toList ++ t
  | _ => t

end MetricsBridge
