import MetricsBridge.Json.Printer
import MetricsBridge.Text.Cut
import MetricsBridge.Text.Quoted
import MetricsBridge.Backend.Labels

/-!
# Texts of tool results

Long texts are cut, and lists show only their first entries, unless everything is asked for.
-/
namespace MetricsBridge.Render

/-- The most bytes a text may have before it is cut. -/
def maxBytes : Nat := 50000

/-- How far before the cut a line may end for the cut to be moved there. -/
def lineWindow : Nat := 1000

/-- What follows a text that has been cut. -/
def truncationAdvice : Text :=
  ("\n\n⚠️  RESULT TRUNCATED: The query returned a very large result (>50k characters).\n\n"
    ++ "💡 To optimize your query and get less output, consider:\n"
    ++ "   • Adding more specific label filters: \x7bapp=\"specific-app\", "
    ++ "namespace=\"specific-ns\"\x7d\n"
    ++ "   • Using aggregation functions: sum(), avg(), count(), etc.\n"
    ++ "   • Limiting time ranges for range queries\n"
    ++ "   • Using topk() or bottomk() to get only top/bottom N results\n"
    ++ "   • Filtering by specific metrics instead of using wildcards\n\n"
    ++ "🔧 To get the full untruncated result, add \"unlimited\": \"true\" to your query "
    ++ "parameters, but be aware this may impact performance.").toList

/-- What precedes a text that is given in full. -/
def unlimitedWarning : Text :=
  ("⚠️  WARNING: Unlimited output enabled - this response may be very large and could impact "
    ++ "performance.\n\n").toList

/-- The part of a long text that is kept: what fits, up to the end of its last line if that is
near. -/
def cut (t : Text) : Text :=
  let kept := t.takeBytes maxBytes
  match kept.beforeLast '\n' with
  | some lines => if maxBytes - lineWindow < Text.byteLength lines then lines else kept
  | none => kept

/-- A result with the warning that it is complete, or cut if it is long. -/
def limit (t : Text) (isUnlimited : Bool) : Text :=
  if isUnlimited then unlimitedWarning ++ t
  else if Text.byteLength t ≤ maxBytes then t
  else cut t ++ truncationAdvice

/-- The result of a query. -/
def queryResult (kind : Text) (result : Json) : Text :=
  "Query executed successfully.\nResult Type: ".toList ++ kind ++ "\nResult: ".toList
    ++ result.pretty

/-- Lines with the numbers from `first` on. -/
def numberedFrom (first : Nat) : List Text → Text
  | [] => []
  | item :: rest =>
    Text.ofNat first ++ ". ".toList ++ item ++ '\n' :: numberedFrom (first + 1) rest

/-- A numbered line for each item.  With a cap, only so many, and a line with the number of those
left out. -/
def numberedList (items : List Text) (cap : Option Nat) (noun : Text) : Text :=
  let shown := match cap with
    | some n => items.take n
    | none => items
  let left := items.length - shown.length
  numberedFrom 1 shown
    ++ if left = 0 then []
      else "... and ".toList ++ Text.ofNat left ++ " more ".toList ++ noun ++ ['\n']

/-- A series by the name of its metric and its other labels. -/
def series (labels : Labels) : Text :=
  let pairs := (labels.filter (·.1 != Labels.metricName)).map fun (name, value) =>
    name ++ '=' :: Quoted.encode value
  (Table.get? labels Labels.metricName).getD []
    ++ '\x7b' :: Text.joinWith ", ".toList pairs ++ ['\x7d']

/-- A text with the warnings that came with it. -/
def withWarnings (t : Text) (warnings : List Text) : Text :=
  if warnings = [] then t else t ++ "\nWarnings: ".toList ++ Text.joinWith "; ".toList warnings

end MetricsBridge.Render
