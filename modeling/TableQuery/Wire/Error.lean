/-!
# Errors of the stored form

What can be wrong with the stored form of a query, told with the place in the
document.
-/

namespace TableQuery

inductive WireError where
  | json
  | malformed (path reason : String)
  | missingSource
  | danglingOrderBy (index : Nat)
deriving DecidableEq, Repr

def WireError.message : WireError → String
  | json => "invalid JSON"
  | malformed path reason => "malformed " ++ path ++ ": " ++ reason
  | missingSource => "query has neither source-table nor source-query"
  | danglingOrderBy index =>
    "order-by " ++ toString index ++ " points at a breakout that does not exist"

end TableQuery
