import AccessRequest.Url.Percent

/-!
The application's routes: the access-denied page, with or without the identifier of the blocked
action, and the not-found page. A path is recognized after dropping one trailing and then one
leading slash: `403`, `403/` and one non-empty segment without a slash, or `404`. The segment is
percent-decoded, and one that does not decode to UTF-8, like every other path, is the not-found
page.
-/

namespace AccessRequest

/-- A page of the application. -/
inductive Route where
  | forbidden
  | forbiddenFor (id : String)
  | notFound
  deriving DecidableEq, Repr

namespace Route

/-- The path of a route; an identifier is percent-encoded. -/
def toPath : Route → String
  | .forbidden => "/403"
  | .forbiddenFor id => "/403/" ++ Url.percentEncode id
  | .notFound => "/404"

/-- The characters of a path without one trailing slash and then one leading slash. -/
def trimSlashes (path : List Char) : List Char :=
  let path := if path.getLast? = some '/' then path.dropLast else path
  match path with
  | '/' :: rest => rest
  | other => other

/-- The route of a trimmed path. -/
def ofSegments : List Char → Route
  | ['4', '0', '3'] => .forbidden
  | ['4', '0', '4'] => .notFound
  | '4' :: '0' :: '3' :: '/' :: segment =>
    if segment.isEmpty || segment.contains '/' then .notFound
    else
      match Url.percentDecode (String.ofList segment) with
      | some id => .forbiddenFor id
      | none => .notFound
  | _ => .notFound

/-- The route a path leads to; every path leads to one. -/
def recognize (path : String) : Route := ofSegments (trimSlashes path.toList)

end Route

end AccessRequest
