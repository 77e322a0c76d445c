/-!
Route identifiers collapse to permission keys. A marker table lists `(marker, key)` pairs in
order; an identifier that contains a marker as a contiguous piece becomes the key of the first
such marker, and any other identifier stays as it is. The empty marker is contained in every
identifier.
-/

namespace AccessRequest

/-- `marker` occurs in `text` as a contiguous piece. -/
def occursIn (marker text : List Char) : Bool :=
  match text with
  | [] => marker.isEmpty
  | c :: rest => marker.isPrefixOf (c :: rest) || occursIn marker rest

/-- The key of the first marker occurring in `raw`, or `raw` itself. -/
def normalizeWith (raw : String) (markers : List (String × String)) : String :=
  match markers.find? (fun (m, _) => occursIn m.toList raw.toList) with
  | some (_, key) => key
  | none => raw

/-- The permission matrix's markers: an operate action, then a find action. -/
def routeKeyMarkers : List (String × String) :=
  [("iaas_resource_operate", "iaas_resource_operate"), ("resource_find", "resource_find")]

/-- A route identifier's permission key under the standard markers. -/
def normalizeRouteKey (raw : String) : String := normalizeWith raw routeKeyMarkers

end AccessRequest
