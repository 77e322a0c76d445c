import AccessRequest.Binary64.Basic

/-!
JSON values as the reader produces them. A number is a non-negative integer below `2 ^ 64`, a
negative integer of at least `-2 ^ 63`, or a finite binary64 number; an object keeps its members
sorted by key, one member per key, so a later member of the same key replaces an earlier one.
-/

namespace AccessRequest.Json

/-- A JSON number: an unsigned or a negative 64-bit integer, or a binary64 number. -/
inductive Number where
  | nat (n : UInt64)
  | neg (n : Int64)
  | float (x : Binary64)
  deriving DecidableEq, Repr

/-- A JSON value. Object members are sorted by key, with no key twice. -/
inductive Value where
  | null
  | bool (b : Bool)
  | number (n : Number)
  | string (s : String)
  | array (items : List Value)
  | object (members : List (String × Value))
  deriving Repr

/-- An object's members, sorted by key, with one member per key. -/
abbrev Members := List (String × Value)

namespace Members

/-- The value of key `k`. -/
def get? (k : String) : Members → Option Value
  | [] => none
  | (k', v) :: rest => if k = k' then some v else get? k rest

/-- Of neighbouring pairs with one key, the first. -/
def firstOfRuns : List (String × Value) → List (String × Value)
  | a :: b :: rest => if a.1 = b.1 then firstOfRuns (a :: rest) else a :: firstOfRuns (b :: rest)
  | l => l
termination_by l => l.length

/-- Members from pairs listed latest first: sorted by key, and of the pairs with one key the
first listed. The sort is stable, so that pair leads the run of its key. -/
def ofLatestFirst (pairs : List (String × Value)) : Members :=
  firstOfRuns (pairs.mergeSort fun a b => decide (a.1 ≤ b.1))

/-- Members from pairs read in order: a later pair of a key wins. -/
def ofPairs (pairs : List (String × Value)) : Members := ofLatestFirst pairs.reverse

end Members

namespace Value

/-- The value is JSON `null`. -/
def isNull : Value → Bool
  | .null => true
  | _ => false

end Value

end AccessRequest.Json
