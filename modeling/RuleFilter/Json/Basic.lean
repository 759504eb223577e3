import RuleFilter.Binary64.Rounding

/-! # Documents

A document is a JSON value. An integer that fits 64 bits, signed or unsigned, is kept as an
integer, every other number as a double. The members of an object are kept in the order of the
list; `Json.canonical` sorts them by key, the last of several members with one key winning. -/

namespace RuleFilter

/-- A number of a document. -/
inductive Number where
  | int (n : Int)
  | float (x : Binary64)
  deriving DecidableEq

namespace Number

/-- The number as a signed 64-bit integer, if it was written as one. -/
def toInt64? : Number → Option Int64
  | .int n => int64? n
  | .float _ => none

/-- The nearest double. -/
def toBinary64 : Number → Binary64
  | .int n => .ofInt n
  | .float x => x

end Number

/-- A value of a document. -/
inductive Json where
  | null
  | bool (b : Bool)
  | num (n : Number)
  | str (s : String)
  | arr (items : List Json)
  | obj (members : List (String × Json))

/-- The members of an object. -/
abbrev Members := List (String × Json)

namespace Json

/-! ### Canonical form -/

/-- Sets a key in a list of members sorted by key. -/
def put (key : String) (value : Json) : Members → Members
  | [] => [(key, value)]
  | (k, v) :: rest =>
    if key < k then (key, value) :: (k, v) :: rest
    else if key = k then (key, value) :: rest
    else (k, v) :: put key value rest

mutual

/-- The document with the members of every object sorted by key, each key once. -/
def canonical : Json → Json
  | .arr items => .arr (canonicalItems items)
  | .obj members => .obj (canonicalMembers members [])
  | value => value

/-- The canonical forms of items. -/
def canonicalItems : List Json → List Json
  | [] => []
  | item :: rest => item.canonical :: canonicalItems rest

/-- The sorted members, with further members put among them one after the other. -/
def canonicalMembers : Members → Members → Members
  | [], sorted => sorted
  | (key, value) :: rest, sorted => canonicalMembers rest (put key value.canonical sorted)

end

end Json

end RuleFilter
