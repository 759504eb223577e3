import RuleFilter.Json.Printer

/-! # Rule trees

A payload is a tree of groups and leaves. A document is a group iff it is an object with a
non-empty array under `rules`; everything else is a leaf, even where it could not be a rule. -/

namespace RuleFilter

/-- A node of a rule tree. A leaf has its members if it is an object. -/
inductive RuleNode where
  | leaf (members : Option Members)
  | group (condition : Option String) (rules : List RuleNode)

namespace RuleNode

/-- The condition of a group as text. A condition that is no text stands as its document text,
which no connective is written as; null counts as absent. -/
def conditionIn (members : Members) : Option String :=
  match members.lookup "condition" with
  | none | some .null => none
  | some (.str s) => some s
  | some other => some other.text

mutual

/-- The rule tree of a document. -/
def ofJson : Json → RuleNode
  | .obj members =>
    match rulesIn members with
    | [] => .leaf (some members)
    | rules => .group (conditionIn members) rules
  | _ => .leaf none

/-- The rules of an object; none unless there is an array of them. -/
def rulesIn : Members → List RuleNode
  | [] => []
  | (key, .arr items) :: rest => if key = "rules" then ofItems items else rulesIn rest
  | (key, _) :: rest => if key = "rules" then [] else rulesIn rest

/-- The rule trees of items. -/
def ofItems : List Json → List RuleNode
  | [] => []
  | item :: rest => ofJson item :: ofItems rest

end

end RuleNode

/-- The identifier of a leaf as it is shown in the log. -/
def displayId (members : Option Members) : String :=
  match members.bind (·.lookup "id") with
  | none => "<none>"
  | some (.str s) => s
  | some other => other.text

end RuleFilter
