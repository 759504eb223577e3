import RuleFilter.Traced
import RuleFilter.Argument.Coercion
import RuleFilter.Argument.Operand
import RuleFilter.FieldList
import RuleFilter.Identifier

/-! # Plans

The plan of a rule tree is a filter with values on the right of its comparisons: the groups are
those of the tree, and the leaves are its rules. Leaves that are no rules are left out. Planning
visits the tree in document order, a group before its rules, and stops at the first error. -/

namespace RuleFilter

/-- What rules are compiled with. -/
structure Compiler where
  operators : OperatorTable
  settings : Settings
  /-- The fields that rules may refer to; any path if there is no list. -/
  fields : Option FieldList

/-- A filter over values, with the groups of the rule tree it is made from. -/
abbrev Plan := Filter Value

namespace FieldList

/-- Refuses a field that is not in a list, if there is one. -/
def check (fields : Option FieldList) (field : String) : Except CompileError Unit :=
  match fields with
  | some list => if list.contains field then .ok () else .error (.fieldNotListed field)
  | none => .ok ()

end FieldList

namespace Compiler

/-- Refuses a field that may not stand in SQL text: one that is not listed, or, where there is no
list, one that is no path. -/
def checkField (compiler : Compiler) (field : String) : Except CompileError Unit := do
  FieldList.check compiler.fields field
  if compiler.fields.isNone && !Identifier.isPath field then .error (.fieldNotPath field)
  else .ok ()

/-- The connective of a group: the one that its condition names, or the default. -/
def connectiveOf (compiler : Compiler) : Option String → Except CompileError Connective
  | none => .ok compiler.settings.defaultCondition
  | some text =>
    match Connective.read? text with
    | some connective => .ok connective
    | none => .error (.unknownCondition text)

/-- The comparison that a rule asks for. -/
def comparison (compiler : Compiler) (rule : Rule) : Except CompileError (Predicate Value) := do
  compiler.checkField rule.field
  let (o, argument) ← rule.coerce compiler.operators compiler.settings
  o.compare rule.field argument

/-- The plan of a leaf; none if it is no rule. -/
def planLeaf (compiler : Compiler) (members : Option Members) : Traced (Option Plan) :=
  match Rule.ofLeaf compiler.operators members with
  | .error reason => do
    Traced.tell (.skipped (displayId members) reason)
    return none
  | .ok rule => do
    let predicate ← Traced.lift (compiler.comparison rule)
    return some (.leaf predicate)

mutual

/-- The plan of a node. -/
def plan (compiler : Compiler) : RuleNode → Traced (Option Plan)
  | .leaf members => compiler.planLeaf members
  | .group condition rules => do
    let connective ← Traced.lift (compiler.connectiveOf condition)
    Traced.tell (.enteredGroup connective rules.length)
    let parts ← planAll compiler rules
    return some (.group connective parts)

/-- The plans of nodes in their order. -/
def planAll (compiler : Compiler) : List RuleNode → Traced (List Plan)
  | [] => return []
  | node :: rest => do
    let first ← compiler.plan node
    let others ← planAll compiler rest
    return first.toList ++ others

end

end Compiler

end RuleFilter
