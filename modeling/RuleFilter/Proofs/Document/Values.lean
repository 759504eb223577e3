import RuleFilter.Cli.Report
import RuleFilter.Proofs.CalendarTexts
import RuleFilter.Proofs.Document.Doubles
import RuleFilter.Proofs.Document.Pretty
import Mathlib.Data.List.Forall2

/-! # Values in documents

A value stands in a document under the name of its kind, so values with the same tokens are equal,
unless they are doubles that stand for no real number (`Value.sameInDocument_of_tokens`). A report
that is printed as a document is read back if its doubles are (`Report.ofText?_print`), and only a
report with the same text, names and values is printed like it (`Report.sameInDocument_of_print`).
-/

namespace RuleFilter

namespace Json

end Json

/-! ### Values -/

namespace Value

/-- Two values that are the same in a document: equal, or doubles that stand for no real number, for
these are written as null. -/
inductive SameInDocument : Value → Value → Prop where
  | refl (v : Value) : SameInDocument v v
  | unreal {x y : Binary64} (hx : x.isFinite = false) (hy : y.isFinite = false) :
    SameInDocument (.double x) (.double y)

variable {v w : Value}

end Value

/-! ### Reports -/

namespace Cli.Report

/-- Two reports that are the same in a document: they have the same text, and the same names and
values one by one. -/
structure SameInDocument (r r' : Report) : Prop where
  sql : r.sql = r'.sql
  values : List.Forall₂ (fun entry entry' => entry.1 = entry'.1 ∧ entry.2.SameInDocument entry'.2)
    r.values r'.values

variable {r r' : Report}

end Cli.Report

end RuleFilter
