import RuleFilter.Main
import RuleFilter.Proofs.Collapse
import RuleFilter.Proofs.Labelling
import RuleFilter.Proofs.Arguments
import RuleFilter.Proofs.Drafting
import RuleFilter.Proofs.Planning
import RuleFilter.Proofs.Delivery
import RuleFilter.Proofs.Protocol
import RuleFilter.Proofs.QueryCalls
import RuleFilter.Proofs.Template
import RuleFilter.Proofs.Rendering
import RuleFilter.Proofs.Splitting
import RuleFilter.Proofs.Session
import RuleFilter.Proofs.Meaning
import RuleFilter.Proofs.Outline
import RuleFilter.Proofs.Idle
import RuleFilter.Proofs.Conditions
import RuleFilter.Proofs.Faults
import RuleFilter.Proofs.Inert
import RuleFilter.Proofs.Authorised
import RuleFilter.Proofs.Renaming
import RuleFilter.Proofs.Clause.Spelling
import RuleFilter.Proofs.Clause.Comparing
import RuleFilter.Proofs.Clause.Grammar
import RuleFilter.Proofs.Clause.Reader
import RuleFilter.Proofs.Combining
import RuleFilter.Proofs.Accounting
import RuleFilter.Proofs.Quoting
import RuleFilter.Proofs.Statement
import RuleFilter.Proofs.Emission
import RuleFilter.Proofs.Items
import RuleFilter.Proofs.Literals
import RuleFilter.Proofs.Integers
import RuleFilter.Proofs.OwnTexts
import RuleFilter.Proofs.Storing
import RuleFilter.Proofs.Reporting
import RuleFilter.Proofs.Running
import RuleFilter.Proofs.Searching
import RuleFilter.Proofs.Paths
import RuleFilter.Proofs.Walking
import RuleFilter.Proofs.Document.Values
