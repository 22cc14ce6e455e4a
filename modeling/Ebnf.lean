import Ebnf.Unicode.CharSet
import Ebnf.Unicode.Category
import Ebnf.Unicode.Script
import Ebnf.Unicode.CaseFolding
import Ebnf.Unicode.Derived
import Ebnf.Unicode.Property
import Ebnf.Unicode.Age
import Ebnf.Unicode.Boundary
import Ebnf.Unicode.Character
import Ebnf.Fault
import Ebnf.Text.Utf8
import Ebnf.Text.Quoted
import Ebnf.Text.Identifier
import Ebnf.Grammar.Expr
import Ebnf.Grammar.Basic
import Ebnf.Model.Id
import Ebnf.Model.Unseen
import Ebnf.Model.Basic
import Ebnf.Model.Edit
import Ebnf.Model.Attributes
import Ebnf.Model.Hierarchy
import Ebnf.Model.Tree
import Ebnf.Model.ValueType
import Ebnf.Model.Printer
import Ebnf.Model.Issue
import Ebnf.Event
import Ebnf.Build.Draft
import Ebnf.Build.Skeleton
import Ebnf.Build.Naming
import Ebnf.Build.Body
import Ebnf.Build.Alternative
import Ebnf.Build.Subs
import Ebnf.Build.Pipeline
import Ebnf.Json
import Ebnf.View.Basic
import Ebnf.View.Export
import Ebnf.Ordered
import Ebnf.Reading.Node
import Ebnf.Reading.Failure
import Ebnf.Reading.Engine
import Ebnf.Reading.Cursor
import Ebnf.Reading.Program
import Ebnf.Reading.Run
import Ebnf.Regex.Error
import Ebnf.Regex.Ast
import Ebnf.Regex.Input
import Ebnf.Regex.Property
import Ebnf.Regex.Escape
import Ebnf.Regex.ClassParser
import Ebnf.Regex.Parser
import Ebnf.Regex.Look
import Ebnf.Regex.Pattern
import Ebnf.Regex.Resolve
import Ebnf.Regex.Bytes
import Ebnf.Regex.Size
import Ebnf.Regex.Automaton
import Ebnf.Regex.Search
import Ebnf.Regex.Basic
import Ebnf.Proofs.Step
import Ebnf.Proofs.Naming
import Ebnf.Proofs.Plan
import Ebnf.Proofs.Layout
import Ebnf.Proofs.Compile
import Ebnf.Proofs.Arena
import Ebnf.Proofs.Site
import Ebnf.Proofs.Stages
import Ebnf.Proofs.Hierarchy
import Ebnf.Proofs.Pipeline
import Ebnf.Proofs.Issues
import Ebnf.Proofs.Program
import Ebnf.Proofs.Recognition
import Ebnf.Proofs.Simulation
import Ebnf.Proofs.Bounds
import Ebnf.Proofs.Records
import Ebnf.Proofs.Types
import Ebnf.Proofs.Typing
import Ebnf.Proofs.Marks
import Ebnf.Proofs.Instances
import Ebnf.Proofs.Presence
import Ebnf.Proofs.Course
import Ebnf.Proofs.Exports
import Ebnf.Proofs.Kept
import Ebnf.Proofs.Shape
import Ebnf.Proofs.Pairing
import Ebnf.Proofs.Twins
import Ebnf.Proofs.Lockstep
import Ebnf.Proofs.Agreement
import Ebnf.Proofs.Congruence
import Ebnf.Proofs.Reordering
import Ebnf.Proofs.Registration
import Ebnf.Proofs.Discovery
import Ebnf.Proofs.TypeNames
import Ebnf.Proofs.Faults
import Ebnf.Proofs.Collapse
import Ebnf.Proofs.Leaves
import Ebnf.Proofs.Ownership
import Ebnf.Proofs.Destinations
import Ebnf.Proofs.Backtracking
import Ebnf.Proofs.Depth
import Ebnf.Proofs.Misses
import Ebnf.Proofs.FirstRules
import Ebnf.Proofs.StoredRules
import Ebnf.Proofs.Regrouping
import Ebnf.Proofs.Outcome
import Ebnf.Proofs.Numbering
import Ebnf.Proofs.Resolution
import Ebnf.Proofs.Rounds
import Ebnf.Proofs.LeadingSpace
import Ebnf.Proofs.Identifiers
import Ebnf.Proofs.Quoting
import Ebnf.Proofs.JsonText
import Ebnf.Proofs.Compact
import Ebnf.Proofs.Machine
import Ebnf.Proofs.Halting
import Ebnf.Proofs.Forest
import Ebnf.Proofs.Ascent
import Ebnf.Proofs.Changes
