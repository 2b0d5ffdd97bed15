import FlowTypes.Anchor
import FlowTypes.Arguments
import FlowTypes.Arguments.Reader
import FlowTypes.Catalog
import FlowTypes.Catalog.Families
import FlowTypes.Catalog.Listing
import FlowTypes.Catalog.Tables
import FlowTypes.CommandLine
import FlowTypes.Config
import FlowTypes.Decimal.Arithmetic
import FlowTypes.Decimal.Binary64
import FlowTypes.Decimal.Numeral
import FlowTypes.Decimal.Shortest
import FlowTypes.FileTree
import FlowTypes.FileTree.Fault
import FlowTypes.FileTree.Glob
import FlowTypes.FileTree.Wildcard
import FlowTypes.Generator
import FlowTypes.Generator.Launcher
import FlowTypes.Idl
import FlowTypes.Main
import FlowTypes.Patch
import FlowTypes.Patching
import FlowTypes.Path
import FlowTypes.Pattern
import FlowTypes.Pattern.Reader
import FlowTypes.Pipeline
import FlowTypes.Problem
import FlowTypes.Proofs.Anchor.Needle
import FlowTypes.Proofs.Anchor.Scanning
import FlowTypes.Proofs.Anchor.Splitting
import FlowTypes.Proofs.Catalog.Anchors
import FlowTypes.Proofs.Catalog.Building
import FlowTypes.Proofs.Catalog.Constants
import FlowTypes.Proofs.Catalog.Drafts
import FlowTypes.Proofs.Catalog.Headers
import FlowTypes.Proofs.Catalog.Independence
import FlowTypes.Proofs.Catalog.Keeping
import FlowTypes.Proofs.Catalog.Listing
import FlowTypes.Proofs.Catalog.Members
import FlowTypes.Proofs.Catalog.Names
import FlowTypes.Proofs.Catalog.Permutation
import FlowTypes.Proofs.Catalog.PhaseOrder
import FlowTypes.Proofs.Catalog.Rerun
import FlowTypes.Proofs.Catalog.Resumption
import FlowTypes.Proofs.Catalog.Standard
import FlowTypes.Proofs.Catalog.Sturdy
import FlowTypes.Proofs.Catalog.Targets
import FlowTypes.Proofs.CommandLine.Exits
import FlowTypes.Proofs.CommandLine.Limits
import FlowTypes.Proofs.Fallible
import FlowTypes.Proofs.FileTree.Child
import FlowTypes.Proofs.FileTree.Closed
import FlowTypes.Proofs.FileTree.Glob
import FlowTypes.Proofs.FileTree.Listing
import FlowTypes.Proofs.FileTree.Mending
import FlowTypes.Proofs.FileTree.PathText
import FlowTypes.Proofs.FileTree.Proper
import FlowTypes.Proofs.FileTree.Reading
import FlowTypes.Proofs.FileTree.Selection
import FlowTypes.Proofs.FileTree.Under
import FlowTypes.Proofs.FileTree.Walk
import FlowTypes.Proofs.FileTree.Writing
import FlowTypes.Proofs.Generator.Arguments
import FlowTypes.Proofs.Generator.Writer
import FlowTypes.Proofs.Idl.Bytes
import FlowTypes.Proofs.Idl.Copy
import FlowTypes.Proofs.Idl.Sanitizing
import FlowTypes.Proofs.Patch.Changing
import FlowTypes.Proofs.Patch.Keeping
import FlowTypes.Proofs.Patch.Literal
import FlowTypes.Proofs.Patch.Parts
import FlowTypes.Proofs.Patch.Places
import FlowTypes.Proofs.Patch.Plan
import FlowTypes.Proofs.Patch.Presence
import FlowTypes.Proofs.Patch.Recurrence
import FlowTypes.Proofs.Patch.Settled
import FlowTypes.Proofs.Patch.Weaving
import FlowTypes.Proofs.Patching.Amending
import FlowTypes.Proofs.Patching.Blocks
import FlowTypes.Proofs.Patching.Changes
import FlowTypes.Proofs.Patching.Commuting
import FlowTypes.Proofs.Patching.Completion
import FlowTypes.Proofs.Patching.Effect
import FlowTypes.Proofs.Patching.Faults
import FlowTypes.Proofs.Patching.Interruption
import FlowTypes.Proofs.Patching.Keeping
import FlowTypes.Proofs.Patching.Outcomes
import FlowTypes.Proofs.Patching.Presence
import FlowTypes.Proofs.Patching.Rest
import FlowTypes.Proofs.Patching.Revision
import FlowTypes.Proofs.Patching.Verdict
import FlowTypes.Proofs.Patching.Writing
import FlowTypes.Proofs.Pattern.Escape
import FlowTypes.Proofs.Pattern.Language
import FlowTypes.Proofs.Pipeline.Calls
import FlowTypes.Proofs.Pipeline.Exits
import FlowTypes.Proofs.Pipeline.Policy
import FlowTypes.Proofs.Pipeline.Rerun
import FlowTypes.Proofs.Text.Apart
import FlowTypes.Proofs.Text.Ascii
import FlowTypes.Proofs.Text.Closed
import FlowTypes.Proofs.Text.Counting
import FlowTypes.Proofs.Text.Encoding
import FlowTypes.Proofs.Text.Gaps
import FlowTypes.Proofs.Text.Lower
import FlowTypes.Proofs.Text.Replacing
import FlowTypes.Proofs.Text.Spans
import FlowTypes.Proofs.Text.Units
import FlowTypes.Report
import FlowTypes.Rule
import FlowTypes.Script.Command
import FlowTypes.Script.Condition
import FlowTypes.Script.Editing
import FlowTypes.Script.Editing.Reader
import FlowTypes.Script.Field
import FlowTypes.Script.Launch
import FlowTypes.Script.Matching
import FlowTypes.Script.Matching.Reader
import FlowTypes.Script.Printing
import FlowTypes.Script.Printing.Gap
import FlowTypes.Script.Process
import FlowTypes.Script.Program
import FlowTypes.Script.Programs
import FlowTypes.Script.Raw
import FlowTypes.Script.Reader
import FlowTypes.Script.Records
import FlowTypes.Script.Records.Pattern
import FlowTypes.Script.Records.Reader
import FlowTypes.Script.Records.Run
import FlowTypes.Script.Records.Session
import FlowTypes.Script.Records.Table
import FlowTypes.Script.Records.Token
import FlowTypes.Script.Records.Value
import FlowTypes.Script.Shell
import FlowTypes.Script.Shell.Builtin
import FlowTypes.Script.Shell.Expansion
import FlowTypes.Script.Shell.Run
import FlowTypes.Script.Shell.Signal
import FlowTypes.Script.Shell.Start
import FlowTypes.Script.Sum
import FlowTypes.Script.System
import FlowTypes.Script.Tool
import FlowTypes.Script.Tool.Blanks
import FlowTypes.Script.Tool.Columns
import FlowTypes.Script.Tool.Counts
import FlowTypes.Script.Tool.Editor
import FlowTypes.Script.Tool.Ends
import FlowTypes.Script.Tool.Files
import FlowTypes.Script.Tool.Finding
import FlowTypes.Script.Tool.Listing
import FlowTypes.Script.Tool.Order
import FlowTypes.Script.Tool.Records
import FlowTypes.Script.Tool.Running
import FlowTypes.Script.Tool.Search
import FlowTypes.Script.Tool.Sorting
import FlowTypes.Script.Tool.Streams
import FlowTypes.Script.Tool.Words
import FlowTypes.Text
import FlowTypes.Text.Class
import FlowTypes.Text.Class.Alphanumeric
import FlowTypes.Text.Class.Blank
import FlowTypes.Text.Class.Casing
import FlowTypes.Text.Class.Unprintable
import FlowTypes.Text.LineEnd
import FlowTypes.Text.Lower
import FlowTypes.Text.Occurrence
import FlowTypes.Text.Quoted
import FlowTypes.Text.Utf8
