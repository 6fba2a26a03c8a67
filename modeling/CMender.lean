import CMender.Foundations.Delimiters
import CMender.Foundations.DepthFirst
import CMender.Foundations.Digraph
import CMender.Foundations.Execution
import CMender.Foundations.Heap
import CMender.Foundations.Interleaving
import CMender.Foundations.Json
import CMender.Foundations.Lines
import CMender.Foundations.Lockstep
import CMender.Foundations.Looping
import CMender.Foundations.Maps
import CMender.Foundations.Memo
import CMender.Foundations.PriorityQueue
import CMender.Foundations.Regex
import CMender.Foundations.Removal
import CMender.Foundations.Scheduling
import CMender.Foundations.Substitution
import CMender.Foundations.Text
import CMender.Foundations.Tokens
import CMender.Foundations.Volumes
import CMender.Runtime
import CMender.Lang.Operators
import CMender.Lang.Reading
import CMender.Lang.Symbols
import CMender.Lang.Types
import CMender.Diag.Classes
import CMender.Diag.Diagnostic
import CMender.Diag.Reading
import CMender.Exporter.Action
import CMender.Exporter.Allocator
import CMender.Exporter.ClangTypes
import CMender.Exporter.CommandLine
import CMender.Exporter.Consumer
import CMender.Exporter.Counts
import CMender.Exporter.Declarations
import CMender.Exporter.Labels
import CMender.Exporter.RoundTrip
import CMender.Exporter.Spelling
import CMender.Exporter.Threads
import CMender.Exporter.TypeCache
import CMender.Exporter.TypeNames
import CMender.Exporter.TypeRoundTrip
import CMender.Mending.Cycles
import CMender.Mending.DeclareBeforeUse
import CMender.Mending.Dependencies
import CMender.Mending.Failures
import CMender.Mending.Files
import CMender.Mending.GraphExact
import CMender.Mending.Growth
import CMender.Mending.Handlers
import CMender.Mending.Headers
import CMender.Mending.Locks
import CMender.Mending.Missing
import CMender.Mending.Names
import CMender.Mending.Operands
import CMender.Mending.Orders
import CMender.Mending.OrdinaryNames
import CMender.Mending.Ownership
import CMender.Mending.Plain
import CMender.Mending.SharedNames
import CMender.Mending.Sides
import CMender.Mending.Steps
import CMender.Mending.Subscripts
import CMender.Mending.Supply
import CMender.Mending.Table
import CMender.Mending.TypeTraversals
import CMender.Mending.UsedTypes
import CMender.Mending.WellFormed
import CMender.Mending.Writing
import CMender.Analysis.Batches
import CMender.Analysis.ExportedCounts
import CMender.Analysis.KeepFirst
import CMender.Analysis.Located
import CMender.Analysis.Messages
import CMender.Analysis.OneKind
import CMender.Analysis.Selecting
import CMender.Analysis.Selection
import CMender.Analysis.SimilarNames
import CMender.Engine.Accounting
import CMender.Engine.BatchTermination
import CMender.Engine.Continuing
import CMender.Engine.Execute
import CMender.Engine.FalseSuccess
import CMender.Engine.Inputs
import CMender.Engine.Iterations
import CMender.Engine.Launcher
import CMender.Engine.Loop
import CMender.Engine.Mendfile
import CMender.Engine.OnDisk
import CMender.Engine.Orders
import CMender.Engine.Pool
import CMender.Engine.Result
import CMender.Engine.Returns
import CMender.Engine.SharedFrequency
import CMender.Engine.SourceCopy
import CMender.Engine.Success
import CMender.Engine.Termination
import CMender.Engine.Unchanged
import CMender.Engine.UnknownCounts
import CMender.Dataset.Directives
import CMender.Dataset.Includes
import CMender.Dataset.ParentDirectories
import CMender.Dataset.Preparation
