import ComponentViews.Blueprint.Check
import ComponentViews.Blueprint.Json
import ComponentViews.Blueprint.Syntax
import ComponentViews.ClassFile.Basic
import ComponentViews.ClassFile.Constant
import ComponentViews.ClassFile.Instruction
import ComponentViews.ClassFile.Json
import ComponentViews.ClassFile.Listing
import ComponentViews.ClassFile.Opcode
import ComponentViews.ClassFile.Pool
import ComponentViews.ClassFile.Reader
import ComponentViews.ClassFile.Word
import ComponentViews.Code.Assembly
import ComponentViews.Code.Draft
import ComponentViews.Code.Emission
import ComponentViews.Code.Lowering
import ComponentViews.Code.Range
import ComponentViews.CommandLine.Arguments
import ComponentViews.CommandLine.FileTree
import ComponentViews.CommandLine.Host
import ComponentViews.CommandLine.Path
import ComponentViews.CommandLine.Program
import ComponentViews.CommandLine.Report
import ComponentViews.DispatchTable
import ComponentViews.Execution.Environment
import ComponentViews.Execution.Interpreter
import ComponentViews.Execution.Json
import ComponentViews.Execution.Loopback
import ComponentViews.Execution.Recorder
import ComponentViews.Execution.Value
import ComponentViews.Failures
import ComponentViews.Failures.Json
import ComponentViews.Generation
import ComponentViews.Hierarchy.Basic
import ComponentViews.Hierarchy.Standard
import ComponentViews.HomeOperation
import ComponentViews.Json.Basic
import ComponentViews.Json.Numbers
import ComponentViews.Json.Parser
import ComponentViews.Json.Printer
import ComponentViews.Known
import ComponentViews.Main
import ComponentViews.Modifiers
import ComponentViews.Operation
import ComponentViews.Proofs.Blueprint
import ComponentViews.Proofs.Checks
import ComponentViews.Proofs.ClassFile.Canonical
import ComponentViews.Proofs.ClassFile.Decoding
import ComponentViews.Proofs.ClassFile.Instruction
import ComponentViews.Proofs.ClassFile.ModifiedUtf8
import ComponentViews.Proofs.ClassFile.Pool
import ComponentViews.Proofs.ClassFile.PoolRuns
import ComponentViews.Proofs.ClassFile.Reading
import ComponentViews.Proofs.Code.Assembly
import ComponentViews.Proofs.Code.Bodies
import ComponentViews.Proofs.Code.Directives
import ComponentViews.Proofs.Code.Discipline
import ComponentViews.Proofs.Code.Emission
import ComponentViews.Proofs.Code.Ending
import ComponentViews.Proofs.Code.Exits
import ComponentViews.Proofs.Code.Expressions
import ComponentViews.Proofs.Code.Finish
import ComponentViews.Proofs.Code.Growth
import ComponentViews.Proofs.Code.Kinded
import ComponentViews.Proofs.Code.Kinds
import ComponentViews.Proofs.Code.Lines
import ComponentViews.Proofs.Code.Machine
import ComponentViews.Proofs.Code.Patching
import ComponentViews.Proofs.Code.Pushes
import ComponentViews.Proofs.Code.Range
import ComponentViews.Proofs.Code.Regions
import ComponentViews.Proofs.Code.Sizes
import ComponentViews.Proofs.Code.Sketch
import ComponentViews.Proofs.Code.Statements
import ComponentViews.Proofs.Code.Steps
import ComponentViews.Proofs.Code.Typing
import ComponentViews.Proofs.Code.Walk
import ComponentViews.Proofs.Code.Weight
import ComponentViews.Proofs.Descriptor
import ComponentViews.Proofs.Descriptor.Slots
import ComponentViews.Proofs.DispatchTable
import ComponentViews.Proofs.DispatchTable.Numbering
import ComponentViews.Proofs.Distinct
import ComponentViews.Proofs.Execution.CallLog
import ComponentViews.Proofs.Execution.Copies
import ComponentViews.Proofs.Execution.Creation
import ComponentViews.Proofs.Execution.DispatchCalls
import ComponentViews.Proofs.Execution.Effect
import ComponentViews.Proofs.Execution.Ending
import ComponentViews.Proofs.Execution.Exchange
import ComponentViews.Proofs.Execution.ExitHooks
import ComponentViews.Proofs.Execution.Heap
import ComponentViews.Proofs.Execution.Loans
import ComponentViews.Proofs.Execution.Loopback
import ComponentViews.Proofs.Execution.Marshalling
import ComponentViews.Proofs.Execution.OperationLookup
import ComponentViews.Proofs.Execution.Relay
import ComponentViews.Proofs.Execution.RemoteCall
import ComponentViews.Proofs.Execution.RemoteFailure
import ComponentViews.Proofs.Execution.Routing
import ComponentViews.Proofs.Execution.Skeleton
import ComponentViews.Proofs.Execution.SkeletonFailures
import ComponentViews.Proofs.Execution.Stub
import ComponentViews.Proofs.Execution.WorkerFailures
import ComponentViews.Proofs.Execution.Workers
import ComponentViews.Proofs.Failures
import ComponentViews.Proofs.Failures.Handling
import ComponentViews.Proofs.Generation
import ComponentViews.Proofs.Hierarchy.Search
import ComponentViews.Proofs.Hierarchy.Standard
import ComponentViews.Proofs.Hierarchy.Subtyping
import ComponentViews.Proofs.Json.Records
import ComponentViews.Proofs.Json.Writing
import ComponentViews.Proofs.Kinds
import ComponentViews.Proofs.Kinds.Dispatch
import ComponentViews.Proofs.Kinds.HomeImplementation
import ComponentViews.Proofs.Kinds.Skeleton
import ComponentViews.Proofs.Kinds.Stub
import ComponentViews.Proofs.Kinds.Wrapper
import ComponentViews.Proofs.Names
import ComponentViews.Proofs.Plain
import ComponentViews.Proofs.Request.Json
import ComponentViews.Proofs.Request.Spelling
import ComponentViews.Proofs.Room.Dispatch
import ComponentViews.Proofs.Room.HomeImplementation
import ComponentViews.Proofs.Room.Remote
import ComponentViews.Proofs.Rules.Home
import ComponentViews.Proofs.Rules.References
import ComponentViews.Proofs.Synthesis.Aggregation
import ComponentViews.Proofs.Synthesis.Classes
import ComponentViews.Proofs.Synthesis.Dispatch
import ComponentViews.Proofs.Synthesis.HomeImplementation
import ComponentViews.Proofs.Synthesis.Linkage
import ComponentViews.Proofs.Synthesis.Mediation
import ComponentViews.Proofs.Synthesis.Remote
import ComponentViews.Proofs.Synthesis.Skeleton
import ComponentViews.Proofs.Synthesis.Stub
import ComponentViews.Proofs.Synthesis.Wrapper
import ComponentViews.Proofs.Table
import ComponentViews.Proofs.Totality
import ComponentViews.Proofs.Verification.Code
import ComponentViews.Proofs.Verification.Emission
import ComponentViews.Proofs.Verification.Lowering
import ComponentViews.Proofs.Verification.Variables
import ComponentViews.Proofs.WireName
import ComponentViews.Proofs.WireName.Accessors
import ComponentViews.Proofs.WireName.Alias
import ComponentViews.Proofs.WireName.Conflicts
import ComponentViews.Proofs.WireName.Identifier
import ComponentViews.Proofs.WireName.Legal
import ComponentViews.Proofs.WireName.Order
import ComponentViews.Proofs.WireName.Property
import ComponentViews.Proofs.WireName.Words
import ComponentViews.Request.Basic
import ComponentViews.Request.Hierarchy
import ComponentViews.Request.Json
import ComponentViews.Rules.Home
import ComponentViews.Rules.Interfaces
import ComponentViews.Rules.Violation
import ComponentViews.Settings.Basic
import ComponentViews.Settings.Toml
import ComponentViews.Synthesis.Basic
import ComponentViews.Synthesis.Container
import ComponentViews.Synthesis.Dispatch
import ComponentViews.Synthesis.Exposure
import ComponentViews.Synthesis.HomeImplementation
import ComponentViews.Synthesis.HomeMethod
import ComponentViews.Synthesis.Marshalling
import ComponentViews.Synthesis.Parts
import ComponentViews.Synthesis.Skeleton
import ComponentViews.Synthesis.Stub
import ComponentViews.Synthesis.Wrapper
import ComponentViews.Table
import ComponentViews.Text.Affix
import ComponentViews.Text.Blank
import ComponentViews.Text.Case
import ComponentViews.Text.Case.Tables
import ComponentViews.Text.Dotted
import ComponentViews.Text.Hex
import ComponentViews.Text.ModifiedUtf8
import ComponentViews.Text.Quoted
import ComponentViews.Text.Quoted.Tables
import ComponentViews.Text.Utf16
import ComponentViews.Toml.Document
import ComponentViews.Toml.Value
import ComponentViews.Ty.Basic
import ComponentViews.Ty.Descriptor
import ComponentViews.Ty.DescriptorGrammar
import ComponentViews.Ty.Json
import ComponentViews.Ty.Primitive
import ComponentViews.Verification.Basic
import ComponentViews.Verification.Code
import ComponentViews.Verification.Pool
import ComponentViews.ViewKind
import ComponentViews.WireName.Assign
import ComponentViews.WireName.Basic
import ComponentViews.WireName.Idl
import ComponentViews.WireName.Property
