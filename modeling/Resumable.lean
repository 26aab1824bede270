import Resumable.Budget
import Resumable.Builtin
import Resumable.Code.Basic
import Resumable.Code.Compile
import Resumable.Code.Scope
import Resumable.CommandLine.Arguments
import Resumable.CommandLine.Execution
import Resumable.Decimal
import Resumable.Exception
import Resumable.ExceptionType
import Resumable.FileSystem.Basic
import Resumable.FileSystem.Change
import Resumable.FileSystem.FullPath
import Resumable.FileSystem.Request
import Resumable.Format
import Resumable.Heap.Basic
import Resumable.Heap.Collection
import Resumable.Heap.Comparison
import Resumable.Heap.Conversion
import Resumable.Heap.Iteration
import Resumable.Host.Error
import Resumable.Host.Handle
import Resumable.Host.Handler
import Resumable.Host.Limits
import Resumable.Host.Program
import Resumable.Host.Sandbox
import Resumable.Host.Sharing
import Resumable.Json
import Resumable.Json.Cursor
import Resumable.Json.Reader
import Resumable.Location
import Resumable.Machine.Basic
import Resumable.Machine.Call
import Resumable.Machine.Run
import Resumable.Machine.Step
import Resumable.Main
import Resumable.Number
import Resumable.Object.Basic
import Resumable.Object.Text
import Resumable.Operation.Arguments
import Resumable.Operation.Binary
import Resumable.Operation.Builtins
import Resumable.Operation.ContainerMethods
import Resumable.Operation.Index
import Resumable.Operation.Numerals
import Resumable.Operation.PathMethods
import Resumable.Operation.Sorting
import Resumable.Operation.TextMethods
import Resumable.OsFunction
import Resumable.Output
import Resumable.Path
import Resumable.Program.Lowering
import Resumable.Program.SourceError
import Resumable.Program.Tree
import Resumable.Proofs.Acceptance.Jump
import Resumable.Proofs.Awaiting
import Resumable.Proofs.Boundary
import Resumable.Proofs.CodeSize.Growth
import Resumable.Proofs.Collection
import Resumable.Proofs.Confluence
import Resumable.Proofs.DeclaredNames
import Resumable.Proofs.Dialogue
import Resumable.Proofs.Dicts.Run
import Resumable.Proofs.Discipline.Build
import Resumable.Proofs.Discipline.Expression
import Resumable.Proofs.Discipline.Program
import Resumable.Proofs.Dispatch
import Resumable.Proofs.Endless
import Resumable.Proofs.Exactness
import Resumable.Proofs.FileSystem.Address
import Resumable.Proofs.FileSystem.Answer
import Resumable.Proofs.FileSystem.Change
import Resumable.Proofs.FileSystem.Effect
import Resumable.Proofs.FileSystem.Invariant
import Resumable.Proofs.FileSystem.Kind
import Resumable.Proofs.FileSystem.LastComponent
import Resumable.Proofs.FileSystem.Listing
import Resumable.Proofs.FileSystem.Rename
import Resumable.Proofs.FormatSpec
import Resumable.Proofs.Futures
import Resumable.Proofs.Hosts
import Resumable.Proofs.IntegerLiteral
import Resumable.Proofs.IntegerOrder
import Resumable.Proofs.Invisible
import Resumable.Proofs.Literal
import Resumable.Proofs.Liveness
import Resumable.Proofs.Lockstep.Run
import Resumable.Proofs.Memory
import Resumable.Proofs.Naming.Statement
import Resumable.Proofs.Nesting
import Resumable.Proofs.Order.Sort
import Resumable.Proofs.Positions
import Resumable.Proofs.Range.Iteration
import Resumable.Proofs.Range.Slice
import Resumable.Proofs.Reraising
import Resumable.Proofs.ResultSize
import Resumable.Proofs.Resumption
import Resumable.Proofs.Simulation.Program
import Resumable.Proofs.SingleUse
import Resumable.Proofs.Slicing
import Resumable.Proofs.Sparing
import Resumable.Proofs.Splitting
import Resumable.Proofs.TaggedJson
import Resumable.Proofs.Unfolding
import Resumable.Proofs.Unwinding
import Resumable.Proofs.Utf8
import Resumable.Script
import Resumable.Script.Run
import Resumable.Surface.Expression
import Resumable.Surface.Pattern
import Resumable.Surface.Rule
import Resumable.Surface.Statement
import Resumable.Surface.Tree
import Resumable.Text.CaseMap
import Resumable.Text.CharacterName
import Resumable.Text.Letter
import Resumable.Text.Quoted
import Resumable.Text.Radix
import Resumable.Text.Search
import Resumable.Text.Utf8
import Resumable.Token
import Resumable.Token.Escape
import Resumable.Token.Lexer
import Resumable.Trace
import Resumable.Value.Basic
import Resumable.Value.Key
import Resumable.Proofs.TaggedJson
