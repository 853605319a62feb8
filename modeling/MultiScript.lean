import MultiScript.StackBalance
import MultiScript.HandleIndependence
import MultiScript.CallbackArguments
import MultiScript.PopInt
import MultiScript.ParamCount
import MultiScript.CallingThread
import MultiScript.FunctionCalls
import MultiScript.Nesting
import MultiScript.Registration
import MultiScript.NewObjects
import MultiScript.Dispatch
import MultiScript.UnitTables
import MultiScript.Reentrancy
import MultiScript.Isolation
import MultiScript.WrapperLifetime
import MultiScript.DestroyedObjects
import MultiScript.InstanceBinding
import MultiScript.Diagnostics
import MultiScript.PopObject
import MultiScript.FunctionLookup
import MultiScript.Printing
import MultiScript.OutputBuffers
import MultiScript.SourceFile
import MultiScript.StringLengths
import MultiScript.IntRoundTrip
import MultiScript.SmartPointers
import MultiScript.DllCheck
import MultiScript.Ocaml.Primitives
import MultiScript.Ocaml.ChannelMemory
import MultiScript.OutOfMemory
import MultiScript.LatestRegistration
import MultiScript.SeveralResults
import MultiScript.VmThreads
import MultiScript.StackCapacity
import MultiScript.OptionalLogger
import MultiScript.ScriptReader
import MultiScript.Squirrel.Scan
import MultiScript.Squirrel.Lines
import MultiScript.Squirrel.Lexemes
import MultiScript.Lib.File
import MultiScript.Ocaml.InputChannel
import MultiScript.Ocaml.OutputChannel
import MultiScript.Ocaml.Heap
import MultiScript.Ocaml.Format
import MultiScript.Ocaml.Extern
import MultiScript.Ocaml.Intern
import MultiScript.Ocaml.Marshal
import MultiScript.Ocaml.Executable
import MultiScript.GameMonkey.Scheduler
