import IviLogging.Common
import IviLogging.Application
import IviLogging.Lib.Brackets
import IviLogging.Lib.Buffer
import IviLogging.Lib.CriticalSection
import IviLogging.Lib.Cursor
import IviLogging.Lib.Digits
import IviLogging.Lib.Format
import IviLogging.Lib.LastAt
import IviLogging.Lib.LittleEndian
import IviLogging.Lib.Once
import IviLogging.Lib.Packed
import IviLogging.Lib.PartialVector
import IviLogging.Lib.Printf
import IviLogging.Lib.Transition
import IviLogging.Lib.Utf8
import IviLogging.DltCpp.DltUser
import IviLogging.DltCpp.LogData
import IviLogging.DltCpp.Verbose
import IviLogging.DltCpp.Proofs.LogData
import IviLogging.DltCpp.Frames
import IviLogging.DltCpp.Proofs.Payload
import IviLogging.DltCpp.Proofs.Framing
import IviLogging.DltCpp.Connection
import IviLogging.DltCpp.Control
import IviLogging.DltCpp.Proofs.Reader
import IviLogging.DltCpp.Proofs.Registration
import IviLogging.DltCpp.Proofs.Levels
import IviLogging.DltCpp.Logging
import IviLogging.DltCpp.Proofs.Logging
import IviLogging.DltCpp.Proofs.Counter
import IviLogging.DltCpp.Proofs.Statements
import IviLogging.DltCpp.Proofs.LevelControl
import IviLogging.DltCpp.Lifetimes
import IviLogging.DltCpp.Proofs.Lifetimes
import IviLogging.DltCpp.Accesses
import IviLogging.DltCpp.Proofs.Accesses
import IviLogging.DltCpp.Proofs.TornFrames
import IviLogging.DltCpp.Threads
import IviLogging.DltCpp.Proofs.Threads
import IviLogging.DltCpp.Proofs.Grammar
import IviLogging.DltCpp.Proofs.Truncation
import IviLogging.DltCpp.Proofs.Strings
import IviLogging.DltCpp.Proofs.Fields
import IviLogging.DltCpp.Proofs.DefaultIds
import IviLogging.DltCpp.Trace
import IviLogging.DltCpp.Proofs.Trace
import IviLogging.LogEntry
import IviLogging.LogContext
import IviLogging.Proofs.LogContext
import IviLogging.Utils.ByteArray
import IviLogging.Utils.Proofs.ByteArray
import IviLogging.Utils.Proofs.Guards
import IviLogging.Utils.HexText
import IviLogging.Utils.Proofs.HexText
import IviLogging.Stream.StreamLogData
import IviLogging.Stream.Line
import IviLogging.Stream.Proofs.Pieces
import IviLogging.Stream.Proofs.Prefix
import IviLogging.Stream.Proofs.Outcomes
import IviLogging.Stream.Proofs.Records
import IviLogging.Stream.Proofs.Content
import IviLogging.Stream.Proofs.Atomicity
import IviLogging.Stream.Proofs.Runs
import IviLogging.Stream.Proofs.Suffix
import IviLogging.Stream.Proofs.Layout
import IviLogging.Stream.Proofs.Colours
import IviLogging.Stream.ConsoleContext
import IviLogging.Stream.Proofs.ConsoleContext
import IviLogging.ThreadNumbers
import IviLogging.Stream.Time
import IviLogging.Stream.Proofs.Time
import IviLogging.Stream.Output
import IviLogging.Stream.Proofs.Output
import IviLogging.NativeValue
import IviLogging.ContextTypes
import IviLogging.Dlt.Context
import IviLogging.Dlt.Proofs.Arguments
import IviLogging.Proofs.Invariants
import IviLogging.Dlt.Proofs.Protocol
import IviLogging.Proofs.ContextTypes
import IviLogging.DltCpp.Proofs.Uncounted
import IviLogging.DltCpp.Proofs.Programs
import IviLogging.Proofs.Agreement
import IviLogging.Backtrace
import IviLogging.Proofs.Backtrace
import IviLogging.Value
import IviLogging.Tokens
import IviLogging.Proofs.Values
import IviLogging.Proofs.DefaultEntry
import IviLogging.Proofs.Shapes
