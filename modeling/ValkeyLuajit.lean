import ValkeyLuajit.Library.BigEndian
import ValkeyLuajit.Library.Block
import ValkeyLuajit.Library.Custody
import ValkeyLuajit.Library.Decimal
import ValkeyLuajit.Library.Dictionary
import ValkeyLuajit.Library.InputMachine
import ValkeyLuajit.Library.Interchange
import ValkeyLuajit.Library.Json
import ValkeyLuajit.Library.Ledger
import ValkeyLuajit.Library.Limbs
import ValkeyLuajit.Library.Noninterference
import ValkeyLuajit.Library.Reach
import ValkeyLuajit.Library.Reader
import ValkeyLuajit.Library.Reservation
import ValkeyLuajit.Library.Scientific
import ValkeyLuajit.Library.SecureHash
import ValkeyLuajit.Library.Sink
import ValkeyLuajit.Library.Trim
import ValkeyLuajit.Lua.Api
import ValkeyLuajit.Lua.Depth
import ValkeyLuajit.Lua.Double
import ValkeyLuajit.Lua.Effect
import ValkeyLuajit.Lua.Recorded
import ValkeyLuajit.Lua.Traced
import ValkeyLuajit.Lua.Value
import ValkeyLuajit.Script.Arguments
import ValkeyLuajit.Script.Assertions
import ValkeyLuajit.Script.Call
import ValkeyLuajit.Script.CallReply
import ValkeyLuajit.Script.Cast
import ValkeyLuajit.Script.CastSites
import ValkeyLuajit.Script.Command
import ValkeyLuajit.Script.Context
import ValkeyLuajit.Script.Dialogue
import ValkeyLuajit.Script.Digest
import ValkeyLuajit.Script.Effects
import ValkeyLuajit.Script.Encoding
import ValkeyLuajit.Script.Error
import ValkeyLuajit.Script.ErrorReply
import ValkeyLuajit.Script.Execution
import ValkeyLuajit.Script.Handling
import ValkeyLuajit.Script.InPlace
import ValkeyLuajit.Script.Interval
import ValkeyLuajit.Script.Log
import ValkeyLuajit.Script.NotedReply
import ValkeyLuajit.Script.Numeral
import ValkeyLuajit.Script.Pcall
import ValkeyLuajit.Script.RandWords
import ValkeyLuajit.Script.Random
import ValkeyLuajit.Script.Rendering
import ValkeyLuajit.Script.Reply
import ValkeyLuajit.Script.Reporting
import ValkeyLuajit.Script.Reserve
import ValkeyLuajit.Script.Residue
import ValkeyLuajit.Script.RoundTrip
import ValkeyLuajit.Script.Streams
import ValkeyLuajit.Script.TracedConversion
import ValkeyLuajit.Script.Unprotected
import ValkeyLuajit.Script.Username
import ValkeyLuajit.Function.Agreement
import ValkeyLuajit.Function.Load
import ValkeyLuajit.Function.NamedArguments
import ValkeyLuajit.Function.NamedOrder
import ValkeyLuajit.Function.Ownership
import ValkeyLuajit.Function.Register
import ValkeyLuajit.Function.Registrations
import ValkeyLuajit.Function.UserRegister
import ValkeyLuajit.Bundled.Fpconv
import ValkeyLuajit.Bundled.JsonEncode
import ValkeyLuajit.Bundled.JsonGrammar
import ValkeyLuajit.Bundled.JsonSettings
import ValkeyLuajit.Bundled.JsonStrings
import ValkeyLuajit.Bundled.JsonWritten
import ValkeyLuajit.Bundled.MsgPackBuffer
import ValkeyLuajit.Bundled.MsgPackDecode
import ValkeyLuajit.Bundled.MsgPackEncode
import ValkeyLuajit.Bundled.MsgPackReader
import ValkeyLuajit.Bundled.MsgPackRefinement
import ValkeyLuajit.Bundled.MsgPackResume
import ValkeyLuajit.Bundled.MsgPackRoundTrip
import ValkeyLuajit.Bundled.MsgPackStream
import ValkeyLuajit.Bundled.MsgPackTree
import ValkeyLuajit.Bundled.Sha1
import ValkeyLuajit.Bundled.Sha1Rounds
import ValkeyLuajit.Bundled.Sha1Stream
import ValkeyLuajit.Bundled.StrBuf
import ValkeyLuajit.Ffi.Balance
import ValkeyLuajit.Ffi.Wrappers
import ValkeyLuajit.Sandbox.Confinement
import ValkeyLuajit.Sandbox.Environment
import ValkeyLuajit.Engine.Arguments
import ValkeyLuajit.Engine.Availability
import ValkeyLuajit.Engine.Bindings
import ValkeyLuajit.Engine.Cache
import ValkeyLuajit.Engine.Call
import ValkeyLuajit.Engine.Caller
import ValkeyLuajit.Engine.CleanExit
import ValkeyLuajit.Engine.Compile
import ValkeyLuajit.Engine.Completion
import ValkeyLuajit.Engine.Construction
import ValkeyLuajit.Engine.Entry
import ValkeyLuajit.Engine.Environment
import ValkeyLuajit.Engine.EvalLaw
import ValkeyLuajit.Engine.Fetch
import ValkeyLuajit.Engine.Initialisation
import ValkeyLuajit.Engine.Installation
import ValkeyLuajit.Engine.Invoke
import ValkeyLuajit.Engine.Isolation
import ValkeyLuajit.Engine.Killability
import ValkeyLuajit.Engine.Lifetime
import ValkeyLuajit.Engine.LoadFailure
import ValkeyLuajit.Engine.Loading
import ValkeyLuajit.Engine.Names
import ValkeyLuajit.Engine.Reset
import ValkeyLuajit.Engine.Resolution
import ValkeyLuajit.Engine.SameCode
import ValkeyLuajit.Engine.State
import ValkeyLuajit.Engine.System
import ValkeyLuajit.Engine.TextOnly
import ValkeyLuajit.Engine.Users
import ValkeyLuajit.Library.BigEndian
import ValkeyLuajit.Library.Scientific
import ValkeyLuajit.Library.SecureHash
import ValkeyLuajit.Library.Sink
