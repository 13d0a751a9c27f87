import SanDbOxFormal.Library.Segments
import SanDbOxFormal.Rust.Codec.JsonScan
import SanDbOxFormal.Rust.Codec.JsonSoundness
import SanDbOxFormal.Rust.Codec.JsonCompleteness
import SanDbOxFormal.Rust.Codec.JsonRoundTrip
import SanDbOxFormal.Rust.Codec.Base64
import SanDbOxFormal.Library.Decimal
import SanDbOxFormal.Rust.Codec.Encode
import SanDbOxFormal.Rust.Codec.Decode
import SanDbOxFormal.Rust.Codec.ValueRoundTrip
import SanDbOxFormal.Rust.Transport.LineFramer
import SanDbOxFormal.Rust.Request
import SanDbOxFormal.Rust.RequestFraming
import SanDbOxFormal.Library.Exchange
import SanDbOxFormal.Rust.Stream
import SanDbOxFormal.Rust.Transport.Basic
import SanDbOxFormal.Rust.Transport.Socket
import SanDbOxFormal.Rust.Transport.Direct
import SanDbOxFormal.Rust.Session
import SanDbOxFormal.Rust.SessionRuns
import SanDbOxFormal.Rust.Pairing
import SanDbOxFormal.Rust.WriteFailure
import SanDbOxFormal.Library.Talker
import SanDbOxFormal.Java.Codec.Request
import SanDbOxFormal.Protocol.Hello
import SanDbOxFormal.Library.Course
import SanDbOxFormal.Library.Failures
import SanDbOxFormal.Rust.HelloCheck
import SanDbOxFormal.Rust.Lifecycle
import SanDbOxFormal.Rust.Readers
import SanDbOxFormal.Library.CappedFraming
import SanDbOxFormal.Java.Transport.LineFramer
import SanDbOxFormal.TypeScript.LineReader
import SanDbOxFormal.Protocol.LineCap
import SanDbOxFormal.Library.JsonReader
import SanDbOxFormal.TypeScript.DecodeErrors
import SanDbOxFormal.Python.DecodeErrors
import SanDbOxFormal.Library.Pump
import SanDbOxFormal.Library.Outlet
import SanDbOxFormal.Library.JsonReading
import SanDbOxFormal.Protocol.HelloTree
import SanDbOxFormal.Python.HelloGate
import SanDbOxFormal.Python.Pairing
import SanDbOxFormal.Library.JsonSpelling
import SanDbOxFormal.Library.Base64
import SanDbOxFormal.Go.Value
import SanDbOxFormal.Protocol.NumberCells
import SanDbOxFormal.Library.Utf16
import SanDbOxFormal.Go.ValueRoundTrip
import SanDbOxFormal.Go.Response
import SanDbOxFormal.Go.Strictness
import SanDbOxFormal.Go.Request
import SanDbOxFormal.TypeScript.Tokens
import SanDbOxFormal.TypeScript.Encode
import SanDbOxFormal.TypeScript.Printed
import SanDbOxFormal.TypeScript.ValueRoundTrip
import SanDbOxFormal.Java.Bytes
import SanDbOxFormal.Protocol.Requests
import SanDbOxFormal.Protocol.RequestAgreement
import SanDbOxFormal.Java.Codec.JsonParser
import SanDbOxFormal.Library.JsonSoundness
import SanDbOxFormal.Java.Codec.JsonParserReads
import SanDbOxFormal.Library.JsonUtf16
import SanDbOxFormal.Protocol.JsonParsers
import SanDbOxFormal.Java.Codec.Written
import SanDbOxFormal.Library.Base64Pattern
import SanDbOxFormal.Rust.Codec.Base64Strict
import SanDbOxFormal.Protocol.BlobText
import SanDbOxFormal.Rust.SocketReader
import SanDbOxFormal.Python.ReaderFraming
import SanDbOxFormal.Go.Scanner
import SanDbOxFormal.Protocol.GoFraming
import SanDbOxFormal.Java.Transport.SocketTransport
import SanDbOxFormal.Java.Transport.SocketDeadline
import SanDbOxFormal.Library.Interruption
import SanDbOxFormal.Java.Transport.Shutdown
import SanDbOxFormal.Java.Transport.ReaderThread
import SanDbOxFormal.Java.Session
import SanDbOxFormal.Python.Closing
import SanDbOxFormal.TypeScript.Reads
import SanDbOxFormal.TypeScript.Closing
import SanDbOxFormal.Library.Base64Spelling
import SanDbOxFormal.Protocol.BlobSpelling
import SanDbOxFormal.Java.Transport.FramerArray
import SanDbOxFormal.Java.Transport.FramerCallers
import SanDbOxFormal.Rust.Codec.JsonPanics
import SanDbOxFormal.Rust.Codec.JsonDepth
import SanDbOxFormal.Rust.Transport.Reaping
import SanDbOxFormal.Rust.Deadlines
import SanDbOxFormal.Rust.DeadlineRuns
import SanDbOxFormal.Library.Wrapping
import SanDbOxFormal.Java.Transport.TimedReads
import SanDbOxFormal.Java.Transport.TimeoutArithmetic
import SanDbOxFormal.TypeScript.Timers
import SanDbOxFormal.TypeScript.Timeouts
import SanDbOxFormal.Library.Draining
import SanDbOxFormal.Protocol.StderrDrains
import SanDbOxFormal.Go.StderrAtClose
import SanDbOxFormal.Library.JsonCompact
import SanDbOxFormal.Library.Turns
import SanDbOxFormal.Go.Marshal
import SanDbOxFormal.Go.Session
import SanDbOxFormal.Go.Pairing
import SanDbOxFormal.Go.Closing
import SanDbOxFormal.TypeScript.RequestLines
import SanDbOxFormal.TypeScript.Hello
import SanDbOxFormal.TypeScript.OneRead
import SanDbOxFormal.TypeScript.Session
import SanDbOxFormal.TypeScript.OneCall
import SanDbOxFormal.TypeScript.Conversing
import SanDbOxFormal.TypeScript.Pairing
import SanDbOxFormal.TypeScript.Progress
import SanDbOxFormal.Java.Calls
import SanDbOxFormal.Java.Pairing
import SanDbOxFormal.Java.TextFidelity
import SanDbOxFormal.Protocol.RequestWire
import SanDbOxFormal.Library.JsonPoints
import SanDbOxFormal.Protocol.Envelopes
