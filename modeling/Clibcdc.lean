import Clibcdc.Types
import Clibcdc.Frame
import Clibcdc.Automata.Scan
import Clibcdc.Parser.Tables
import Clibcdc.Parser.Basic
import Clibcdc.Parser.Loop
import Clibcdc.Parser.Automaton
import Clibcdc.Parser.Verdict
import Clibcdc.Parser.Frames
import Clibcdc.Parser.Soundness
import Clibcdc.Parser.Exactness
import Clibcdc.Parser.Decoders
import Clibcdc.Impl
import Clibcdc.Command
import Clibcdc.Reader.Basic
import Clibcdc.Parser.Unsized
import Clibcdc.Reader.Dispatch
import Clibcdc.Reader.Agreement
import Clibcdc.Reader.Framing
import Clibcdc.Reader.ModuleInfo
import Clibcdc.Reader.Resync
import Clibcdc.Reader.ProgramMemory
import Clibcdc.Automata.Machine
import Clibcdc.Client
import Clibcdc.Session.Basic
import Clibcdc.Session.Freshness
import Clibcdc.Session.Decoding
import Clibcdc.Session.FailStop
import Clibcdc.Reader.Segments
import Clibcdc.Wire
import Clibcdc.Parser.Recognition
import Clibcdc.Memory.Reading
import Clibcdc.Session.Interface
import Clibcdc.Session.Exchange
import Clibcdc.Session.System
import Clibcdc.Session.EndToEnd
import Clibcdc.Sending
import Clibcdc.Memory.Checked
import Clibcdc.Parser.Checked
import Clibcdc.Parser.Overread
import Clibcdc.Reader.Overlapped
import Clibcdc.Session.FailStopWindows
import Clibcdc.Session.Lifecycle
import Clibcdc.Memory.Block
import Clibcdc.PgmHex.HexFile
import Clibcdc.PgmHex.MemBlock
import Clibcdc.Memory.Combining
import Clibcdc.PgmHex.Turns
import Clibcdc.PgmHex.Plan
import Clibcdc.PgmHex.Records
import Clibcdc.PgmHex.Images
import Clibcdc.PgmHex.Uploads
import Clibcdc.Memory.Layout
import Clibcdc.PgmHex.Memory
import Clibcdc.PgmHex.Safety
import Clibcdc.Session.LifetimeEndToEnd
import Clibcdc.PgmIqrf.Plugin
import Clibcdc.Session.Listening
