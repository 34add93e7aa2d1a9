import Aesd.Driver.CircularBuffer
import Aesd.Driver.Contents
import Aesd.Driver.FailedWrite
import Aesd.Driver.Following
import Aesd.Driver.IoctlArgument
import Aesd.Driver.Kernel
import Aesd.Driver.Llseek
import Aesd.Driver.Main
import Aesd.Driver.Ownership
import Aesd.Driver.Reading
import Aesd.Driver.Seeking
import Aesd.Driver.SharedFlag
import Aesd.Driver.TempBuffer
import Aesd.Driver.WriteRefinement
import Aesd.Lib.BoundedQueue
import Aesd.Lib.Buffered
import Aesd.Lib.Bytes
import Aesd.Lib.CInt
import Aesd.Lib.Hex
import Aesd.Lib.Interleaving
import Aesd.Lib.LinkedList
import Aesd.Lib.Ownership
import Aesd.Lib.Prog
import Aesd.Lib.RingBuffer
import Aesd.Lib.SlidingWindow
import Aesd.Lib.Versions
import Aesd.Server.AcceptedCommands
import Aesd.Server.Acts
import Aesd.Server.AllCommands
import Aesd.Server.Buffering
import Aesd.Server.CheckThenUse
import Aesd.Server.CommandQueue
import Aesd.Server.CompleteLines
import Aesd.Server.CreateDelete
import Aesd.Server.Dispatch
import Aesd.Server.Ending
import Aesd.Server.Framing
import Aesd.Server.FreeSpace
import Aesd.Server.HexDump
import Aesd.Server.HexReply
import Aesd.Server.Listing
import Aesd.Server.MissingArguments
import Aesd.Server.Numerals
import Aesd.Server.NvmeInterface
import Aesd.Server.OutputIsolation
import Aesd.Server.OwnDescriptor
import Aesd.Server.PartitionNumbers
import Aesd.Server.PerfHandlers
import Aesd.Server.PerfWrite
import Aesd.Server.PlainCalls
import Aesd.Server.Process
import Aesd.Server.QueueCodes
import Aesd.Server.QueueExecution
import Aesd.Server.QueueWorkers
import Aesd.Server.Receive
import Aesd.Server.ReceiveLoop
import Aesd.Server.Redirect
import Aesd.Server.Resources
import Aesd.Server.SafeMode
import Aesd.Server.SectorSizes
import Aesd.Server.SectorStore
import Aesd.Server.SessionList
import Aesd.Server.Shutdown
import Aesd.Server.Slist
import Aesd.Server.System
import Aesd.Server.TableUpdate
import Aesd.Server.TableUse
import Aesd.Server.TableVersions
import Aesd.Server.TextReplies
import Aesd.Server.Tokens
import Aesd.Server.TruthfulStatus
