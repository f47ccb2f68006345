import Toad.Execution.Machine
import Toad.Execution.Linked
import Toad.Execution.Program
import Toad.Defs
import Toad.Bytes.Buffer
import Toad.Bytes.ByteStream
import Toad.Concurrency.Future
import Toad.Concurrency.Notify
import Toad.Concurrency.Executor
import Toad.Concurrency.Task
import Toad.Concurrency.JoinSet
import Toad.Concurrency.IOContext
import Toad.Concurrency.WriteSome
import Toad.Socks5.Forward
import Toad.Socks5.Handshake
import Toad.Socks5.Grammar
import Toad.Bytes.RoundTrip
import Toad.Concurrency.NotifyChains
import Toad.Concurrency.Traversal
import Toad.Concurrency.FutureValue
import Toad.Concurrency.Submission
import Toad.Concurrency.Watcher
import Toad.Concurrency.Completions
import Toad.Execution.Ledger
import Toad.Net.Descriptors
import Toad.Concurrency.JoinWaiters
import Toad.Bytes.Chain
import Toad.Codec.OnesComplement
import Toad.Nic.Checksum
import Toad.Nic.Packet
import Toad.Nic.Icmp
import Toad.Nic.Ipv4
import Toad.Nic.Ipv4Reply
import Toad.Nic.Ethernet
import Toad.Nic.Arp
import Toad.Nic.PacketSize
import Toad.Concurrency.ReadVector
import Toad.Socks5.RelayEnd
import Toad.Nic.ChecksumAddition
import Toad.Bytes.Bounds
import Toad.Concurrency.Correlation
import Toad.Execution.Refinement
import Toad.Execution.Log
import Toad.Concurrency.AwaiterStack
import Toad.Concurrency.Wakeups
import Toad.Concurrency.TasksTest
import Toad.Concurrency.EventLoop
import Toad.Socks5.Serve
import Toad.Socks5.Faults
import Toad.Socks5.Session
import Toad.Socks5.ControlFlow
import Toad.Socks5.Isolation
import Toad.Socks5.Responses
import Toad.Bytes.Slices
import Toad.Bytes.Incremental
import Toad.Nic.ErrorDetection
import Toad.Nic.ArpReply
import Toad.Nic.TryNew
import Toad.Prototype.Lilypad
