import FlowRelay.Closer
import FlowRelay.Device.Outlet
import FlowRelay.Flow.Registry
import FlowRelay.Main
import FlowRelay.Packet.Layer
import FlowRelay.Scenario.Report
import FlowRelay.Scenario.Stall
import FlowRelay.Proofs.Closer.Wakeups
import FlowRelay.Proofs.Device.Demultiplexing
import FlowRelay.Proofs.Device.Flushing
import FlowRelay.Proofs.Flow.Listing
import FlowRelay.Proofs.Gzip.Stored
import FlowRelay.Proofs.Http.Bounds
import FlowRelay.Proofs.Http.Decoding
import FlowRelay.Proofs.Http.Edits
import FlowRelay.Proofs.Http.EmptyBodies
import FlowRelay.Proofs.Http.Limits
import FlowRelay.Proofs.Http.Malformed
import FlowRelay.Proofs.Http.Numbers
import FlowRelay.Proofs.Http.Segmentation
import FlowRelay.Proofs.Http.Sender
import FlowRelay.Proofs.Packet.Acceptance
import FlowRelay.Proofs.Packet.Answer
import FlowRelay.Proofs.Packet.Checksum
import FlowRelay.Proofs.Packet.Independence
import FlowRelay.Proofs.Packet.Layout
import FlowRelay.Proofs.Packet.Response
import FlowRelay.Proofs.Packet.RoundTrip
import FlowRelay.Proofs.Packet.Swap
import FlowRelay.Proofs.Packet.Template
import FlowRelay.Proofs.Packet.ZeroChecksum
import FlowRelay.Proofs.Pool.Accounts
import FlowRelay.Proofs.Relay.Answers
import FlowRelay.Proofs.Relay.Isolation
import FlowRelay.Proofs.Relay.Refusal
import FlowRelay.Proofs.Relay.Shutdown
import FlowRelay.Proofs.Relay.Stale
import FlowRelay.Proofs.Relay.Truncation
import FlowRelay.Proofs.Table.Entries
import FlowRelay.Proofs.Table.Eviction
import FlowRelay.Proofs.Table.Recency
import FlowRelay.Proofs.Table.Sharing
import FlowRelay.Proofs.Tcp.Acknowledgement
import FlowRelay.Proofs.Tcp.Answers
import FlowRelay.Proofs.Tcp.Closing
import FlowRelay.Proofs.Tcp.Conversation
import FlowRelay.Proofs.Tcp.Inspection
import FlowRelay.Proofs.Tcp.Progress
import FlowRelay.Proofs.Tcp.Response
import FlowRelay.Proofs.Tcp.Retransmission
import FlowRelay.Proofs.Tcp.Run
import FlowRelay.Proofs.Tcp.Sending
import FlowRelay.Proofs.Tcp.SequenceSpace
import FlowRelay.Proofs.Tcp.Service
import FlowRelay.Proofs.Tcp.Turn
import FlowRelay.Proofs.Tcp.View
import FlowRelay.Proofs.Tcp.WellBehaved
import FlowRelay.Proofs.Udp.Origin
import FlowRelay.Proofs.Udp.Translation
