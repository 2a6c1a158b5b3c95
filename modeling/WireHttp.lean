import WireHttp.Config
import WireHttp.Server
import WireHttp.Proofs.Text.Lines
import WireHttp.Proofs.Text.Numeral
import WireHttp.Proofs.Text.Elements
import WireHttp.Proofs.Header
import WireHttp.Proofs.Head.Delimiter
import WireHttp.Proofs.Head.Verdict
import WireHttp.Proofs.Head.Length
import WireHttp.Proofs.Head.Written
import WireHttp.Proofs.Machine.Inbound
import WireHttp.Proofs.Machine.Call
import WireHttp.Proofs.Machine.Search
import WireHttp.Proofs.Machine.Grammar
import WireHttp.Proofs.Machine.Fragmentation
import WireHttp.Proofs.Machine.Items
import WireHttp.Proofs.Machine.Reply
import WireHttp.Proofs.Machine.Pipeline
import WireHttp.Proofs.Machine.Writing
import WireHttp.Proofs.Machine.Pairing
import WireHttp.Proofs.Machine.Refusal
import WireHttp.Proofs.Machine.BodyLength
import WireHttp.Proofs.Machine.ReadBack
import WireHttp.Proofs.Machine.Layout
import WireHttp.Proofs.Machine.LastHead
import WireHttp.Proofs.Response.Written
import WireHttp.Proofs.Connection.History
import WireHttp.Proofs.Connection.Attends
import WireHttp.Proofs.Connection.Standing
import WireHttp.Proofs.Connection.Ledger
import WireHttp.Proofs.Connection.Stops
import WireHttp.Proofs.Connection.Order
import WireHttp.Proofs.Connection.InTurn
import WireHttp.Proofs.Connection.Handover
import WireHttp.Proofs.Connection.Lengths
import WireHttp.Proofs.Connection.Balance
import WireHttp.Proofs.Connection.Idleness
import WireHttp.Proofs.Connection.Farewell
import WireHttp.Proofs.Machine.Consistent
import WireHttp.Proofs.Machine.Registers
import WireHttp.Proofs.Machine.Orthogonal
import WireHttp.Proofs.Machine.Persistence
import WireHttp.Proofs.Connection.HalfClose
import WireHttp.Proofs.Machine.Streaming
import WireHttp.Proofs.Machine.Waiting
import WireHttp.Proofs.Connection.Holding
import WireHttp.Proofs.Connection.Backlog
import WireHttp.Proofs.Machine.BlankLines
import WireHttp.Proofs.Machine.Settling
import WireHttp.Proofs.Writer
import WireHttp.Proofs.IdleTimer
