import PushGateway.Wire.Decoding
import PushGateway.Feedback.Record
import PushGateway.Monitor
import PushGateway.Tunnel.Http
import PushGateway.Tunnel.Socks
import PushGateway.Settings.Form
import PushGateway.Settings.Setup
import PushGateway.Payload
import PushGateway.Delivery.Service
import PushGateway.Memory.Network
import PushGateway.Rehearsal
import PushGateway.Socket.Traffic
import PushGateway.Socket.Loopback
import PushGateway.Proofs.Delivery.Callbacks
import PushGateway.Proofs.Delivery.Identifiers
import PushGateway.Proofs.Monitor.Reports
import PushGateway.Proofs.Wire.Canonical
import PushGateway.Proofs.Wire.Grammar
import PushGateway.Proofs.Reconnect.Promises
import PushGateway.Proofs.Monitor.Panics
import PushGateway.Proofs.Tunnel.Handshake
import PushGateway.Proofs.Tunnel.Response
import PushGateway.Proofs.Settings.ReadBack
import PushGateway.Proofs.Wire.Prefixes
import PushGateway.Proofs.Delivery.Check
import PushGateway.Proofs.Feedback.Devices
import PushGateway.Proofs.Wire.Extent
import PushGateway.Proofs.Interruptions
import PushGateway.Proofs.Payload.Text
import PushGateway.Proofs.Text.Hexadecimal
import PushGateway.Proofs.Settings.Choices
import PushGateway.Proofs.Tunnel.Accepted
import PushGateway.Proofs.Memory.Faithful
import PushGateway.Proofs.Socket.Contract
import PushGateway.Proofs.Settings.Timeouts
