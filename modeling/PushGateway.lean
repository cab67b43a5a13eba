import PushGateway.Base64
import PushGateway.Calendar
import PushGateway.Certificate.Basic
import PushGateway.Certificate.Name
import PushGateway.Certificate.Principal
import PushGateway.Certificate.Time
import PushGateway.Completion
import PushGateway.Connection.Authentication
import PushGateway.Connection.Handler
import PushGateway.Connection.Negotiation
import PushGateway.Curve.P256
import PushGateway.Decimal.Binary
import PushGateway.Decimal.Shortest
import PushGateway.Decimal.Unsigned
import PushGateway.Der.Element
import PushGateway.Der.Oid
import PushGateway.Der.Strict
import PushGateway.Device.Registry
import PushGateway.File.Fault
import PushGateway.File.Tree
import PushGateway.Fixtures
import PushGateway.Gateway.Operation
import PushGateway.Gateway.State
import PushGateway.Hash.Sha256
import PushGateway.Json.Error
import PushGateway.Json.Expect
import PushGateway.Json.Message
import PushGateway.Json.Number
import PushGateway.Json.Reader
import PushGateway.Json.Skip
import PushGateway.Json.Text
import PushGateway.Json.Tree
import PushGateway.Key.Coordinates
import PushGateway.Key.Registry
import PushGateway.Key.Signing
import PushGateway.Key.Verifier
import PushGateway.Log
import PushGateway.Main
import PushGateway.Pem.Body
import PushGateway.Pem.Section
import PushGateway.Proofs.Base64.Canonical
import PushGateway.Proofs.Base64.RoundTrip
import PushGateway.Proofs.Certificate.BaseTopic
import PushGateway.Proofs.Certificate.Rendering
import PushGateway.Proofs.Completion.Delivery
import PushGateway.Proofs.Completion.Sources
import PushGateway.Proofs.Connection.Authentication
import PushGateway.Proofs.Connection.Negotiation
import PushGateway.Proofs.Device.History
import PushGateway.Proofs.Fixtures.Application
import PushGateway.Proofs.Fixtures.Clock
import PushGateway.Proofs.Fixtures.Prefix
import PushGateway.Proofs.Gateway.Authorization
import PushGateway.Proofs.Gateway.Parts
import PushGateway.Proofs.Json.Object
import PushGateway.Proofs.Json.Quote
import PushGateway.Proofs.Json.Range
import PushGateway.Proofs.Key.Encoding
import PushGateway.Proofs.Key.History
import PushGateway.Proofs.Key.Isolation
import PushGateway.Proofs.Key.Replay
import PushGateway.Proofs.Lifecycle.FailedStart
import PushGateway.Proofs.Lifecycle.Isolation
import PushGateway.Proofs.Lifecycle.Rest
import PushGateway.Proofs.Lifecycle.Sharing
import PushGateway.Proofs.Lifecycle.View
import PushGateway.Proofs.Server.Closing
import PushGateway.Proofs.Server.Coherence
import PushGateway.Proofs.Server.Draining
import PushGateway.Proofs.Server.Listener
import PushGateway.Proofs.Server.Rest
import PushGateway.Proofs.Server.Status
import PushGateway.Proofs.Signature.Encoding
import PushGateway.Proofs.Table.Change
import PushGateway.Proofs.Text.Ascii
import PushGateway.Proofs.Token.Acceptance
import PushGateway.Proofs.Token.Generations
import PushGateway.Proofs.Token.Issued
import PushGateway.Proofs.Token.RoundTrip
import PushGateway.Proofs.Token.Segments
import PushGateway.Proofs.Token.Signing
import PushGateway.Proofs.Token.Verdict
import PushGateway.Server.Basic
import PushGateway.Server.Lifecycle
import PushGateway.Server.Listener
import PushGateway.Settings
import PushGateway.Signature.Ecdsa
import PushGateway.Startup.Fault
import PushGateway.Startup.Run
import PushGateway.Text.Fields
import PushGateway.Text.Printable
import PushGateway.Text.Utf8
import PushGateway.Tls.Certificate
import PushGateway.Tls.Config
import PushGateway.Tls.Files
import PushGateway.Tls.Handshake
import PushGateway.Tls.P256
import PushGateway.Tls.Provider
import PushGateway.Token.Basic
import PushGateway.Token.Claims
import PushGateway.Token.Decode
import PushGateway.Token.Header
import PushGateway.Token.Jwk
import PushGateway.Token.Signer
import PushGateway.Proofs.Der.Element
import PushGateway.Proofs.Key.Material
import PushGateway.Proofs.Certificate.Unambiguous
import PushGateway.Proofs.Json.Grammar
import PushGateway.Proofs.Json.Halting
import PushGateway.Proofs.Json.Layout
import PushGateway.Proofs.Token.RegisteredClaims
import PushGateway.Proofs.Decimal.Numeral
import PushGateway.Proofs.Settings.CommandLine
import PushGateway.Proofs.Pem.Body
import PushGateway.Proofs.Pem.Lines
import PushGateway.Proofs.Pem.Written
import PushGateway.Proofs.Tls.Files
import PushGateway.Proofs.Startup.Stages
import PushGateway.Proofs.Startup.Launch
import PushGateway.Proofs.Json.Spelling
import PushGateway.Proofs.Json.Items
import PushGateway.Proofs.Json.Members
import PushGateway.Proofs.Json.Demands
import PushGateway.Proofs.Json.Rendering
import PushGateway.Proofs.Fixtures.Rendering
import PushGateway.Proofs.Server.Removal
