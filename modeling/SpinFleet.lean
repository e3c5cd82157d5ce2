import SpinFleet.Admission.Certificate
import SpinFleet.Admission.FieldError
import SpinFleet.Admission.Review
import SpinFleet.Admission.Rules
import SpinFleet.Admission.Server
import SpinFleet.Admission.Verdict
import SpinFleet.Api.Client
import SpinFleet.Api.Exchange
import SpinFleet.Api.Publisher
import SpinFleet.Api.Resource
import SpinFleet.Api.Uri
import SpinFleet.App.Basic
import SpinFleet.App.Condition
import SpinFleet.App.Observe
import SpinFleet.App.Spec
import SpinFleet.Child.Container
import SpinFleet.Child.Deployment
import SpinFleet.Child.Identity
import SpinFleet.Child.Secret
import SpinFleet.Child.Service
import SpinFleet.Child.Storage
import SpinFleet.Cluster.Basic
import SpinFleet.Cluster.Call
import SpinFleet.Codec.Failure
import SpinFleet.Codec.Record
import SpinFleet.Codec.Schema
import SpinFleet.Codec.Text
import SpinFleet.Codec.Value
import SpinFleet.CommandLine.Mode
import SpinFleet.CommandLine.Options
import SpinFleet.CommandLine.SocketAddress
import SpinFleet.Dict
import SpinFleet.Error
import SpinFleet.Executor
import SpinFleet.Host
import SpinFleet.Json.Basic
import SpinFleet.Json.Printer
import SpinFleet.Json.Reader
import SpinFleet.Kube.Config
import SpinFleet.Kube.Deployment
import SpinFleet.Kube.Meta
import SpinFleet.Kube.Pod
import SpinFleet.Kube.Selector
import SpinFleet.Kube.Service
import SpinFleet.Kube.Shape
import SpinFleet.Kube.Status
import SpinFleet.Kube.Volume
import SpinFleet.Main
import SpinFleet.Manifest
import SpinFleet.Pass
import SpinFleet.Reconcile.App
import SpinFleet.Reconcile.Executor
import SpinFleet.RuntimeConfig.Build
import SpinFleet.RuntimeConfig.Document
import SpinFleet.RuntimeConfig.References
import SpinFleet.RuntimeConfig.Resolve
import SpinFleet.RuntimeConfig.Sensitive
import SpinFleet.RuntimeConfig.Toml
import SpinFleet.Simulation.Fetch
import SpinFleet.Simulation.Run
import SpinFleet.Simulation.World
import SpinFleet.Startup
import SpinFleet.Telemetry
import SpinFleet.Text.Base64
import SpinFleet.Text.Checksum
import SpinFleet.Text.Double
import SpinFleet.Text.MediaType
import SpinFleet.Text.Pem
import SpinFleet.Text.Printable
import SpinFleet.Text.Quoted
import SpinFleet.Text.Uppercase
import SpinFleet.Text.Utf8
import SpinFleet.Time.Instant
import SpinFleet.Time.Reading
import SpinFleet.TrustBundle
import SpinFleet.Proofs.Execution
import SpinFleet.Proofs.Writes
import SpinFleet.Proofs.Reads
import SpinFleet.Proofs.AppPlan
import SpinFleet.Proofs.Interpreter
import SpinFleet.Proofs.Frames
import SpinFleet.Proofs.Children
import SpinFleet.Proofs.Undisturbed
import SpinFleet.Proofs.Mounts
import SpinFleet.Proofs.Keyed
import SpinFleet.Proofs.Pruning
import SpinFleet.Proofs.Effects
import SpinFleet.Proofs.Observing
import SpinFleet.Proofs.Agreement
import SpinFleet.Proofs.Recovery
import SpinFleet.Proofs.Delivery
import SpinFleet.Proofs.Selection
import SpinFleet.Proofs.Finalizers
import SpinFleet.Proofs.Verdicts
import SpinFleet.Proofs.Fleet
import SpinFleet.Proofs.Dependents
import SpinFleet.Proofs.Asking
import SpinFleet.Proofs.Interleaving
import SpinFleet.Proofs.StatusWrites
import SpinFleet.Proofs.Snapshots
import SpinFleet.Proofs.Removal
import SpinFleet.Proofs.Footprint
import SpinFleet.Proofs.Confinement
import SpinFleet.Proofs.Lookups
import SpinFleet.Proofs.Timeline
import SpinFleet.Proofs.Precedence
import SpinFleet.Proofs.EffectOrder
import SpinFleet.Proofs.Chronicle
import SpinFleet.Proofs.Assembly
import SpinFleet.Proofs.Resolution
import SpinFleet.Proofs.Secrecy
import SpinFleet.Proofs.Histories
import SpinFleet.Proofs.Mirroring
import SpinFleet.Proofs.Reordering
import SpinFleet.Proofs.TomlReader
import SpinFleet.Proofs.Lines
import SpinFleet.Proofs.Rendering
import SpinFleet.Proofs.Lockstep
import SpinFleet.Proofs.Indifference
import SpinFleet.Proofs.Leftovers
import SpinFleet.Proofs.Weaving
import SpinFleet.Proofs.Ownership
import SpinFleet.Proofs.Commuting
import SpinFleet.Proofs.ByteOrder
import SpinFleet.Proofs.Parts
import SpinFleet.Proofs.Patching
import SpinFleet.Proofs.Defaulting
import SpinFleet.Proofs.Refusals
import SpinFleet.Proofs.Constructible
import SpinFleet.Proofs.Faults
import SpinFleet.Proofs.Restoring
import SpinFleet.Proofs.RoundTrip
import SpinFleet.Proofs.Recognition
import SpinFleet.Proofs.Wiring
import SpinFleet.Proofs.Courses
import SpinFleet.Proofs.Tenure
import SpinFleet.Proofs.Calendar
import SpinFleet.Proofs.Clock
import SpinFleet.Proofs.Merging
import SpinFleet.Proofs.Readings
import SpinFleet.Proofs.StoredStatus
import SpinFleet.Proofs.Environment
import SpinFleet.Proofs.Telling
import SpinFleet.Proofs.Dialogues
import SpinFleet.Proofs.Resuming
