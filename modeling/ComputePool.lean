import ComputePool.Foundations.Transition
import ComputePool.Foundations.Tasks
import ComputePool.Foundations.Text
import ComputePool.Foundations.Dict
import ComputePool.Foundations.Numeral
import ComputePool.Foundations.Shlex
import ComputePool.Foundations.Awk
import ComputePool.Foundations.Buffer
import ComputePool.Foundations.Packing
import ComputePool.Foundations.Program
import ComputePool.Foundations.Fallible
import ComputePool.Foundations.Json
import ComputePool.Foundations.Base64
import ComputePool.Foundations.SortedJson
import ComputePool.Foundations.Aes
import ComputePool.Foundations.Cbc
import ComputePool.Challenge.Core
import ComputePool.Challenge.Reference
import ComputePool.Challenge.Python
import ComputePool.Challenge.Cuda
import ComputePool.Protocol.Session
import ComputePool.Protocol.Signing
import ComputePool.Protocol.Failures
import ComputePool.Agent.Control.Queue
import ComputePool.Agent.Control.Writer
import ComputePool.Agent.Access.Nonce
import ComputePool.Agent.Access.SshKeys
import ComputePool.Agent.Api.Auth
import ComputePool.Agent.Access.Grants
import ComputePool.Agent.Access.Coherence
import ComputePool.Agent.Access.Replay
import ComputePool.Agent.Access.Independence
import ComputePool.Agent.Access.Interleaving
import ComputePool.Agent.Updater.Watchtower
import ComputePool.Agent.Updater.Update
import ComputePool.Agent.Control.Traffic
import ComputePool.Agent.Control.Claims
import ComputePool.Agent.Store.Events
import ComputePool.Agent.Hardware.MetricsPool
import ComputePool.Agent.Cache.Prefetch
import ComputePool.Validator.Roster
import ComputePool.Validator.Data.GpuTable
import ComputePool.Validator.Scoring.Formula
import ComputePool.Validator.Scoring.LocalScores
import ComputePool.Validator.Scoring.Weights
import ComputePool.Validator.Scoring.Unverified
import ComputePool.Validator.Scoring.Packaging
import ComputePool.Validator.Work.LostVolumes
import ComputePool.Validator.Work.Placement
import ComputePool.Validator.Work.JobSpec
import ComputePool.Validator.Session.Runner
import ComputePool.Validator.Session.Host
import ComputePool.Validator.Storage.Volumes
import ComputePool.Validator.Storage.Unwrap
import ComputePool.Validator.Storage.Teardowns
import ComputePool.Validator.Storage.Sweep
import ComputePool.Validator.Recovery.GpuWedge
import ComputePool.Validator.Work.Power
import ComputePool.Validator.Work.PowerCaps
import ComputePool.Validator.Work.SharedCaps
import ComputePool.Validator.Verify.Exclusivity
import ComputePool.Validator.Verify.Fernet
import ComputePool.Validator.Verify.ScrapePayload
import ComputePool.Validator.Verify.Scrape
import ComputePool.Validator.Work.Containers
import ComputePool.Validator.Work.Footprints
import ComputePool.Validator.Work.Leftovers
import ComputePool.Validator.Scoring.Emission
import ComputePool.Validator.Scoring.Vector
import ComputePool.Validator.Scoring.Capacity
import ComputePool.Validator.Scoring.Reliability
import ComputePool.Validator.Verify.Cipher
import ComputePool.Validator.Verify.ChallengeCheck
import ComputePool.Validator.Session.Client
import ComputePool.Validator.Verify.Version
import ComputePool.Validator.Scoring.VersionGates
import ComputePool.Validator.Verify.HostReality
import ComputePool.Validator.Verify.Specs
import ComputePool.Validator.Verify.ScrapeCheck
import ComputePool.Validator.Schedule.Deep
import ComputePool.Validator.Schedule.Limiter
import ComputePool.Validator.Schedule.Express
import ComputePool.Validator.Schedule.Rounds
import ComputePool.Validator.Work.Hosting
import ComputePool.Validator.Work.Acceptance
import ComputePool.Validator.Work.RunCommand
import ComputePool.Validator.Work.JobStore
import ComputePool.Validator.Work.KeptVolumes
import ComputePool.Validator.Work.Cancellation
import ComputePool.Validator.Work.Ports
import ComputePool.Validator.Work.Devices
import ComputePool.Validator.Work.Recreation
import ComputePool.Validator.Recovery.DeviceCgroup
import ComputePool.Foundations.FixedPoint
import ComputePool.Foundations.Hex
import ComputePool.Foundations.Interleave
import ComputePool.Agent.Control.Commands
import ComputePool.Agent.Control.Link
import ComputePool.Validator.Session.Identity
import ComputePool.Agent.Hardware.Attestation
import ComputePool.Agent.Api.Routes
import ComputePool.Handshake
import ComputePool.Foundations.Window
import ComputePool.Agent.Monitor.Containers
import ComputePool.Foundations.Durable
import ComputePool.Validator.Scoring.LedgerFile
import ComputePool.Agent.Api.ValidatorSet
import ComputePool.Validator.Scoring.Payout
import ComputePool.Validator.Verify.ChallengeRunner
