import NearRtRic.Effect.Program
import NearRtRic.Effect.Interleave
import NearRtRic.Index.Mirrored
import NearRtRic.E2Manager.Entities
import NearRtRic.E2Manager.Rnib
import NearRtRic.E2Manager.Models
import NearRtRic.E2Manager.Interface
import NearRtRic.E2Manager.InstancesManager
import NearRtRic.E2Manager.Managers
import NearRtRic.E2Manager.Handlers
import NearRtRic.E2Manager.DeleteAll
import NearRtRic.E2Manager.Effects
import NearRtRic.E2Manager.Invariants
import NearRtRic.E2Manager.Events
import NearRtRic.E2Manager.Lifecycle
import NearRtRic.E2Manager.RedButton
import NearRtRic.E2Manager.Association
import NearRtRic.E2Manager.Registry
import NearRtRic.E2Manager.Concurrent
import NearRtRic.E2Manager.Arrivals
import NearRtRic.E2Manager.Expiry
import NearRtRic.CString.Basic
import NearRtRic.Exstrings.RedisModule
import NearRtRic.Exstrings.Conditional
import NearRtRic.Exstrings.Publish
import NearRtRic.Exstrings.PublishLaw
import NearRtRic.Exstrings.Variants
import NearRtRic.Exstrings.Nget
import NearRtRic.Exstrings.NgetErrors
import NearRtRic.Exstrings.NgetAnswer
import NearRtRic.E2Term.RanName
import NearRtRic.E2Term.Listener
import NearRtRic.E2Term.Peers
import NearRtRic.E2Term.Downlink
import NearRtRic.E2Term.Batch
import NearRtRic.E2Manager.Inventory
import NearRtRic.E2Manager.UpdateGnb
import NearRtRic.E2Manager.CellIndex
import NearRtRic.Xapp.Rendezvous
import NearRtRic.Text.Basic
import NearRtRic.Xapp.Report
import NearRtRic.Xapp.Agent
import NearRtRic.Xapp.Indication
import NearRtRic.Xapp.Independence
import NearRtRic.Xapp.UeFields
import NearRtRic.Xapp.LogMon
import NearRtRic.E2Manager.FailedAssociation
import NearRtRic.E2Manager.Shutdown
import NearRtRic.E2Manager.SetupPanic
import NearRtRic.E2Manager.SetupResponse
import NearRtRic.E2Term.Receive
import NearRtRic.E2Term.UniqueNames
import NearRtRic.E2Term.SetupName
import NearRtRic.Xml.Tree
import NearRtRic.Xml.Supply
import NearRtRic.E2Term.BuildXml
import NearRtRic.E2Term.RanFunctions
import NearRtRic.E2Term.SetupPayload
import NearRtRic.Exstrings.NdelAnswer
import NearRtRic.E2Manager.Balance
import NearRtRic.E2Manager.AtomicUpdate
import NearRtRic.E2Manager.SaveRetry
import NearRtRic.Asn.SequenceOf
import NearRtRic.E2ap.Elements
import NearRtRic.E2ap.Indication
import NearRtRic.E2ap.ControlResponse
import NearRtRic.E2ap.SubscriptionRequest
import NearRtRic.Asn.ItemArray
import NearRtRic.E2ap.SubscriptionResponse
import NearRtRic.Xapp.UeIdentity
import NearRtRic.Xapp.Decoded
import NearRtRic.Xapp.Total
import NearRtRic.E2ap.ControlRequest
import NearRtRic.Index.OrderedMap
import NearRtRic.Placement.FirstFree
import NearRtRic.Xapp.AgentConnector
import NearRtRic.CString.Cursor
import NearRtRic.E2Term.Base64
import NearRtRic.E2Term.Base64RoundTrip
import NearRtRic.E2Manager.RicIdentity
import NearRtRic.Xapp.CellIdentity
import NearRtRic.Index.Members
import NearRtRic.Xapp.A1Policy
import NearRtRic.Stats.WindowMean
import NearRtRic.Xapp.Localization
import NearRtRic.Text.Csv
import NearRtRic.Index.Fresh
import NearRtRic.Watcher.SimWatcher
import NearRtRic.Watcher.Lock
import NearRtRic.Watcher.Rows
import NearRtRic.Watcher.ExactlyOnce
import NearRtRic.E2Term.Relay
import NearRtRic.Index.SharedCounter
import NearRtRic.E2Term.TermInit
import NearRtRic.E2Term.Configuration
import NearRtRic.E2Manager.Provenance
import NearRtRic.E2Term.SetupOrigin
import NearRtRic.Platform.SetupPath
import NearRtRic.E2Term.Presence
import NearRtRic.E2Manager.Connected
import NearRtRic.Platform.Connected
import NearRtRic.E2Manager.Routing
import NearRtRic.E2Manager.Agreement
import NearRtRic.Xapp.XappRmr
import NearRtRic.E2Term.Indications
import NearRtRic.Platform.ControlLoop
