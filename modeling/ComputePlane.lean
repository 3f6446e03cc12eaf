import ComputePlane.Catalog
import ComputePlane.Cloud.Backend
import ComputePlane.Cloud.Call
import ComputePlane.Cloud.Listing
import ComputePlane.Cloud.Memory
import ComputePlane.Cloud.Watch
import ComputePlane.Crowd
import ComputePlane.Error
import ComputePlane.Gateway.Failure
import ComputePlane.Gateway.NodeOrder
import ComputePlane.Gateway.Route
import ComputePlane.Gateway.Service
import ComputePlane.Gateway.Uri
import ComputePlane.Hardware
import ComputePlane.HttpStatus
import ComputePlane.IpAddress
import ComputePlane.Json.Basic
import ComputePlane.Json.Decoder
import ComputePlane.Json.Numeral
import ComputePlane.Json.Parser
import ComputePlane.Json.Printer
import ComputePlane.Lifecycle.Basic
import ComputePlane.Lifecycle.Create
import ComputePlane.Lifecycle.Destroy
import ComputePlane.Lifecycle.Listing
import ComputePlane.Lifecycle.Power
import ComputePlane.MediaType
import ComputePlane.Node
import ComputePlane.NodeId
import ComputePlane.Number.Binary
import ComputePlane.Number.Decimal
import ComputePlane.Number.Digits
import ComputePlane.Number.Power
import ComputePlane.Number.Shortest
import ComputePlane.OsFamily
import ComputePlane.Password
import ComputePlane.Poll
import ComputePlane.Program
import ComputePlane.Proofs.Catalog.Families
import ComputePlane.Proofs.Cloud.Attachment
import ComputePlane.Proofs.Cloud.Grown
import ComputePlane.Proofs.Cloud.Holdings
import ComputePlane.Proofs.Cloud.Ids
import ComputePlane.Proofs.Cloud.Memory
import ComputePlane.Proofs.Cloud.NewServer
import ComputePlane.Proofs.Cloud.Numbering
import ComputePlane.Proofs.Cloud.Reachable
import ComputePlane.Proofs.Cloud.Reading
import ComputePlane.Proofs.Cloud.Registry
import ComputePlane.Proofs.Cloud.Removal
import ComputePlane.Proofs.Cloud.Setup
import ComputePlane.Proofs.Cloud.Traffic
import ComputePlane.Proofs.Crowd.Attachment
import ComputePlane.Proofs.Crowd.Exclusion
import ComputePlane.Proofs.Crowd.Interplay
import ComputePlane.Proofs.Crowd.Ownership
import ComputePlane.Proofs.Crowd.Shutdown
import ComputePlane.Proofs.Crowd.Simulation
import ComputePlane.Proofs.Crowd.Turns
import ComputePlane.Proofs.Gateway.Access
import ComputePlane.Proofs.Gateway.Power
import ComputePlane.Proofs.Gateway.Shutdown
import ComputePlane.Proofs.Gateway.Transition
import ComputePlane.Proofs.Hardware.Ids
import ComputePlane.Proofs.Json.Carrying
import ComputePlane.Proofs.Json.Forms
import ComputePlane.Proofs.Json.Numerals
import ComputePlane.Proofs.Json.Records
import ComputePlane.Proofs.Json.Renaming
import ComputePlane.Proofs.Json.Written
import ComputePlane.Proofs.Lifecycle.Accounts
import ComputePlane.Proofs.Lifecycle.Building
import ComputePlane.Proofs.Lifecycle.Creation
import ComputePlane.Proofs.Lifecycle.Credentials
import ComputePlane.Proofs.Lifecycle.Custody
import ComputePlane.Proofs.Lifecycle.Destruction
import ComputePlane.Proofs.Lifecycle.Firewall
import ComputePlane.Proofs.Lifecycle.Hardware
import ComputePlane.Proofs.Lifecycle.InTurn
import ComputePlane.Proofs.Lifecycle.Leftovers
import ComputePlane.Proofs.Lifecycle.Listing
import ComputePlane.Proofs.Lifecycle.Operations
import ComputePlane.Proofs.Lifecycle.Polling
import ComputePlane.Proofs.Lifecycle.Ports
import ComputePlane.Proofs.Lifecycle.Rollback
import ComputePlane.Proofs.Lifecycle.Steps
import ComputePlane.Proofs.Lifecycle.Stock
import ComputePlane.Proofs.Lifecycle.Teardown
import ComputePlane.Proofs.Number.Digits
import ComputePlane.Proofs.Number.Rounding
import ComputePlane.Proofs.Number.Shortest
import ComputePlane.Proofs.Number.Sums
import ComputePlane.Proofs.Password.Outcomes
import ComputePlane.Proofs.Poll.Flips
import ComputePlane.Proofs.Poll.Overflow
import ComputePlane.Proofs.Poll.Questions
import ComputePlane.Proofs.Program.Converse
import ComputePlane.Proofs.Program.Holdings
import ComputePlane.Proofs.Program.Play
import ComputePlane.Proofs.Program.Stock
import ComputePlane.Proofs.Provisioning.Callers
import ComputePlane.Proofs.Provisioning.Closing
import ComputePlane.Proofs.Provisioning.Completion
import ComputePlane.Proofs.Provisioning.Conservation
import ComputePlane.Proofs.Provisioning.Crashes
import ComputePlane.Proofs.Provisioning.History
import ComputePlane.Proofs.Provisioning.Independence
import ComputePlane.Proofs.Provisioning.Interleaving
import ComputePlane.Proofs.Provisioning.Lanes
import ComputePlane.Proofs.Provisioning.Queue
import ComputePlane.Proofs.Provisioning.Scripts
import ComputePlane.Proofs.Provisioning.Timeline
import ComputePlane.Proofs.Resource.Enumerators
import ComputePlane.Proofs.Resource.Fields
import ComputePlane.Proofs.Resource.Rearranged
import ComputePlane.Proofs.Resource.Requests
import ComputePlane.Proofs.Rest.Answers
import ComputePlane.Proofs.Rest.Escapes
import ComputePlane.Proofs.Rest.Paths
import ComputePlane.Proofs.Rest.PlainPaths
import ComputePlane.Proofs.Rest.Servers
import ComputePlane.Proofs.Text.Cutting
import ComputePlane.Proofs.Text.Encoding
import ComputePlane.Proofs.Text.NodeTexts
import ComputePlane.Proofs.Text.Searching
import ComputePlane.Proofs.Text.Trimming
import ComputePlane.Proofs.World.Closed
import ComputePlane.Proofs.World.Delivery
import ComputePlane.Proofs.World.Entries
import ComputePlane.Proofs.World.Gathering
import ComputePlane.Proofs.World.Holdings
import ComputePlane.Proofs.World.InTurn
import ComputePlane.Proofs.World.Simulation
import ComputePlane.Proofs.World.Watching
import ComputePlane.Provisioning.Queue
import ComputePlane.Provisioning.Script
import ComputePlane.Resource.Basic
import ComputePlane.Resource.Decoder
import ComputePlane.Resource.Request
import ComputePlane.Resource.State
import ComputePlane.Rest.Client
import ComputePlane.Rest.Exchange
import ComputePlane.Rest.Url
import ComputePlane.Settings
import ComputePlane.Text.Base64
import ComputePlane.Text.Basic
import ComputePlane.Text.Charset
import ComputePlane.Text.Quoted
import ComputePlane.Text.Utf8
import ComputePlane.Text.Visible
import ComputePlane.Timestamp
import ComputePlane.World
