import SmartLogistics.Library.Machine
import SmartLogistics.Library.Transaction
import SmartLogistics.Library.Discipline
import SmartLogistics.Library.LockOrder
import SmartLogistics.Library.Table
import SmartLogistics.Inventory.Models
import SmartLogistics.Platform.Auth
import SmartLogistics.Inventory.Reservations
import SmartLogistics.Inventory.Stock
import SmartLogistics.Inventory.Accounting
import SmartLogistics.Inventory.Protocol
import SmartLogistics.Inventory.LockingReads
import SmartLogistics.Inventory.Obligations
import SmartLogistics.Inventory.Runs
import SmartLogistics.Inventory.HoldAtomicity
import SmartLogistics.Library.Serializability
import SmartLogistics.Platform.Consumer
import SmartLogistics.Platform.Dedupe
import SmartLogistics.Platform.ExactlyOnce
import SmartLogistics.Platform.Idempotency
import SmartLogistics.Platform.Leases
import SmartLogistics.Warehouse.Convergence
import SmartLogistics.Shipment.Shipments
import SmartLogistics.Shipment.Saga
import SmartLogistics.Shipment.SagaSteps
import SmartLogistics.Shipment.Compensation
import SmartLogistics.Shipment.Records
import SmartLogistics.Shipment.Scoping
import SmartLogistics.Shipment.Lifecycle
import SmartLogistics.Shipment.AuditTrail
import SmartLogistics.Shipment.Packing
import SmartLogistics.Platform.Delivery
import SmartLogistics.Platform.Reliability
import SmartLogistics.Platform.Replays
import SmartLogistics.Platform.OwnerViews
import SmartLogistics.Inventory.HoldLife
import SmartLogistics.Identity.Models
import SmartLogistics.Library.Succession
import SmartLogistics.Identity.Sessions
import SmartLogistics.Identity.Users
import SmartLogistics.Identity.SessionProtocol
import SmartLogistics.Identity.SessionSteps
import SmartLogistics.Identity.Obligations
import SmartLogistics.Identity.Rotation
import SmartLogistics.Identity.Revocation
import SmartLogistics.Library.Frame
import SmartLogistics.Identity.Powerless
import SmartLogistics.Identity.Scopes
import SmartLogistics.Identity.Consistency
import SmartLogistics.Library.Newest
import SmartLogistics.Warehouse.Merge
import SmartLogistics.Identity.Alarm
import SmartLogistics.Shipment.Snapshots
import SmartLogistics.Warehouse.Hours
import SmartLogistics.Library.Endings
import SmartLogistics.Identity.Lockout
import SmartLogistics.Inventory.Listings
import SmartLogistics.Inventory.Confinement
import SmartLogistics.Inventory.Repeats
import SmartLogistics.Inventory.Races
import SmartLogistics.Inventory.Alone
import SmartLogistics.Inventory.FirstReserve
import SmartLogistics.Inventory.SweptReserve
import SmartLogistics.Inventory.Events
import SmartLogistics.Shipment.Answers
import SmartLogistics.Inventory.Relabel
import SmartLogistics.Shipment.Retry
import SmartLogistics.Platform.Http
import SmartLogistics.Platform.RemoteErrors
import SmartLogistics.Library.History
import SmartLogistics.Platform.Probes
import SmartLogistics.Platform.SigningKeys
import SmartLogistics.Library.Paging
import SmartLogistics.Platform.Pages
import SmartLogistics.Identity.Operators
import SmartLogistics.Platform.Visibility
import SmartLogistics.Warehouse.Updates
import SmartLogistics.Inventory.Quantities
import SmartLogistics.Shipment.Weights
import SmartLogistics.Shipment.Cargo
import SmartLogistics.Shipment.Fulfilment
import SmartLogistics.Shipment.Standings
import SmartLogistics.Shipment.Ownership
import SmartLogistics.Shipment.EventHistory
import SmartLogistics.Shipment.Processing
import SmartLogistics.Shipment.InStep
import SmartLogistics.Platform.JsonText
import SmartLogistics.Platform.Payloads
import SmartLogistics.Inventory.Balance
import SmartLogistics.Shipment.Balance
import SmartLogistics.Platform.Draining
import SmartLogistics.Shipment.Numbering
import SmartLogistics.Platform.RetiredKeys
import SmartLogistics.Shipment.Chronology
import SmartLogistics.Inventory.Catalog
import SmartLogistics.Inventory.Sweeps
import SmartLogistics.Warehouse.Zones
import SmartLogistics.Shipment.Authority
import SmartLogistics.Shipment.Recovery
