import SensorHub.Decimal.Reading
import SensorHub.Decimal.Shortest
import SensorHub.Main
import SensorHub.Peak
import SensorHub.Proofs.Accounting
import SensorHub.Proofs.Barrier
import SensorHub.Proofs.Clearing
import SensorHub.Proofs.Completions
import SensorHub.Proofs.CurrentApp
import SensorHub.Proofs.Departure
import SensorHub.Proofs.Detached
import SensorHub.Proofs.Distribution
import SensorHub.Proofs.Eviction
import SensorHub.Proofs.FreshIds
import SensorHub.Proofs.Lateness
import SensorHub.Proofs.Packing
import SensorHub.Proofs.Parting
import SensorHub.Proofs.Removal
import SensorHub.Proofs.RoundTrip
import SensorHub.Proofs.Service
import SensorHub.Proofs.Sessions
import SensorHub.Proofs.Statuses
import SensorHub.Proofs.Store
import SensorHub.Proofs.Subscriptions
import SensorHub.Proofs.Takedown
import SensorHub.Proofs.Undoing
import SensorHub.Proofs.Vacancy
import SensorHub.Proofs.WakeupHistory
import SensorHub.Proofs.WakeupTotal
import SensorHub.Proofs.Warning
