import Arbiter.Arbitration.Description
import Arbiter.CommandLine.Command
import Arbiter.Discovery.Clients
import Arbiter.Main
import Arbiter.Json.Source
import Arbiter.Proofs.Arbitration.Moves
import Arbiter.Proofs.Arbitration.History
import Arbiter.Proofs.Arbitration.Delivery
import Arbiter.Proofs.Arbitration.Conclusion
import Arbiter.Proofs.Duration
import Arbiter.Proofs.Arbitration.Clock
import Arbiter.Proofs.Arbitration.Pace
import Arbiter.Proofs.Arbitration.Exchanges
import Arbiter.Proofs.Arbitration.GivingUp
import Arbiter.Proofs.Arbitration.Decision
import Arbiter.Proofs.Arbitration.Budget
import Arbiter.Proofs.Arbitration.Playing
import Arbiter.Proofs.Arbitration.Lookups
import Arbiter.Proofs.Arbitration.Stop
import Arbiter.Proofs.Arbitration.Punctual
import Arbiter.Proofs.Arbitration.Steady
import Arbiter.Proofs.Registry
import Arbiter.Proofs.Resolve
import Arbiter.Proofs.Document.RoundTrip
import Arbiter.Proofs.Arbitration.Chronicle
import Arbiter.Proofs.Arbitration.Fleet
import Arbiter.Proofs.Arbitration.Inert
import Arbiter.Proofs.Arbitration.Timetable
import Arbiter.Proofs.Arbitration.Indifference
import Arbiter.Proofs.Participants
import Arbiter.Proofs.Plan
import Arbiter.Proofs.Registrations
import Arbiter.Proofs.Selection
import Arbiter.Proofs.Scopes
import Arbiter.Proofs.Agreement
import Arbiter.Proofs.Arbitration.Schedule
import Arbiter.Proofs.Arbitration.Decisive
import Arbiter.Proofs.Arbitration.Patience
import Arbiter.Proofs.Arbitration.ErrorTexts
import Arbiter.Proofs.Arbitration.Gate
import Arbiter.Proofs.Arbitration.Countable
import Arbiter.Proofs.Arbitration.Announced
import Arbiter.Proofs.Settings
import Arbiter.Proofs.Backends
import Arbiter.Proofs.IncompatibleVersions
import Arbiter.Proofs.Yaml.RoundTrip
