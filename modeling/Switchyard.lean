import Switchyard.Api.Respond
import Switchyard.Main
import Switchyard.Settings.Load
import Switchyard.Proofs.Registry.Laws
import Switchyard.Proofs.Registry.Chronicle
import Switchyard.Proofs.Registry.Generations
import Switchyard.Proofs.Registry.Summary
import Switchyard.Proofs.Hub.Laws
import Switchyard.Proofs.Hub.Delivery
import Switchyard.Proofs.Balance.Laws
import Switchyard.Proofs.Balance.Rotation
import Switchyard.Proofs.Balance.Holdings
import Switchyard.Proofs.Proxy.Forwarding
import Switchyard.Proofs.Proxy.Leases
import Switchyard.Proofs.Proxy.Request
import Switchyard.Proofs.Proxy.Relay
import Switchyard.Proofs.Numeric.Quotient
import Switchyard.Proofs.Proxy.Traffic
import Switchyard.Proofs.Health.Pass
import Switchyard.Proofs.Hub.Messages
import Switchyard.Proofs.Registry.Renewal
import Switchyard.Proofs.Proxy.Hops
import Switchyard.Proofs.Proxy.Addressing
import Switchyard.Proofs.Proxy.Sending
import Switchyard.Proofs.Gateway.Closing
import Switchyard.Proofs.Health.Wholeness
import Switchyard.Proofs.Gateway.Shutdown
import Switchyard.Proofs.Balance.Leveling
import Switchyard.Proofs.Registry.Standing
import Switchyard.Proofs.Balance.Availability
import Switchyard.Proofs.Schedule.Timetable
import Switchyard.Proofs.Schedule.Stopping
import Switchyard.Proofs.Hub.Updates
import Switchyard.Proofs.Gateway.Timekeeping
import Switchyard.Proofs.Health.Verdicts
import Switchyard.Proofs.Registry.Roster
import Switchyard.Proofs.Health.Rounds
import Switchyard.Proofs.Gateway.Roster
import Switchyard.Proofs.Http.Segment
import Switchyard.Proofs.Api.Directory
import Switchyard.Proofs.Settings.Overlay
import Switchyard.Proofs.Settings.Leaves
import Switchyard.Proofs.Settings.Layers
import Switchyard.Proofs.Settings.Loading
import Switchyard.Proofs.Registry.Freshness
import Switchyard.Proofs.Proxy.Intake
import Switchyard.Proofs.Gateway.Speakers
import Switchyard.Proofs.Proxy.Deadlines
import Switchyard.Proofs.Proxy.Places
import Switchyard.Proofs.Hub.Traversal
import Switchyard.Proofs.Hub.Replies
import Switchyard.Proofs.Registry.Census
import Switchyard.Proofs.Api.Reports
import Switchyard.Proofs.Health.Warnings
import Switchyard.Proofs.Balance.Target
import Switchyard.Proofs.Api.Refusals
