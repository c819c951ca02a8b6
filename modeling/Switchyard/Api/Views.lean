import Switchyard.Gateway.State

/-! What the gateway reports about itself, as JSON. -/
namespace Switchyard.Api

def version : String := "0.1.0"

def statusCountsJson (c : StatusCounts) : Json :=
  .obj [("healthy", .nat c.healthy), ("unhealthy", .nat c.unhealthy), ("unknown", .nat c.unknown)]

def keyedJson {α : Type} (f : α → Json) (m : Keyed α) : Json :=
  .obj (m.entries.map fun e => (e.1, f e.2))

def tallyJson (t : Tally) : Json :=
  .obj [("requests", .nat t.requests.toNat), ("errors", .nat t.errors.toNat),
    ("cancelled", .nat t.cancelled.toNat), ("in_flight", .nat t.inFlight.toNat),
    ("average_duration_ms", .real t.average)]

/-- How the gateway is, since when, and the instances of each service by status. -/
def healthJson (g : Gateway) : Json :=
  .obj [("status", .str "healthy"), ("timestamp", .str g.now.text),
    ("uptime_secs", .int (g.now.secondsSince g.startedAt)), ("version", .str version),
    ("instances", .nat g.registry.size),
    ("services", keyedJson statusCountsJson g.registry.statusCounts)]

/-- Traffic, leases, subscribers and the number of healthy instances of each service. -/
def metricsJson (g : Gateway) : Json :=
  .obj [("requests_total", .nat g.proxy.traffic.total),
    ("in_flight", .nat g.proxy.balancer.totalHeld),
    ("active_subscribers", .nat g.hub.gauge.count),
    ("registered_instances", .nat g.registry.size),
    ("services", keyedJson tallyJson g.proxy.traffic.services),
    ("service_health", keyedJson (fun c => .nat c.healthy) g.registry.statusCounts)]

end Switchyard.Api
