import Switchyard.Api.Respond
import Switchyard.Proofs.Registry.Census

/-! What the gateway reports of its registry. The report on its health and the one on its traffic
show the same census, and so does everything else that looks at the registry. -/
namespace Switchyard.Api

open Http (Request Response)
open Registry (Change WellFormed)

variable {g : Gateway}

/-! ### The two reports -/

/-- That a look at a path changes nothing and is answered by JSON with some fields. -/
def Reports (g : Gateway) (path : String) (fields : List (String × Json)) : Prop :=
  ∀ (r : Request) (patience : Option Nat), r.method = "GET" → r.path = path →
    ∃ (x : Response) (j : Json), respond g r patience = (g, ⟨some x, [], none⟩) ∧ x.status = 200 ∧
      x.body = Text.bytes j.write ∧ ∀ f ∈ fields, j.field? f.1 = some f.2

theorem ofPath?_health : Route.ofPath? "/api/health" = some .health := by decide +kernel

theorem ofPath?_metrics : Route.ofPath? "/api/metrics" = some .metrics := by decide +kernel

theorem reports_of {path : String} {j : Json} {fields : List (String × Json)}
    (answers : ∀ (r : Request) (patience : Option Nat), r.method = "GET" → r.path = path →
      respond g r patience = (g, ⟨some (overlay originHeaders (.json 200 j)), [], none⟩))
    (shown : ∀ f ∈ fields, j.field? f.1 = some f.2) : Reports g path fields :=
  fun r patience method path => ⟨_, j, answers r patience method path, rfl, rfl, shown⟩

theorem reports_health (g : Gateway) :
    Reports g "/api/health" [("instances", .nat g.registry.size),
      ("services", .obj (g.registry.statusCounts.entries.map fun e =>
        (e.1, statusCountsJson e.2)))] := by
  refine reports_of (j := healthJson g) (fun r patience method path => ?_) ?_
  · simp [respond, path, ofPath?_health, method, Route.methods?, Route.illegible?, serveRoute]
  · simp [healthJson, Json.field?, keyedJson]

/-- The healthy instances of each service, as they are reported. -/
theorem keyedJson_healthy (r : Registry) :
    keyedJson (fun c => .nat c.healthy) r.statusCounts =
      .obj (r.statusCounts.keys.map fun name => (name, .nat (r.healthy name).length)) := by
  rw [keyedJson, Keyed.keys, List.map_map]
  congr 1
  refine List.map_congr_left fun e he => ?_
  have hget : r.statusCounts.get? e.1 = some e.2 := (Keyed.get?_eq_some_iff _).2 he
  rw [r.get?_statusCounts, Option.ite_none_right_eq_some] at hget
  rw [Function.comp_apply, r.length_healthy, Option.some.inj hget.2]

theorem reports_metrics (g : Gateway) :
    Reports g "/api/metrics" [("registered_instances", .nat g.registry.size),
      ("service_health", .obj (g.registry.statusCounts.keys.map fun name =>
        (name, .nat (g.registry.healthy name).length)))] := by
  refine reports_of (j := metricsJson g) (fun r patience method path => ?_) ?_
  · simp [respond, path, ofPath?_metrics, method, Route.methods?, Route.illegible?, serveRoute]
  · simp [metricsJson, Json.field?, keyedJson_healthy]

/-! ### All views -/

/-- All views of a registry show the same records, whatever calls have led to it. Each record
stands under its own id and could be registered as it is; an id is looked up with success just when
it is listed; the healthy instances of a service are the listed ones, by their ids; the services
that are counted are those that are listed, each with its instances by status, and all counts
together are the size, which is zero just when nothing is there. The size is the number of
registrations that brought a new id, less the deregistrations that found theirs and the evictions.
And a gateway with this registry reports the very same numbers. -/
theorem views_agree (threshold : UInt32) (calls : List (Instant × Change)) :
    let start : Registry := { threshold }
    let r := (start.run calls).1
    (∀ id i, (id, i) ∈ r.list.entries → WellFormed id i) ∧
    (∀ id i, r.get? id = some i ↔ (id, i) ∈ r.list.entries) ∧
    (∀ id, (r.get? id).isSome ↔ id ∈ r.list.keys) ∧
    (∀ name, (∀ i, i ∈ r.healthy name ↔
        i ∈ r.list.values ∧ i.name = name ∧ i.status = .healthy) ∧
      (r.healthy name).Pairwise (·.id < ·.id) ∧ (r.healthy name).Nodup) ∧
    (∀ name, name ∈ r.statusCounts.keys ↔ ∃ i ∈ r.list.values, i.name = name) ∧
    (∀ name c, r.statusCounts.get? name = some c →
      c.healthy = (r.healthy name).length ∧
      c.unhealthy = r.list.values.countP (fun i => i.name == name && i.status == .unhealthy) ∧
      c.unknown = r.list.values.countP (fun i => i.name == name && i.status == .unknown)) ∧
    r.statusCounts.sum (fun c => c.healthy + c.unhealthy + c.unknown) = r.size ∧
    r.size = r.list.keys.length ∧ (r.isEmpty = true ↔ r.size = 0) ∧
    r.size + start.count Registry.removes calls + start.count Registry.loses calls =
      start.count Registry.opens calls ∧
    ∀ g : Gateway, g.registry = r →
      Reports g "/api/health" [("instances", .nat r.size),
        ("services", .obj (r.statusCounts.entries.map fun e => (e.1, statusCountsJson e.2)))] ∧
      Reports g "/api/metrics" [("registered_instances", .nat r.size),
        ("service_health",
          .obj (r.statusCounts.keys.map fun name => (name, .nat (r.healthy name).length)))] := by
  intro start r
  have hr : ((Chronicle.start threshold).run calls).registry = r :=
    Chronicle.run_registry (Chronicle.start threshold) calls
  have hnumbered := Chronicle.numbered_run (Chronicle.numbered_start threshold) calls
  have hwell := Chronicle.wellFormed_run (w := Chronicle.start threshold) nofun calls
  have hsorted := fun name => hnumbered.healthy_pairwise name
  rw [hr] at hwell hsorted
  have hentries (id : String) (i : Instance) : r.get? id = some i ↔ (id, i) ∈ r.list.entries :=
    Keyed.get?_eq_some_iff _
  have hcalls := start.size_run calls
  have hempty : start.size = 0 := rfl
  refine ⟨fun id i hi => hwell id i ((hentries id i).2 hi), hentries,
    fun id => (Keyed.mem_keys_iff _).symm, fun name => ⟨fun i => ?_, hsorted name, ?_⟩,
    fun name => ?_, fun name c hc => ?_, r.sum_statusCounts, (List.length_map _).symm,
    r.isEmpty_iff, ?_, ?_⟩
  · rw [Registry.healthy, List.mem_filter, Bool.and_eq_true, beq_iff_eq, Instance.isHealthy,
      beq_iff_eq]
    rfl
  · refine (hsorted name).imp fun hlt heq => ?_
    rw [heq] at hlt
    exact String.lt_irrefl _ hlt
  · rw [Keyed.mem_keys_iff, r.get?_statusCounts, ← List.mem_map]
    split <;> simp [*]
  · rw [r.get?_statusCounts, Option.ite_none_right_eq_some] at hc
    rw [← Option.some.inj hc.2]
    exact ⟨(r.length_healthy name).symm, rfl, rfl⟩
  · rw [hempty, Nat.zero_add] at hcalls
    exact hcalls
  · intro g hg
    rw [← hg]
    exact ⟨reports_health g, reports_metrics g⟩

/-- Of four ids one is registered again for another service, one is deregistered and one evicted. -/
theorem views_agree_evicted :
    let new (name id : String) : Change :=
      .register ((Registration.new name "10.0.0.1" 80).withId id)
    let calls : List (Instant × Change) :=
      [new "db" "db-1", new "api" "api-1", new "api" "api-2", new "web" "web-1",
        new "cache" "db-1", .fold "api-1" true, .deregister "api-2", .deregister "api-2",
        .fold "web-1" false].map fun c => (⟨0, 0⟩, c)
    let start : Registry := { threshold := 1 }
    let r := (start.run calls).1
    r.size + 1 + 1 = 4 ∧ (∃ i, r.get? "db-1" = some i ∧ i.name = "cache" ∧ WellFormed "db-1" i) ∧
      (∀ id, (r.get? id).isSome ↔ id ∈ ["api-1", "db-1"]) ∧
      ∀ g : Gateway, g.registry = r →
        Reports g "/api/metrics" [("registered_instances", .nat 2),
          ("service_health", .obj [("api", .nat 1), ("cache", .nat 0)])] := by
  intro new calls start r
  obtain ⟨hwell, hget, hids, -, -, -, -, -, -, hsize, hreports⟩ := views_agree 1 calls
  have hremoves : start.count Registry.removes calls = 1 := by decide +kernel
  have hloses : start.count Registry.loses calls = 1 := by decide +kernel
  have hopens : start.count Registry.opens calls = 4 := by decide +kernel
  have htwo : r.size = 2 := by decide +kernel
  have hkeys : r.list.keys = ["api-1", "db-1"] := by decide +kernel
  have hnames : r.statusCounts.keys = ["api", "cache"] := by decide +kernel
  have hapi : (r.healthy "api").length = 1 := by decide +kernel
  have hcache : (r.healthy "cache").length = 0 := by decide +kernel
  have hheld : (r.get? "db-1").map Instance.name = some "cache" := by decide +kernel
  obtain ⟨i, hi, hname⟩ := Option.map_eq_some_iff.1 hheld
  refine ⟨?_, ⟨i, hi, hname, hwell _ i ((hget _ i).1 hi)⟩, fun id => ?_, fun g hg => ?_⟩
  · rw [hremoves, hloses, hopens] at hsize
    exact hsize
  · rw [hids, hkeys]
  · have hmetrics := (hreports g hg).2
    rw [htwo, hnames, List.map_cons, List.map_cons, hapi, hcache] at hmetrics
    exact hmetrics

end Switchyard.Api
