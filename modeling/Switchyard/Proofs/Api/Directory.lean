import Switchyard.Proofs.Gateway.History
import Switchyard.Proofs.Health.Pass
import Switchyard.Proofs.Http.Segment
import Switchyard.Proofs.Hub.Messages
import Switchyard.Proofs.Proxy.Sending
import Switchyard.Proofs.Registry.Renewal

/-! The directory over HTTP. Each request to it is a look at the registry or one change of it, and
its answer says what the registry says; a request that is refused changes nothing. An id goes into
a path by its percent-encoding, and comes out of it as the id that it was. -/
namespace Switchyard.Api

open Http (Request Response)
open Http.Url (encodeWith IsSegmentSet)
open Registry (Change)
open Text.Percent (decodeText?)

variable {g : Gateway} {r : Request} {segment id : String} {patience : Option Nat}

/-! ### Answers -/

/-- That a response shows a value as JSON. -/
structure Shows (x : Response) (status : Nat) (j : Json) : Prop where
  status : x.status = status
  type : x.headers.first? "content-type" = some (Text.bytes "application/json")
  body : (Text.ofBytes? x.body).bind Json.parse? = some j

/-- The text of a value is read as that value. -/
theorem parse?_write {j : Json} (exact_ : j.isExact = true)
    (whole : j.isWhole Json.maxDepth = true) :
    Json.parse? j.write = some j := by
  simp [Json.parse?, Json.write, Json.readChars_chars exact_, whole]

theorem Shows.of_json (status : Nat) {j : Json} (exact_ : j.isExact = true)
    (whole : j.isWhole Json.maxDepth = true) : Shows (.json status j) status j where
  status := rfl
  type := rfl
  body := by
    have hbody : (Response.json status j).body = Text.bytes j.write := rfl
    rw [hbody, Text.ofBytes?_bytes, Option.bind_some, parse?_write exact_ whole]

theorem shows_json (status : Nat) {j : Json} (exact_ : j.isExact = true)
    (whole : j.isWhole Json.maxDepth = true) :
    Shows (overlay originHeaders (.json status j)) status j where
  status := rfl
  type := rfl
  body := (Shows.of_json status exact_ whole).body

/-! ### Bodies -/

/-- That a request carries a registration: it comes as JSON, its body arrives whole and is not too
long, and what the body begins with is read as the registration. -/
structure Carries (r : Request) (q : Registration) : Prop where
  type : (r.headers.first? "content-type").any Http.MediaType.isJson = true
  whole : r.body.failure = none
  room : r.body.chunks.flatten.length ≤ maxRegistrationBytes
  reads : Registration.decoder.readFront r.body.chunks.flatten = .ok q

theorem registration_eq_ok_iff {q : Registration} : registration r = .ok q ↔ Carries r q := by
  unfold registration
  cases htype : (r.headers.first? "content-type").any Http.MediaType.isJson with
  | false => exact ⟨nofun, fun h => absurd h.type (by simp [htype])⟩
  | true =>
    simp only [Bool.not_true, Bool.false_eq_true, if_false]
    cases hbody : r.body.read maxRegistrationBytes with
    | whole body =>
      obtain ⟨hwhole, rfl, hroom⟩ := Http.Inflow.collect_iff.1 hbody
      dsimp only
      cases hreads : Registration.decoder.readFront r.body.chunks.flatten with
      | ok q' =>
        constructor
        · rintro ⟨⟩
          exact ⟨htype, hwhole, hroom, hreads⟩
        · intro h
          cases hreads.symm.trans h.reads
          rfl
      | error refusal =>
        have hnot : ¬ Carries r q := fun h => by cases hreads.symm.trans h.reads
        cases refusal <;> exact ⟨nofun, fun h => absurd h hnot⟩
    | tooLong =>
      refine ⟨nofun, fun h => ?_⟩
      cases hbody.symm.trans (Http.Inflow.collect_iff.2 ⟨h.whole, rfl, h.room⟩)
    | failed reason =>
      refine ⟨nofun, fun h => ?_⟩
      cases hbody.symm.trans (Http.Inflow.collect_iff.2 ⟨h.whole, rfl, h.room⟩)

/-- The JSON of a registration carries that registration, however the body is cut. -/
theorem carries_json {q : Registration}
    (type : (r.headers.first? "content-type").any Http.MediaType.isJson = true)
    (whole : r.body.failure = none) (room : r.body.chunks.flatten.length ≤ maxRegistrationBytes)
    (json : r.body.chunks.flatten = Text.bytes q.toJson.write) : Carries r q where
  type := type
  whole := whole
  room := room
  reads := by
    rw [json, Json.Decoder.readFront_write _ q.toJson_isExact, q.decoder_toJson]

/-! ### Paths -/

/-- A path of the directory: that of all instances, or that of one. -/
inductive IsDirectory : String → Prop where
  | all : IsDirectory "/api/services"
  | one (segment : String) (some_ : segment ≠ "") (sole : '/' ∉ segment.toList) :
      IsDirectory ("/api/services/" ++ segment)

theorem ofPath?_services : Route.ofPath? "/api/services" = some .services := by decide +kernel

theorem ofPath?_service (some_ : segment ≠ "") (sole : '/' ∉ segment.toList) :
    Route.ofPath? ("/api/services/" ++ segment) = some (.service segment) := by
  have hsplit : ("/api/services/" ++ segment).toList.splitOn '/' =
      [[], "api".toList, "services".toList, segment.toList] := by
    have hchars : ("/api/services/" ++ segment).toList =
        [] ++ '/' :: ("api".toList ++ '/' :: ("services".toList ++ '/' :: segment.toList)) := by
      simp
    rw [hchars, List.splitOn_append_cons_self_of_not_mem (by simp),
      List.splitOn_append_cons_self_of_not_mem (by simp),
      List.splitOn_append_cons_self_of_not_mem (by simp), List.splitOn_eq_singleton sole]
  rw [Route.ofPath?, hsplit]
  simp [some_]

/-- The change of the registry that a request to the directory asks for. -/
def command? (r : Request) : Option Change :=
  match Route.ofPath? r.path with
  | some .services => if r.method = "POST" then (registration r).toOption.map .register else none
  | some (.service segment) =>
    if r.method = "DELETE" then (decodeText? segment).map .deregister else none
  | _ => none

theorem command?_services (path : r.path = "/api/services") :
    command? r =
      if r.method = "POST" then (registration r).toOption.map .register else none := by
  rw [command?, path, ofPath?_services]

theorem command?_service (route : Route.ofPath? r.path = some (.service segment)) :
    command? r =
      if r.method = "DELETE" then (decodeText? segment).map .deregister else none := by
  rw [command?, route]

/-! ### One request -/

theorem respond_post (g : Gateway) (patience : Option Nat) (method : r.method = "POST")
    (path : r.path = "/api/services") :
    respond g r patience =
      ((registerService g r).1, ⟨some (overlay originHeaders (registerService g r).2), [], none⟩) := by
  simp [respond, path, ofPath?_services, method, Route.methods?, Route.illegible?, serveRoute]

theorem respond_list (g : Gateway) (patience : Option Nat) (method : r.method = "GET")
    (path : r.path = "/api/services") :
    respond g r patience = (g, ⟨some (overlay originHeaders (listServices g)), [], none⟩) := by
  simp [respond, path, ofPath?_services, method, Route.methods?, Route.illegible?, serveRoute]

theorem respond_get (g : Gateway) (patience : Option Nat) (method : r.method = "GET")
    (route : Route.ofPath? r.path = some (.service segment))
    (decoded_ : decodeText? segment = some id) :
    respond g r patience = (g, ⟨some (overlay originHeaders (getService g id)), [], none⟩) := by
  simp [respond, route, method, Route.methods?, Route.illegible?, decoded_, serveRoute, decoded]

theorem respond_delete (g : Gateway) (patience : Option Nat) (method : r.method = "DELETE")
    (route : Route.ofPath? r.path = some (.service segment))
    (decoded_ : decodeText? segment = some id) :
    respond g r patience = ((g.deregister id).1,
      ⟨some (overlay originHeaders (deregisterService g id).2), [], none⟩) := by
  simp [respond, route, method, Route.methods?, Route.illegible?, decoded_, serveRoute, decoded,
    deregisterService]

theorem registerService_of_unreadable {u : Unreadable} (h : registration r = .error u) :
    registerService g r = (g, registrationRefused u.message) := by
  simp only [registerService, h]

theorem registerService_of_defect {q : Registration} {d : Defect} (h : registration r = .ok q)
    (defect : q.defect? = some d) :
    registerService g r = (g, registrationRefused d.message) := by
  simp only [registerService, h, Gateway.register, Gateway.withRegistry,
    Registry.register_of_defect defect]
  rfl

theorem registerService_of_sound {q : Registration} (h : registration r = .ok q)
    (sound : q.defect? = none) :
    registerService g r = ((g.register q).1,
      .json 201 (.obj [("message", .str "Service registered successfully"),
        ("service_id", .str (g.registry.idFor g.now q)), ("success", .bool true)])) := by
  simp only [registerService, h, Gateway.register, Gateway.withRegistry,
    Registry.register_of_sound sound]

theorem registerService_state (r : Request) (g : Gateway) :
    (registerService g r).1 =
      match registration r with
      | .error _ => g
      | .ok q => g.heed (.change (.register q)) := by
  cases h : registration r with
  | error u => rw [registerService_of_unreadable h]
  | ok q =>
    cases hq : q.defect? with
    | some d =>
      have hsame : g.heed (.change (.register q)) = g := by
        simp only [Gateway.heed, Gateway.register, Gateway.withRegistry,
          Registry.register_of_defect hq]
        rfl
      simp only [registerService_of_defect h hq, hsame]
    | none => rw [registerService_of_sound h hq]; rfl

theorem respond_services_other (method : r.method ≠ "POST") (path : r.path = "/api/services") :
    (respond g r patience).1 = g := by
  simp only [respond, path, ofPath?_services, Route.illegible?, serveRoute, if_neg method]
  split
  · rfl
  · split <;> rfl

theorem respond_service_other (route : Route.ofPath? r.path = some (.service segment))
    (other : r.method ≠ "DELETE" ∨ decodeText? segment = none) :
    (respond g r patience).1 = g := by
  simp only [respond, route, Route.illegible?, serveRoute]
  split
  · rfl
  · split
    · rfl
    · cases hid : decodeText? segment with
      | none => rfl
      | some id =>
        have hmethod : r.method ≠ "DELETE" := other.resolve_right (by simp [hid])
        simp only [Option.isNone_some, Bool.false_eq_true, if_false, if_neg hmethod]

/-- A request to the directory does what it asks for, and nothing else. -/
theorem respond_command (h : IsDirectory r.path) :
    (respond g r patience).1 =
      match command? r with
      | none => g
      | some c => g.heed (.change c) := by
  generalize hpath : r.path = path at h
  cases h with
  | all =>
    rw [command?_services hpath]
    by_cases hmethod : r.method = "POST"
    · rw [respond_post g patience hmethod hpath, registerService_state, if_pos hmethod]
      cases registration r <;> rfl
    · rw [respond_services_other hmethod hpath, if_neg hmethod]
  | one segment some_ sole =>
    have hroute : Route.ofPath? r.path = some (.service segment) :=
      hpath ▸ ofPath?_service some_ sole
    rw [command?_service hroute]
    by_cases hmethod : r.method = "DELETE"
    · rw [if_pos hmethod]
      cases hid : decodeText? segment with
      | none => exact respond_service_other hroute (.inr hid)
      | some id =>
        rw [respond_delete g patience hmethod hroute hid]
        rfl
    · rw [respond_service_other hroute (.inl hmethod), if_neg hmethod]

/-! ### Many requests -/

/-- Requests to the directory are the changes that they ask for, all at one moment. -/
theorem run_requests (g : Gateway) {rs : List (Request × Option Nat)}
    (h : ∀ p ∈ rs, IsDirectory p.1.path) :
    (g.run (rs.map fun p => .request p.1 p.2)).registry =
      (g.registry.runAt g.now (rs.filterMap fun p => command? p.1)).1 := by
  induction rs generalizing g with
  | nil => rfl
  | cons p rest ih =>
    obtain ⟨hp, hrest⟩ := List.forall_mem_cons.1 h
    have hperform : g.perform (.request p.1 p.2) =
        match command? p.1 with
        | none => g
        | some c => g.heed (.change c) := respond_command hp
    rw [List.map_cons, Gateway.run_cons, hperform, ih _ hrest, List.filterMap_cons]
    cases command? p.1 with
    | none => rfl
    | some c => cases c <;> rfl

/-! ### Ids that are held -/

theorem ne_empty_of_held (settings : Settings) (base : Int) (ticksFirst : Task → Nat → Bool)
    (ds : List Gateway.Deed) {i : Instance}
    (held : ((Gateway.new settings base ticksFirst).run ds).registry.get? id = some i) :
    id ≠ "" := by
  have hreaches := (Gateway.run_reaches (Gateway.new settings base ticksFirst) ds).registry
  obtain ⟨calls, hcalls⟩ := Health.exists_run_of_reaches
    (Chronicle.start settings.healthCheck.evictionThreshold) hreaches
  have hget : ((Chronicle.start settings.healthCheck.evictionThreshold).run calls).registry.get?
      id = some i := by
    rw [hcalls]
    exact held
  have hnamed := Chronicle.named_run (Chronicle.named_start _) calls id i hget
  rintro rfl
  exact Registry.trim_ne_of_isGiven hnamed (by decide)

/-! ### What the answers say -/

/-- That the answer to a request shows a value as JSON. -/
def Answers (g : Gateway) (r : Request) (patience : Option Nat) (status : Nat) (j : Json) : Prop :=
  ∃ x, (respond g r patience).2.response = some x ∧ Shows x status j

/-- A registration is stored, or it is refused and changes nothing. -/
theorem adds_or_refuses (g : Gateway) (patience : Option Nat) (method : r.method = "POST")
    (path : r.path = "/api/services") :
    (∃ q id, Carries r q ∧ q.defect? = none ∧
      Answers g r patience 201 (.obj [("message", .str "Service registered successfully"),
        ("service_id", .str id), ("success", .bool true)]) ∧
      (respond g r patience).1.registry.get? id =
        some ⟨id, q.name, q.address, q.port, .unknown, g.now, q.metadata, 0,
          g.registry.registrations⟩ ∧
      ∀ other, other ≠ id →
        (respond g r patience).1.registry.get? other = g.registry.get? other) ∨
    ∃ message, Answers g r patience 400
        (.obj [("error", .str message), ("success", .bool false)]) ∧
      (respond g r patience).1 = g ∧
      ∀ q, Carries r q → ∃ d, q.defect? = some d ∧ message = d.message := by
  have hrespond := respond_post g patience method path
  have hrefused (message : String) (h : registerService g r = (g, registrationRefused message)) :
      Answers g r patience 400 (.obj [("error", .str message), ("success", .bool false)]) ∧
        (respond g r patience).1 = g := by
    rw [Answers, hrespond, h]
    exact ⟨⟨_, rfl, shows_json 400 rfl rfl⟩, rfl⟩
  cases h : registration r with
  | error u =>
    obtain ⟨hanswer, hsame⟩ := hrefused _ (registerService_of_unreadable h)
    refine .inr ⟨_, hanswer, hsame, fun q hq => ?_⟩
    cases h.symm.trans (registration_eq_ok_iff.2 hq)
  | ok q =>
    cases hq : q.defect? with
    | some d =>
      obtain ⟨hanswer, hsame⟩ := hrefused _ (registerService_of_defect h hq)
      refine .inr ⟨_, hanswer, hsame, fun q' hq' => ?_⟩
      cases h.symm.trans (registration_eq_ok_iff.2 hq')
      exact ⟨d, hq, rfl⟩
    | none =>
      have hstored : Registry.StoredUnder g.registry g.now q (g.registry.idFor g.now q) :=
        Registry.storedUnder_idFor hq
      rw [registerService_of_sound h hq] at hrespond
      have hregistry : (respond g r patience).1.registry =
          (g.registry.register g.now q).state := by
        rw [hrespond]
        rfl
      refine .inl ⟨q, _, registration_eq_ok_iff.1 h, hq, ?_, hregistry ▸ hstored.record,
        fun other hne => ?_⟩
      · rw [Answers, hrespond]
        exact ⟨_, rfl, shows_json 201 rfl rfl⟩
      · rw [hregistry]
        exact hstored.others other hne

theorem lists_all (g : Gateway) (patience : Option Nat) (method : r.method = "GET")
    (path : r.path = "/api/services") :
    (respond g r patience).1 = g ∧
      Answers g r patience 200 (directoryJson g.registry.list) := by
  rw [Answers, respond_list g patience method path]
  exact ⟨rfl, _, rfl, shows_json 200 (ServerMessage.directoryJson_isExact _)
    (ServerMessage.directoryJson_isWhole _ 124)⟩

theorem shows_one (g : Gateway) (patience : Option Nat) (method : r.method = "GET")
    (route : Route.ofPath? r.path = some (.service segment))
    (decoded_ : decodeText? segment = some id) :
    (respond g r patience).1 = g ∧
      (∀ i, g.registry.get? id = some i → Answers g r patience 200 i.toJson) ∧
      (g.registry.get? id = none →
        Answers g r patience 404 (.obj [("error", .str ("Instance not found: " ++ id))])) := by
  have hrespond := respond_get g patience method route decoded_
  refine ⟨by rw [hrespond], fun i hi => ?_, fun hnone => ?_⟩
  · rw [Answers, hrespond, getService, hi]
    exact ⟨_, rfl, shows_json 200 i.toJson_isExact (i.toJson_isWhole 125)⟩
  · rw [Answers, hrespond, getService, hnone]
    exact ⟨_, rfl, shows_json 404 rfl rfl⟩

theorem removes_one (g : Gateway) (patience : Option Nat) (method : r.method = "DELETE")
    (route : Route.ofPath? r.path = some (.service segment))
    (decoded_ : decodeText? segment = some id) :
    Answers g r patience 200 (.obj [("removed", .bool (g.registry.get? id).isSome),
        ("service_id", .str id), ("success", .bool true)]) ∧
      ∀ other, (respond g r patience).1.registry.get? other =
        if other = id then none else g.registry.get? other := by
  have hrespond := respond_delete g patience method route decoded_
  have hanswer : (deregisterService g id).2 =
      .json 200 (.obj [("removed", .bool (g.registry.get? id).isSome), ("service_id", .str id),
        ("success", .bool true)]) := by
    rw [← Registry.deregister_answer]
    rfl
  constructor
  · rw [Answers, hrespond, hanswer]
    exact ⟨_, rfl, shows_json 200 rfl rfl⟩
  · rw [hrespond]
    exact Registry.get?_deregister

/-- The directory over HTTP is the registry. A registration is stored under the id that its answer
names, as it was carried, or it is refused and nothing changes; the listing shows every record
under its id; a path shows and removes the record whose id its segment decodes to, and no other;
and each id that is held has such a path. So any number of requests are the changes that they ask
for. -/
theorem directory_serves_registry (settings : Settings) (base : Int)
    (ticksFirst : Task → Nat → Bool) (ds : List Gateway.Deed) (r : Request)
    (patience : Option Nat) :
    let g := (Gateway.new settings base ticksFirst).run ds
    let after := (respond g r patience).1
    let answers := Answers g r patience
    (r.method = "POST" → r.path = "/api/services" →
      (∃ q id, Carries r q ∧ q.defect? = none ∧
        answers 201 (.obj [("message", .str "Service registered successfully"),
          ("service_id", .str id), ("success", .bool true)]) ∧
        after.registry.get? id = some ⟨id, q.name, q.address, q.port, .unknown, g.now,
          q.metadata, 0, g.registry.registrations⟩ ∧
        ∀ other, other ≠ id → after.registry.get? other = g.registry.get? other) ∨
      ∃ message, answers 400 (.obj [("error", .str message), ("success", .bool false)]) ∧
        after = g ∧ ∀ q, Carries r q → ∃ d, q.defect? = some d ∧ message = d.message) ∧
    (∀ q, (r.headers.first? "content-type").any Http.MediaType.isJson = true →
      r.body.failure = none → r.body.chunks.flatten.length ≤ maxRegistrationBytes →
      r.body.chunks.flatten = Text.bytes q.toJson.write → Carries r q) ∧
    (r.method = "GET" → r.path = "/api/services" →
      after = g ∧ answers 200 (.obj (g.registry.list.entries.map fun e => (e.1, e.2.toJson)))) ∧
    (∀ segment id, segment ≠ "" → '/' ∉ segment.toList → decodeText? segment = some id →
      r.path = "/api/services/" ++ segment →
      (r.method = "GET" → after = g ∧
        (∀ i, g.registry.get? id = some i → answers 200 i.toJson) ∧
        (g.registry.get? id = none →
          answers 404 (.obj [("error", .str ("Instance not found: " ++ id))]))) ∧
      (r.method = "DELETE" →
        answers 200 (.obj [("removed", .bool (g.registry.get? id).isSome),
          ("service_id", .str id), ("success", .bool true)]) ∧
        ∀ other, after.registry.get? other =
          if other = id then none else g.registry.get? other)) ∧
    (∀ id i keeps, g.registry.get? id = some i → IsSegmentSet keeps →
      r.path = "/api/services/" ++ encodeWith keeps id.toList →
      (r.method = "GET" → answers 200 i.toJson) ∧
      (r.method = "DELETE" → answers 200 (.obj [("removed", .bool true),
        ("service_id", .str id), ("success", .bool true)]) ∧ after.registry.get? id = none)) ∧
    ∀ rs : List (Request × Option Nat), (∀ p ∈ rs, IsDirectory p.1.path) →
      (g.run (rs.map fun p => .request p.1 p.2)).registry =
        (g.registry.runAt g.now (rs.filterMap fun p => command? p.1)).1 := by
  intro g after answers
  refine ⟨adds_or_refuses g patience, fun q => carries_json, lists_all g patience,
    fun segment id hsome hsole hdecoded hpath => ?_, fun id i keeps held hkeeps hpath => ?_,
    fun rs h => run_requests g h⟩
  · have hroute : Route.ofPath? r.path = some (.service segment) :=
      hpath ▸ ofPath?_service hsome hsole
    exact ⟨fun hmethod => shows_one g patience hmethod hroute hdecoded,
      fun hmethod => removes_one g patience hmethod hroute hdecoded⟩
  · have hne := ne_empty_of_held settings base ticksFirst ds held
    have hroute : Route.ofPath? r.path = some (.service (encodeWith keeps id.toList)) :=
      hpath ▸ ofPath?_service (hkeeps.encodeWith_ne_empty id hne) (hkeeps.slash_not_mem id)
    have hdecoded := hkeeps.decodeText?_encodeWith id
    refine ⟨fun hmethod => (shows_one g patience hmethod hroute hdecoded).2.1 i held,
      fun hmethod => ?_⟩
    obtain ⟨hanswer, hget⟩ := removes_one g patience hmethod hroute hdecoded
    rw [held] at hanswer
    exact ⟨hanswer, (hget id).trans (if_pos rfl)⟩

/-- An id with a slash, a blank and a letter beyond ASCII is registered, read and removed. -/
theorem directory_serves_registry_escaped :
    let id := "a/b \u00e9"
    let q := (Registration.new "db" "10.0.0.1" 5432).withId id
    let g := (Gateway.new {} 0).run [.call (.change (.register q))]
    let path := "/api/services/a%2Fb%20%C3%A9"
    let post : Request :=
      { method := "POST", path := "/api/services"
        headers := [("content-type", ascii "application/json")]
        body := { chunks := [Text.bytes q.toJson.write] } }
    (∃ given, Answers g post none 201 (.obj [("message", .str "Service registered successfully"),
      ("service_id", .str given), ("success", .bool true)])) ∧
    (∃ i : Instance, i.id = id ∧ Answers g { path } none 200 i.toJson) ∧
    Answers g { method := "DELETE", path } none 200
      (.obj [("removed", .bool true), ("service_id", .str id), ("success", .bool true)]) ∧
    (g.run [.request { path } none, .request { method := "DELETE", path } none]).registry =
      (g.registry.deregister id).state := by
  intro id q g path post
  have kept : IsSegmentSet fun b => 97 ≤ b && b ≤ 122 := by
    refine ⟨fun b hb => ?_, rfl, rfl⟩
    have hb : 128 ≤ b.toNat := hb
    have hlast : ¬ b ≤ 122 := fun h => by
      have h : b.toNat ≤ 122 := h
      omega
    simp [hlast]
  have escaped : path = "/api/services/" ++ encodeWith (fun b => 97 ≤ b && b ≤ 122) id.toList := by
    decide +kernel
  have held : (g.registry.get? id).map Instance.id = some id := by decide +kernel
  obtain ⟨i, hi, hid⟩ := Option.map_eq_some_iff.1 held
  have hdirectory : IsDirectory path :=
    .one "a%2Fb%20%C3%A9" (by decide) (by decide)
  obtain ⟨hadds, hcarries, -⟩ :=
    directory_serves_registry {} 0 (fun _ _ => false) [.call (.change (.register q))] post none
  obtain ⟨-, -, -, -, hread, -⟩ := directory_serves_registry {} 0 (fun _ _ => false)
    [.call (.change (.register q))] { path } none
  obtain ⟨-, -, -, -, hremove, hall⟩ := directory_serves_registry {} 0 (fun _ _ => false)
    [.call (.change (.register q))] { method := "DELETE", path } none
  refine ⟨?_, ⟨i, hid, (hread id i _ hi kept escaped).1 rfl⟩,
    ((hremove id i _ hi kept escaped).2 rfl).1, ?_⟩
  · have hcarried : Carries post q :=
      hcarries q (by decide +kernel) rfl (by decide +kernel) (List.append_nil _)
    rcases hadds rfl rfl with ⟨_, given, -, -, hanswer, -⟩ | ⟨message, -, -, hrefused⟩
    · exact ⟨given, hanswer⟩
    · obtain ⟨d, hd, -⟩ := hrefused q hcarried
      have hsound : q.defect? = none := by decide +kernel
      exact absurd (hsound.symm.trans hd) nofun
  · have hroute : Route.ofPath? path = some (.service "a%2Fb%20%C3%A9") := by decide +kernel
    have hdecoded : decodeText? "a%2Fb%20%C3%A9" = some id := by decide +kernel
    have hget : command? { path } = none := by
      rw [command?_service (r := { path }) hroute, if_neg (by decide)]
    have hdelete : command? { method := "DELETE", path } = some (.deregister id) := by
      rw [command?_service (r := { method := "DELETE", path }) hroute, if_pos rfl, hdecoded,
        Option.map_some]
    have hrun := hall [({ path }, none), ({ method := "DELETE", path }, none)]
      (by simp only [List.forall_mem_cons]; exact ⟨hdirectory, hdirectory, nofun⟩)
    simp only [List.filterMap_cons, hget, hdelete] at hrun
    exact hrun

end Switchyard.Api
