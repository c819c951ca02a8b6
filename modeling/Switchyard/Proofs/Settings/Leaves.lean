import Mathlib.Tactic.Common
import Switchyard.Proofs.Settings.Overlay
import Switchyard.Settings.Load

/-! The single settings. Settings come of a tree just if each section of the tree has the shape of
one and each single setting is what its value is converted to, or its default where the tree has no
value for it; and they are loaded just if they also meet the conditions. -/
namespace Switchyard

section Faults

variable {ε α β : Type} {x : Except ε α} {b : β}

theorem bind_eq_ok_iff {f : α → Except ε β} :
    (x >>= f) = .ok b ↔ ∃ a, x = .ok a ∧ f a = .ok b := by
  cases x <;> simp [bind, Except.bind]

theorem map_eq_ok_iff {f : α → β} : f <$> x = .ok b ↔ ∃ a, x = .ok a ∧ f a = b := by
  cases x <;> simp [Functor.map, Except.map]

end Faults

namespace Tree

/-- The shape of a section: a table, or a list of its values in their order. -/
def isSection : Tree → Bool
  | table _ | list _ => true
  | _ => false

/-- A conversion takes scalars; of a table it takes nothing but the name of its one key. -/
structure IsPlain {α : Type} (convert : Conversion α) : Prop where
  nil : ∀ label a, convert label nil ≠ .ok a
  list : ∀ label ts a, convert label (list ts) ≠ .ok a
  table : ∀ label fields a, convert label (table fields) = .ok a →
    ∃ name t, fields = [(name, t)] ∧ ∀ u, convert label (table [(name, u)]) = .ok a

theorem isPlain_scalar {α : Type} {read : Tree → Option α} (hnil : read nil = none)
    (hlist : ∀ ts, read (list ts) = none) (htable : ∀ fields, read (table fields) = none) :
    IsPlain (scalar read) where
  nil label a h := by simp [scalar, hnil] at h
  list label ts a h := by simp [scalar, hlist] at h
  table label fields a h := by simp [scalar, htable] at h

theorem isPlain_strategy : IsPlain Strategy.ofTree where
  nil label a h := by cases h
  list label ts a h := by cases h
  table label fields a hconvert := by
    match fields, hconvert with
    | [(name, t)], hconvert => exact ⟨name, t, rfl, fun _ => hconvert⟩

theorem fieldOr_eq_ok_iff {α : Type} {name : String} {t : Tree} {place : Nat} {key : String}
    {convert : Conversion α} {d a : α} :
    fieldOr name t place key convert d = .ok a ↔
      match entry? name t place key with
      | some (label, t) => convert label t = .ok a
      | none => a = d := by
  unfold fieldOr
  cases entry? name t place key with
  | none => simp [eq_comm]
  | some => rfl

theorem sectionOr_eq_ok_iff {α : Type} {root : Tree} {name title : String}
    {convert : String → Tree → Except SettingsFault α} {d a : α} :
    sectionOr root name title convert d = .ok a ↔
      (root.get? name).all isSection = true ∧
        match root.get? name with
        | some t => convert name t = .ok a
        | none => a = d := by
  unfold sectionOr
  cases root.get? name with
  | none => simp [eq_comm]
  | some t => cases t <;> simp [isSection]

end Tree

open Switchyard.Tree

/-- A single setting: where a tree has its value, and how that is converted. -/
structure Leaf where
  {kind : Type}
  name : String
  place : Nat
  key : String
  convert : Conversion kind
  get : Settings → kind

namespace Leaf

/-- What a section has for the setting. -/
def valueOf (l : Leaf) (section_ : Option Tree) : Option (String × Tree) :=
  section_.bind fun t => entry? l.name t l.place l.key

/-- What a tree has for the setting. -/
def value? (l : Leaf) (root : Tree) : Option (String × Tree) := l.valueOf (root.get? l.name)

/-- The setting is what the given value is converted to; if none is given, the default. -/
def Takes (l : Leaf) (given : Option (String × Tree)) (s : Settings) : Prop :=
  match given with
  | some (label, t) => l.convert label t = .ok (l.get s)
  | none => l.get s = l.get {}

/-- A tree has the setting: its section has the shape of one, and says the setting's value or
nothing of it. -/
def Reads (l : Leaf) (root : Tree) (s : Settings) : Prop :=
  (root.get? l.name).all isSection = true ∧ l.Takes (l.value? root) s

def server : List Leaf :=
  [⟨"server", 0, "host", string, (·.server.host)⟩, ⟨"server", 1, "port", word16, (·.server.port)⟩]

def healthCheck : List Leaf :=
  [⟨"health_check", 0, "interval_secs", word64, (·.healthCheck.intervalSecs)⟩,
   ⟨"health_check", 1, "timeout_ms", word64, (·.healthCheck.timeoutMillis)⟩,
   ⟨"health_check", 2, "path", string, (·.healthCheck.path)⟩,
   ⟨"health_check", 3, "eviction_threshold", word32, (·.healthCheck.evictionThreshold)⟩]

def loadBalancer : List Leaf :=
  [⟨"load_balancer", 0, "strategy", Strategy.ofTree, (·.loadBalancer.strategy)⟩]

def proxy : List Leaf :=
  [⟨"proxy", 0, "timeout_ms", word64, (·.proxy.timeoutMillis)⟩,
   ⟨"proxy", 1, "max_body_bytes", word64, (·.proxy.maxBodyBytes)⟩]

def broadcast : List Leaf :=
  [⟨"broadcast", 0, "interval_secs", word64, (·.broadcast.intervalSecs)⟩,
   ⟨"broadcast", 1, "queue_capacity", word64, (·.broadcast.queueCapacity)⟩]

def shutdown : List Leaf :=
  [⟨"shutdown", 0, "grace_period_secs", word64, (·.shutdown.gracePeriodSecs)⟩]

def logging : List Leaf :=
  [⟨"logging", 0, "level", string, (·.logging.level)⟩,
   ⟨"logging", 1, "format", string, (·.logging.format)⟩]

/-- All single settings, section by section. -/
def all : List Leaf :=
  server ++ healthCheck ++ loadBalancer ++ proxy ++ broadcast ++ shutdown ++ logging

theorem isPlain : ∀ l ∈ all, IsPlain l.convert := by
  have hstring : IsPlain string := isPlain_scalar rfl (fun _ => rfl) fun _ => rfl
  have hword16 : IsPlain word16 := isPlain_scalar rfl (fun _ => rfl) fun _ => rfl
  have hword32 : IsPlain word32 := isPlain_scalar rfl (fun _ => rfl) fun _ => rfl
  have hword64 : IsPlain word64 := isPlain_scalar rfl (fun _ => rfl) fun _ => rfl
  simp [all, server, healthCheck, loadBalancer, proxy, broadcast, shutdown, logging, hstring,
    hword16, hword32, hword64, isPlain_strategy]

/-- Settings are no more than their single settings. -/
theorem eq_of_get {s s' : Settings} (h : ∀ l ∈ all, l.get s = l.get s') : s = s' := by
  obtain ⟨⟨_, _⟩, ⟨_, _, _, _⟩, ⟨_⟩, ⟨_, _⟩, ⟨_, _⟩, ⟨_⟩, ⟨_, _⟩⟩ := s
  obtain ⟨⟨_, _⟩, ⟨_, _, _, _⟩, ⟨_⟩, ⟨_, _⟩, ⟨_, _⟩, ⟨_⟩, ⟨_, _⟩⟩ := s'
  simpa [all, server, healthCheck, loadBalancer, proxy, broadcast, shutdown, logging,
    and_assoc] using h

/-! ### Sections -/

section Sections

variable {root : Tree} {s : Settings}

theorem takes_valueOf_some {l : Leaf} {t : Tree} :
    l.Takes (l.valueOf (some t)) s ↔
      fieldOr l.name t l.place l.key l.convert (l.get {}) = .ok (l.get s) := by
  rw [fieldOr_eq_ok_iff]
  rfl

/-- A section is read just if each of its settings is. -/
theorem sectionOr_eq_ok_iff_reads {α : Type} {name title : String}
    {convert : String → Tree → Except SettingsFault α} {d a : α} {leaves : List Leaf}
    (hne : leaves ≠ []) (hname : ∀ l ∈ leaves, l.name = name)
    (hdefault : a = d ↔ ∀ l ∈ leaves, l.get s = l.get {})
    (hconvert : ∀ t, convert name t = .ok a ↔ ∀ l ∈ leaves, l.Takes (l.valueOf (some t)) s) :
    sectionOr root name title convert d = .ok a ↔ ∀ l ∈ leaves, l.Reads root s := by
  have hsection : (root.get? name).all isSection = true ↔
      ∀ l ∈ leaves, (root.get? l.name).all isSection = true := by
    obtain ⟨first, hfirst⟩ := List.exists_mem_of_ne_nil _ hne
    exact ⟨fun h l hl => hname l hl ▸ h, fun h => hname first hfirst ▸ h first hfirst⟩
  have hvalue : ∀ l ∈ leaves, l.value? root = l.valueOf (root.get? name) :=
    fun l hl => by rw [value?, hname l hl]
  simp only [Reads]
  rw [sectionOr_eq_ok_iff, hsection, forall₂_and]
  refine and_congr_right fun _ => ?_
  cases hroot : root.get? name with
  | none =>
    rw [hdefault]
    exact forall₂_congr fun l hl => by rw [hvalue l hl, hroot]; rfl
  | some t =>
    refine (hconvert t).trans (forall₂_congr fun l hl => ?_)
    rw [hvalue l hl, hroot]

theorem server_eq_ok_iff :
    sectionOr root "server" "ServerConfig" ServerSettings.ofTree {} = .ok s.server ↔
      ∀ l ∈ server, l.Reads root s := by
  apply sectionOr_eq_ok_iff_reads
  · simp [server]
  · simp [server]
  · obtain ⟨⟨_, _⟩, _⟩ := s
    simp [server]
  · intro t
    obtain ⟨⟨_, _⟩, _⟩ := s
    simp [server, takes_valueOf_some, ServerSettings.ofTree, bind_eq_ok_iff, map_eq_ok_iff]

theorem healthCheck_eq_ok_iff :
    sectionOr root "health_check" "HealthCheckConfig" HealthSettings.ofTree {} = .ok s.healthCheck ↔
      ∀ l ∈ healthCheck, l.Reads root s := by
  apply sectionOr_eq_ok_iff_reads
  · simp [healthCheck]
  · simp [healthCheck]
  · obtain ⟨_, ⟨_, _, _, _⟩, _⟩ := s
    simp [healthCheck]
  · intro t
    obtain ⟨_, ⟨_, _, _, _⟩, _⟩ := s
    simp [healthCheck, takes_valueOf_some, HealthSettings.ofTree, bind_eq_ok_iff, map_eq_ok_iff]

theorem loadBalancer_eq_ok_iff :
    sectionOr root "load_balancer" "LoadBalancerConfig" BalanceSettings.ofTree {} =
        .ok s.loadBalancer ↔
      ∀ l ∈ loadBalancer, l.Reads root s := by
  apply sectionOr_eq_ok_iff_reads
  · simp [loadBalancer]
  · simp [loadBalancer]
  · obtain ⟨_, _, ⟨_⟩, _⟩ := s
    simp [loadBalancer]
  · intro t
    obtain ⟨_, _, ⟨_⟩, _⟩ := s
    simp [loadBalancer, takes_valueOf_some, BalanceSettings.ofTree, map_eq_ok_iff]

theorem proxy_eq_ok_iff :
    sectionOr root "proxy" "ProxyConfig" ProxySettings.ofTree {} = .ok s.proxy ↔
      ∀ l ∈ proxy, l.Reads root s := by
  apply sectionOr_eq_ok_iff_reads
  · simp [proxy]
  · simp [proxy]
  · obtain ⟨_, _, _, ⟨_, _⟩, _⟩ := s
    simp [proxy]
  · intro t
    obtain ⟨_, _, _, ⟨_, _⟩, _⟩ := s
    simp [proxy, takes_valueOf_some, ProxySettings.ofTree, bind_eq_ok_iff, map_eq_ok_iff]

theorem broadcast_eq_ok_iff :
    sectionOr root "broadcast" "BroadcastConfig" BroadcastSettings.ofTree {} = .ok s.broadcast ↔
      ∀ l ∈ broadcast, l.Reads root s := by
  apply sectionOr_eq_ok_iff_reads
  · simp [broadcast]
  · simp [broadcast]
  · obtain ⟨_, _, _, _, ⟨_, _⟩, _⟩ := s
    simp [broadcast]
  · intro t
    obtain ⟨_, _, _, _, ⟨_, _⟩, _⟩ := s
    simp [broadcast, takes_valueOf_some, BroadcastSettings.ofTree, bind_eq_ok_iff, map_eq_ok_iff]

theorem shutdown_eq_ok_iff :
    sectionOr root "shutdown" "ShutdownConfig" ShutdownSettings.ofTree {} = .ok s.shutdown ↔
      ∀ l ∈ shutdown, l.Reads root s := by
  apply sectionOr_eq_ok_iff_reads
  · simp [shutdown]
  · simp [shutdown]
  · obtain ⟨_, _, _, _, _, ⟨_⟩, _⟩ := s
    simp [shutdown]
  · intro t
    obtain ⟨_, _, _, _, _, ⟨_⟩, _⟩ := s
    simp [shutdown, takes_valueOf_some, ShutdownSettings.ofTree, map_eq_ok_iff]

theorem logging_eq_ok_iff :
    sectionOr root "logging" "LoggingConfig" LoggingSettings.ofTree {} = .ok s.logging ↔
      ∀ l ∈ logging, l.Reads root s := by
  apply sectionOr_eq_ok_iff_reads
  · simp [logging]
  · simp [logging]
  · obtain ⟨_, _, _, _, _, _, ⟨_, _⟩⟩ := s
    simp [logging]
  · intro t
    obtain ⟨_, _, _, _, _, _, ⟨_, _⟩⟩ := s
    simp [logging, takes_valueOf_some, LoggingSettings.ofTree, bind_eq_ok_iff, map_eq_ok_iff]

/-- Settings come of a tree just if each single setting does. -/
theorem ofTree_eq_ok_iff : Settings.ofTree root = .ok s ↔ ∀ l ∈ all, l.Reads root s := by
  have hsections : Settings.ofTree root = .ok s ↔
      sectionOr root "server" "ServerConfig" ServerSettings.ofTree {} = .ok s.server ∧
      sectionOr root "health_check" "HealthCheckConfig" HealthSettings.ofTree {} =
        .ok s.healthCheck ∧
      sectionOr root "load_balancer" "LoadBalancerConfig" BalanceSettings.ofTree {} =
        .ok s.loadBalancer ∧
      sectionOr root "proxy" "ProxyConfig" ProxySettings.ofTree {} = .ok s.proxy ∧
      sectionOr root "broadcast" "BroadcastConfig" BroadcastSettings.ofTree {} = .ok s.broadcast ∧
      sectionOr root "shutdown" "ShutdownConfig" ShutdownSettings.ofTree {} = .ok s.shutdown ∧
      sectionOr root "logging" "LoggingConfig" LoggingSettings.ofTree {} = .ok s.logging := by
    obtain ⟨_, _, _, _, _, _, _⟩ := s
    simp [Settings.ofTree, bind_eq_ok_iff, map_eq_ok_iff]
  rw [hsections, server_eq_ok_iff, healthCheck_eq_ok_iff, loadBalancer_eq_ok_iff, proxy_eq_ok_iff,
    broadcast_eq_ok_iff, shutdown_eq_ok_iff, logging_eq_ok_iff]
  simp only [all, List.forall_mem_append, and_assoc]

end Sections

/-! ### Defaults -/

theorem defaultTree_eq : Settings.defaultTree = table
    [("server", table [("host", text "0.0.0.0"), ("port", int 8080)]),
     ("health_check", table [("interval_secs", int 30), ("timeout_ms", int 5000)]),
     ("proxy", table [("timeout_ms", int 30000)]),
     ("broadcast", table [("interval_secs", int 10)])] := by
  have hhost : path "server.host" = [.field "server", .field "host"] := by decide +kernel
  have hport : path "server.port" = [.field "server", .field "port"] := by decide +kernel
  have hinterval : path "health_check.interval_secs" =
      [.field "health_check", .field "interval_secs"] := by decide +kernel
  have htimeout : path "health_check.timeout_ms" =
      [.field "health_check", .field "timeout_ms"] := by decide +kernel
  have hproxy : path "proxy.timeout_ms" = [.field "proxy", .field "timeout_ms"] := by decide +kernel
  have hbroadcast : path "broadcast.interval_secs" =
      [.field "broadcast", .field "interval_secs"] := by decide +kernel
  have hlower : ∀ key ∈ ["server", "host", "port", "health_check", "interval_secs", "timeout_ms",
      "proxy", "broadcast"], lower key = key := by decide +kernel
  simp only [List.forall_mem_cons] at hlower
  simp [Settings.defaultTree, overlay, hhost, hport, hinterval, htimeout, hproxy, hbroadcast,
    putAt, put, get?, fields, setField, hlower]

/-- The tree of defaults has tables for sections. -/
theorem defaultTree_isTable : ∀ l ∈ all, (Settings.defaultTree.get? l.name).all isTable = true := by
  rw [defaultTree_eq]
  decide

/-- What the tree of defaults has for a setting is its default. -/
theorem takes_default : ∀ l ∈ all, l.Takes (l.value? Settings.defaultTree) {} := by
  rw [defaultTree_eq]
  simp only [all, server, healthCheck, loadBalancer, proxy, broadcast, shutdown, logging,
    List.cons_append, List.nil_append, List.forall_mem_cons]
  exact ⟨rfl, rfl, rfl, rfl, rfl, rfl, rfl, rfl, rfl, rfl, rfl, rfl, rfl, rfl, nofun⟩

end Leaf

namespace Settings

/-! ### Conditions -/

/-- What settings must meet before anything is built from them. -/
structure IsSound (s : Settings) : Prop where
  port : s.server.port ≠ 0
  healthInterval : s.healthCheck.intervalSecs ≠ 0
  healthTimeout : s.healthCheck.timeoutMillis ≠ 0
  healthPath : s.healthCheck.path.toList.head? = some '/'
  proxyTimeout : s.proxy.timeoutMillis ≠ 0
  broadcastInterval : s.broadcast.intervalSecs ≠ 0
  queueCapacity : s.broadcast.queueCapacity ≠ 0
  logFormat : s.logging.format = "json" ∨ s.logging.format = "pretty"

theorem violation?_eq_none_iff {s : Settings} : s.violation? = none ↔ s.IsSound := by
  constructor
  · intro h
    simp only [violation?, ite_eq_iff, reduceCtorEq, and_false, false_or, or_false, and_true] at h
    obtain ⟨port, healthInterval, healthTimeout, healthPath, proxyTimeout, broadcastInterval,
      queueCapacity, logFormat⟩ := h
    exact ⟨port, healthInterval, healthTimeout, not_not.1 healthPath, proxyTimeout,
      broadcastInterval, queueCapacity, logFormat⟩
  · intro h
    simp [violation?, h.port, h.healthInterval, h.healthTimeout, h.healthPath, h.proxyTimeout,
      h.broadcastInterval, h.queueCapacity, h.logFormat]

theorem checked_eq_ok_iff {given s : Settings} : checked given = .ok s ↔ given = s ∧ s.IsSound := by
  rw [← violation?_eq_none_iff, checked]
  constructor
  · intro h
    cases hviolation : given.violation? with
    | none =>
      obtain rfl : given = s := by simpa [hviolation] using h
      exact ⟨rfl, hviolation⟩
    | some => simp [hviolation] at h
  · rintro ⟨rfl, hviolation⟩
    rw [hviolation]

/-- Settings come of the layers just if no key counts beyond a list, each single setting comes of
the tree of all layers, and the conditions are met. -/
theorem ofLayers_eq_ok_iff {file : List (String × Tree)} {env : Environment} {s : Settings} :
    ofLayers file env = .ok s ↔ countsBeyond file env = false ∧ s.IsSound ∧
      ∀ l ∈ Leaf.all, l.Reads (layered file env) s := by
  unfold ofLayers
  cases countsBeyond file env with
  | true => simp
  | false => simp [bind_eq_ok_iff, checked_eq_ok_iff, Leaf.ofTree_eq_ok_iff, and_comm]

/-- Settings are loaded just if the path is a text, the file can be parsed, and they come of its
fields and the environment. -/
theorem loadFrom_eq_ok_iff {path : Bytes} {d : Directory} {env : Environment} {s : Settings} :
    loadFrom path d env = .ok s ↔ ∃ name file, Text.ofBytes? path = some name ∧
      fileLayer d name = .ok file ∧ ofLayers file env = .ok s := by
  unfold loadFrom
  cases Text.ofBytes? path with
  | none => simp
  | some name => simp [bind_eq_ok_iff]

end Settings

end Switchyard
