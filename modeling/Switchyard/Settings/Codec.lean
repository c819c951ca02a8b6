import Switchyard.Json.Decoder
import Switchyard.Settings.Basic

/-! Settings as JSON: a section for each part, and every field may be left out. -/
namespace Switchyard

open Json (Decoder Refusal)
open Json.Decoder

namespace ServerSettings

def toJson (s : ServerSettings) : Json :=
  .obj [("host", .str s.host), ("port", .nat s.port.toNat)]

def decoder : Decoder ServerSettings :=
  record [slot "host" string, slot "port" word16] fun given => do
    let d : ServerSettings := {}
    return ⟨← defaulted given "host" string d.host, ← defaulted given "port" word16 d.port⟩

end ServerSettings

namespace HealthSettings

def toJson (s : HealthSettings) : Json :=
  .obj [("interval_secs", .nat s.intervalSecs.toNat), ("timeout_ms", .nat s.timeoutMillis.toNat),
    ("path", .str s.path), ("eviction_threshold", .nat s.evictionThreshold.toNat)]

def decoder : Decoder HealthSettings :=
  record [slot "interval_secs" word64, slot "timeout_ms" word64, slot "path" string,
      slot "eviction_threshold" word32] fun given => do
    let d : HealthSettings := {}
    return ⟨← defaulted given "interval_secs" word64 d.intervalSecs,
      ← defaulted given "timeout_ms" word64 d.timeoutMillis,
      ← defaulted given "path" string d.path,
      ← defaulted given "eviction_threshold" word32 d.evictionThreshold⟩

end HealthSettings

namespace BalanceSettings

def toJson (s : BalanceSettings) : Json := .obj [("strategy", s.strategy.toJson)]

def decoder : Decoder BalanceSettings :=
  record [slot "strategy" Strategy.decoder] fun given => do
    let d : BalanceSettings := {}
    return ⟨← defaulted given "strategy" Strategy.decoder d.strategy⟩

end BalanceSettings

namespace ProxySettings

def toJson (s : ProxySettings) : Json :=
  .obj [("timeout_ms", .nat s.timeoutMillis.toNat), ("max_body_bytes", .nat s.maxBodyBytes.toNat)]

def decoder : Decoder ProxySettings :=
  record [slot "timeout_ms" word64, slot "max_body_bytes" word64] fun given => do
    let d : ProxySettings := {}
    return ⟨← defaulted given "timeout_ms" word64 d.timeoutMillis,
      ← defaulted given "max_body_bytes" word64 d.maxBodyBytes⟩

end ProxySettings

namespace BroadcastSettings

def toJson (s : BroadcastSettings) : Json :=
  .obj [("interval_secs", .nat s.intervalSecs.toNat),
    ("queue_capacity", .nat s.queueCapacity.toNat)]

def decoder : Decoder BroadcastSettings :=
  record [slot "interval_secs" word64, slot "queue_capacity" word64] fun given => do
    let d : BroadcastSettings := {}
    return ⟨← defaulted given "interval_secs" word64 d.intervalSecs,
      ← defaulted given "queue_capacity" word64 d.queueCapacity⟩

end BroadcastSettings

namespace ShutdownSettings

def toJson (s : ShutdownSettings) : Json :=
  .obj [("grace_period_secs", .nat s.gracePeriodSecs.toNat)]

def decoder : Decoder ShutdownSettings :=
  record [slot "grace_period_secs" word64] fun given => do
    let d : ShutdownSettings := {}
    return ⟨← defaulted given "grace_period_secs" word64 d.gracePeriodSecs⟩

end ShutdownSettings

namespace LoggingSettings

def toJson (s : LoggingSettings) : Json :=
  .obj [("level", .str s.level), ("format", .str s.format)]

def decoder : Decoder LoggingSettings :=
  record [slot "level" string, slot "format" string] fun given => do
    let d : LoggingSettings := {}
    return ⟨← defaulted given "level" string d.level, ← defaulted given "format" string d.format⟩

end LoggingSettings

namespace Settings

def toJson (s : Settings) : Json :=
  .obj [("server", s.server.toJson), ("health_check", s.healthCheck.toJson),
    ("load_balancer", s.loadBalancer.toJson), ("proxy", s.proxy.toJson),
    ("broadcast", s.broadcast.toJson), ("shutdown", s.shutdown.toJson),
    ("logging", s.logging.toJson)]

def decoder : Decoder Settings :=
  record [slot "server" ServerSettings.decoder, slot "health_check" HealthSettings.decoder,
      slot "load_balancer" BalanceSettings.decoder, slot "proxy" ProxySettings.decoder,
      slot "broadcast" BroadcastSettings.decoder, slot "shutdown" ShutdownSettings.decoder,
      slot "logging" LoggingSettings.decoder] fun given => do
    return ⟨← defaulted given "server" ServerSettings.decoder {},
      ← defaulted given "health_check" HealthSettings.decoder {},
      ← defaulted given "load_balancer" BalanceSettings.decoder {},
      ← defaulted given "proxy" ProxySettings.decoder {},
      ← defaulted given "broadcast" BroadcastSettings.decoder {},
      ← defaulted given "shutdown" ShutdownSettings.decoder {},
      ← defaulted given "logging" LoggingSettings.decoder {}⟩

end Settings

end Switchyard
