import Switchyard.Balance.Strategy

/-! The settings of the gateway, their defaults, and the conditions that settings must
meet before anything is built from them. -/
namespace Switchyard

structure ServerSettings where
  host : String := "0.0.0.0"
  port : UInt16 := 8080
deriving DecidableEq, Repr, Inhabited

structure HealthSettings where
  intervalSecs : UInt64 := 30
  timeoutMillis : UInt64 := 5000
  path : String := "/health"
  /-- Failed probes in a row that evict an instance; zero evicts none. -/
  evictionThreshold : UInt32 := 5
deriving DecidableEq, Repr, Inhabited

structure BalanceSettings where
  strategy : Strategy := .roundRobin
deriving DecidableEq, Repr, Inhabited

structure ProxySettings where
  timeoutMillis : UInt64 := 30000
  /-- The longest body that is forwarded. -/
  maxBodyBytes : UInt64 := 10485760
deriving DecidableEq, Repr, Inhabited

structure BroadcastSettings where
  intervalSecs : UInt64 := 10
  /-- The messages that may wait for one subscriber. -/
  queueCapacity : UInt64 := 64
deriving DecidableEq, Repr, Inhabited

structure ShutdownSettings where
  gracePeriodSecs : UInt64 := 30
deriving DecidableEq, Repr, Inhabited

structure LoggingSettings where
  level : String := "info"
  format : String := "json"
deriving DecidableEq, Repr, Inhabited

structure Settings where
  server : ServerSettings := {}
  healthCheck : HealthSettings := {}
  loadBalancer : BalanceSettings := {}
  proxy : ProxySettings := {}
  broadcast : BroadcastSettings := {}
  shutdown : ShutdownSettings := {}
  logging : LoggingSettings := {}
deriving DecidableEq, Repr, Inhabited

namespace Settings

/-! ### Durations in milliseconds -/

def millisOfSecs (secs : UInt64) : Nat := secs.toNat * 1000

def healthInterval (s : Settings) : Nat := millisOfSecs s.healthCheck.intervalSecs

def healthTimeout (s : Settings) : Nat := s.healthCheck.timeoutMillis.toNat

def proxyTimeout (s : Settings) : Nat := s.proxy.timeoutMillis.toNat

def broadcastInterval (s : Settings) : Nat := millisOfSecs s.broadcast.intervalSecs

def gracePeriod (s : Settings) : Nat := millisOfSecs s.shutdown.gracePeriodSecs

/-! ### Conditions -/

/-- A condition that settings do not meet. -/
inductive Violation where
  | serverPort
  | healthInterval
  | healthTimeout
  | healthPath
  | proxyTimeout
  | broadcastInterval
  | queueCapacity
  | logFormat (given : String)
deriving DecidableEq, Repr

def Violation.message : Violation → String
  | serverPort => "Server port cannot be 0"
  | healthInterval => "Health check interval must be positive"
  | healthTimeout => "Health check timeout must be positive"
  | healthPath => "Health check path must start with '/'"
  | proxyTimeout => "Proxy timeout must be positive"
  | broadcastInterval => "Broadcast interval must be positive"
  | queueCapacity => "Broadcast queue capacity must be positive"
  | logFormat given => "Invalid log format '" ++ given ++ "'. Must be 'json' or 'pretty'"

/-- The first condition that the settings do not meet. -/
def violation? (s : Settings) : Option Violation :=
  if s.server.port = 0 then some .serverPort
  else if s.healthCheck.intervalSecs = 0 then some .healthInterval
  else if s.healthCheck.timeoutMillis = 0 then some .healthTimeout
  else if s.healthCheck.path.toList.head? ≠ some '/' then some .healthPath
  else if s.proxy.timeoutMillis = 0 then some .proxyTimeout
  else if s.broadcast.intervalSecs = 0 then some .broadcastInterval
  else if s.broadcast.queueCapacity = 0 then some .queueCapacity
  else if s.logging.format = "json" ∨ s.logging.format = "pretty" then none
  else some (.logFormat s.logging.format)

end Settings

end Switchyard
