import Switchyard.Gateway.Sockets

/-! What happens in the background and as time goes by: health check passes, broadcasts,
starting and stopping the tasks, and the end of it all. -/
namespace Switchyard.Gateway

/-- The gateway at a later moment. -/
def atMoment (g : Gateway) (moment : Nat) : Gateway := { g with elapsed := moment }

/-! ### Broadcasts -/

/-- Queues the directory for every subscriber; answers how many accepted it. -/
def announce (g : Gateway) : Gateway × Nat :=
  g.withHub fun h => h.broadcast g.now g.registry.list

/-- Sends the directory to every subscriber; answers how many accepted it. -/
def broadcast (g : Gateway) : Gateway × Nat :=
  let (g, delivered) := g.announce
  (g.flush, delivered)

/-! ### Health check passes -/

def httpProbe (g : Gateway) : HttpProbe :=
  ⟨g.settings.healthCheck.path, g.settings.healthTimeout⟩

/-- Begins a pass over the network; answers also with the requests that reached an address. -/
def beginHealthPass (g : Gateway) : Gateway × Pass × List Outbound :=
  let (network, pass, requests) := g.httpProbe.pass g.network {} g.registry.list.values
  ({ g with network }, pass, requests)

/-- Begins a pass by the script. -/
def beginDrillPass (g : Gateway) : Gateway × Pass :=
  let (script, o) := g.script.pass g.now g.registry {} g.registry.list.values
  ({ g with script, registry := o.state }.say o.notices, o.answer)

def settlePass (g : Gateway) (p : Pass) : Gateway × Report :=
  g.withRegistry fun r => Health.settle g.now r p.probed

/-! ### The tasks at work -/

def beginTick (t : Task) (moment : Nat) (g : Gateway) : Gateway × Nat :=
  let g := g.atMoment moment
  match t with
  | .broadcast => (g.broadcast.1, 0)
  | .health =>
    let (g, pass, requests) := g.beginHealthPass
    ({ g with healthPass := pass, arrivals := g.arrivals ++ requests }, pass.duration)
  | .drill =>
    let (g, pass) := g.beginDrillPass
    ({ g with drillPass := pass }, pass.duration)

def finishTick (t : Task) (moment : Nat) (g : Gateway) : Gateway :=
  let g := g.atMoment moment
  match t with
  | .broadcast => g
  | .health => { (g.settlePass g.healthPass).1 with healthPass := {} }
  | .drill => { (g.settlePass g.drillPass).1 with drillPass := {} }

def work : Agenda.Work Gateway :=
  ⟨beginTick, finishTick, fun t moment g => g.ticksFirst t moment⟩

/-- Lets the tasks work up to `target`, or until one of them has exited. -/
def workUntil (g : Gateway) (until? : Option Task) (target : Nat) : Gateway :=
  let (agenda, g) := Agenda.advance work until? target g.agenda g
  { g with agenda }

/-- Lets time pass up to `target`. -/
def passUntil (g : Gateway) (target : Nat) : Gateway :=
  (g.workUntil none target).atMoment (max g.elapsed target)

/-- Lets `millis` milliseconds pass. -/
def sleep (g : Gateway) (millis : Nat) : Gateway := g.passUntil (g.elapsed + millis)

/-- The requests that reached an address from the background since the last time. -/
def takeArrivals (g : Gateway) : Gateway × List Outbound := ({ g with arrivals := [] }, g.arrivals)

/-- One pass by the script, in the foreground. -/
def checkByScript (g : Gateway) : Gateway × Report :=
  let (g, pass) := g.beginDrillPass
  (g.sleep pass.duration).settlePass pass

/-- One pass over the network, in the foreground. -/
def checkByNetwork (g : Gateway) : Gateway × Report × List Outbound :=
  let (g, pass, requests) := g.beginHealthPass
  let (g, report) := (g.sleep pass.duration).settlePass pass
  (g, report, requests)

/-! ### Starting and stopping -/

def period (g : Gateway) : Task → Nat
  | .broadcast => g.settings.broadcastInterval
  | .health | .drill => g.settings.healthInterval

/-- Starts a task, unless it has been started and not stopped since. -/
def startTask (g : Gateway) (t : Task) : Gateway :=
  match g.agenda.get t with
  | some _ => g
  | none =>
    let period := g.period t
    { g with agenda := g.agenda.set t (some (Clock.launch period g.elapsed)) }.say
      [.taskStarted t.name (period % Numeric.limit64)]

/-- Drops a task and the pass that it has under way. -/
def dropTask (g : Gateway) (t : Task) : Gateway :=
  let g := { g with agenda := g.agenda.set t none }
  match t with
  | .broadcast => g
  | .health => { g with healthPass := {} }
  | .drill => { g with drillPass := {} }

/-- Tells a task to stop and waits for it, but for less than `grace` milliseconds. -/
def stopTask (g : Gateway) (t : Task) (grace : Nat) : Gateway :=
  match g.agenda.get t with
  | none => g
  | some c =>
    if c.isExited then (g.dropTask t).say [.taskStopped t.name]
    else match Clock.lastMoment? g.elapsed grace with
    | none => (g.dropTask t).say [.taskAborted t.name]
    | some last =>
      let limit := g.elapsed + grace
      let g := { g with agenda := g.agenda.set t (some (c.signal g.elapsed)) }.workUntil (some t) last
      if (g.agenda.get t).any (·.isExited) then (g.dropTask t).say [.taskStopped t.name]
      else ((g.dropTask t).passUntil limit).say [.taskAborted t.name]

/-- Stops the broadcasts and lets all subscribers go. -/
def closeHub (g : Gateway) (grace : Nat) : Gateway :=
  let g := g.stopTask .broadcast grace
  (g.withHub fun h => h.close).1.flush

/-- Starts what runs in the background. -/
def startBackground (g : Gateway) : Gateway := (g.startTask .health).startTask .broadcast

/-- Stops the hub and the health checks by one deadline; answers how long it took. -/
def shutdown (g : Gateway) (deadline : Nat) : Gateway × Nat :=
  let begun := g.elapsed
  let g := g.closeHub (deadline - g.elapsed)
  let g := g.stopTask .health (deadline - g.elapsed)
  (g.say [.backgroundStopped], g.elapsed - begun)

end Switchyard.Gateway
