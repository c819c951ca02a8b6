import Mathlib.Data.List.GetD
import Switchyard.Proofs.Balance.Leveling
import Switchyard.Proofs.Registry.Standing

/-! Whether a choice finds an instance. It does just when the registry holds a healthy record of
the service at that moment, whatever the strategy, the cursor and the counts are, and what it
finds is that record. Whether the record of an id is healthy is decided by the last call that
concerned it, and so is whether any balancer on the registry can choose it. -/
namespace Switchyard

open Registry (Change)

namespace Balancer

/-! ### The place of the choice -/

section FirstLeast

variable {α β : Type} (weight : α → Nat)

theorem firstLeast_mem (best : α) (rest : List α) :
    firstLeast weight best rest ∈ best :: rest := by
  obtain ⟨k, hk, -⟩ := exists_firstLeast weight best rest
  exact List.mem_of_getElem? hk

theorem firstLeast_map (f : β → α) (best : β) (rest : List β) :
    firstLeast weight (f best) (rest.map f) = f (firstLeast (weight ∘ f) best rest) := by
  induction rest generalizing best with
  | nil => rfl
  | cons b rest ih =>
    rw [List.map_cons, firstLeast, firstLeast, ← ih, apply_ite f]
    rfl

/-- The first item may be scanned as well. -/
theorem firstLeast_cons_self (best : α) (rest : List α) :
    firstLeast weight best (best :: rest) = firstLeast weight best rest := by
  rw [firstLeast, if_neg (Nat.lt_irrefl _)]

end FirstLeast

variable (b : Balancer) (service : String) (draw : Nat) {healthy : List Instance}

/-- The place, among the healthy instances, of the one that is chosen. -/
def place (healthy : List Instance) : Nat :=
  let start := (b.cursor service).toNat % healthy.length
  match b.strategy with
  | .roundRobin => start
  | .leastConnections =>
    firstLeast (fun k => b.held (healthy.getD k default).id) start
      ((List.range healthy.length).map fun steps => (start + steps) % healthy.length)
  | .random => draw % healthy.length

/-- The place is never out of range. -/
theorem place_lt (some_ : healthy ≠ []) : b.place service draw healthy < healthy.length := by
  have hpos : 0 < healthy.length := List.length_pos_iff.2 some_
  unfold place
  dsimp only
  split
  · exact Nat.mod_lt _ hpos
  · rcases List.mem_cons.1 (firstLeast_mem _ _ _) with heq | hmem
    · rw [heq]
      exact Nat.mod_lt _ hpos
    · obtain ⟨steps, -, heq⟩ := List.mem_map.1 hmem
      rw [← heq]
      exact Nat.mod_lt _ hpos
  · exact Nat.mod_lt _ hpos

theorem rotate_eq_map {start : Nat} (h : start < healthy.length) :
    rotate start healthy =
      ((List.range healthy.length).map fun steps => (start + steps) % healthy.length).map
        fun k => healthy.getD k default := by
  have hpos : 0 < healthy.length := Nat.zero_lt_of_lt h
  rw [rotate_eq (Nat.le_of_lt h)]
  refine List.ext_getElem (by simp) fun k hk _ => ?_
  rw [List.getElem_rotate]
  simp [List.getD_eq_getElem?_getD, Nat.add_comm, Nat.mod_lt _ hpos]

/-- The scan of the round and the scan of the places find the same. -/
theorem firstLeast_rotate {start : Nat} (h : start < healthy.length) {i : Instance}
    {rest : List Instance} (hitems : rotate start healthy = i :: rest) :
    firstLeast (fun i => b.held i.id) i rest =
      healthy.getD (firstLeast (fun k => b.held (healthy.getD k default).id) start
        ((List.range healthy.length).map fun steps => (start + steps) % healthy.length))
        default := by
  have hhead : i = healthy.getD start default := by
    have hfirst := head?_rotate h
    rw [hitems, List.head?_cons] at hfirst
    rw [List.getD_eq_getElem?_getD, ← hfirst]
    rfl
  rw [← firstLeast_cons_self, ← hitems, rotate_eq_map h, hhead,
    firstLeast_map _ fun k => healthy.getD k default]
  rfl

/-- The choice is the healthy instance at the place. -/
theorem choose_eq_getElem? (healthy : List Instance) :
    b.choose service draw healthy = healthy[b.place service draw healthy]? := by
  by_cases hnone : healthy = []
  · subst hnone
    unfold choose place
    dsimp only
    split <;> simp [rotate]
  · have hstart := Nat.mod_lt (b.cursor service).toNat (List.length_pos_iff.2 hnone)
    cases hstrategy : b.strategy with
    | roundRobin =>
      rw [choose_of_roundRobin b service draw hstrategy]
      simp only [place, hstrategy]
    | leastConnections =>
      have hplace := b.place_lt service draw hnone
      cases hitems : rotate ((b.cursor service).toNat % healthy.length) healthy with
      | nil =>
        rw [rotate_eq (Nat.le_of_lt hstart), List.rotate_eq_nil_iff] at hitems
        exact absurd hitems hnone
      | cons i rest =>
        have hleast := b.firstLeast_rotate hstart hitems
        rw [List.getElem?_eq_getElem hplace, ← List.getD_eq_getElem _ default hplace]
        simp only [choose, place, hstrategy, hitems, hleast]
    | random => simp only [choose, place, hstrategy]

theorem choose_eq_none_iff : b.choose service draw healthy = none ↔ healthy = [] := by
  rw [choose_eq_getElem?, List.getElem?_eq_none_iff]
  constructor
  · intro hle
    by_contra hsome
    have := b.place_lt service draw hsome
    omega
  · intro hnone
    rw [hnone]
    exact Nat.zero_le _

/-- A lease is on one of the healthy instances. -/
theorem mem_of_answer {l : Lease} (h : (b.select service draw healthy).answer = .ok l) :
    l.chosen ∈ healthy := by
  rw [select_answer, choose_eq_getElem?] at h
  cases hi : healthy[b.place service draw healthy]? with
  | none => simp only [hi, reduceCtorEq] at h
  | some i =>
    simp only [hi, Except.ok.injEq] at h
    rw [← h]
    exact List.mem_of_getElem? hi

/-- There is a lease just when there is a healthy instance. -/
theorem exists_answer_iff :
    (∃ l, (b.select service draw healthy).answer = .ok l) ↔ healthy ≠ [] := by
  rw [Ne, ← b.choose_eq_none_iff service draw, select_answer]
  cases b.choose service draw healthy with
  | none => simp
  | some i => exact ⟨fun _ => nofun, fun _ => ⟨⟨i⟩, rfl⟩⟩

/-! ### The entry of a service -/

/-- The balancer with an entry for the cursor of a service, as one that has been asked for it
keeps it, whether it found an instance or not. -/
def ask : Balancer := { b with cursors := b.cursors.insert service (b.cursor service) }

/-- Balancers that differ in such entries alone. -/
structure Alike (b b' : Balancer) : Prop where
  strategy : b.strategy = b'.strategy
  cursor : ∀ service, b.cursor service = b'.cursor service
  inFlight : b.inFlight = b'.inFlight

variable {b service} {b' b'' : Balancer}

theorem Alike.refl (b : Balancer) : Alike b b := ⟨rfl, fun _ => rfl, rfl⟩

theorem Alike.trans (h : Alike b b') (h' : Alike b' b'') : Alike b b'' :=
  ⟨h.strategy.trans h'.strategy, fun s => (h.cursor s).trans (h'.cursor s),
    h.inFlight.trans h'.inFlight⟩

theorem alike_ask (b : Balancer) (service : String) : Alike (b.ask service) b where
  strategy := rfl
  cursor other := by
    simp only [ask, cursor, Keyed.getD, Keyed.get?_insert]
    split
    · rename_i heq
      rw [heq]
      rfl
    · rfl
  inFlight := rfl

theorem Alike.held (h : Alike b b') (id : String) : b.held id = b'.held id := by
  rw [Balancer.held, Balancer.held, h.inFlight]

theorem Alike.choose (h : Alike b b') (service : String) (draw : Nat) (healthy : List Instance) :
    b.choose service draw healthy = b'.choose service draw healthy := by
  have hheld : b.held = b'.held := funext h.held
  simp only [Balancer.choose, h.strategy, h.cursor, hheld]

theorem Alike.select (h : Alike b b') (service : String) (draw : Nat) (healthy : List Instance) :
    Alike (b.select service draw healthy).state (b'.select service draw healthy).state where
  strategy := by rw [strategy_select, strategy_select, h.strategy]
  cursor other := by rw [cursor_select, cursor_select, h.cursor, h.choose]
  inFlight := by
    cases hi : b.choose service draw healthy with
    | none => rw [select_of_none _ _ _ hi, select_of_none _ _ _ (h.choose .. ▸ hi), h.inFlight]
    | some i =>
      rw [select_of_some _ _ _ hi, select_of_some _ _ _ (h.choose .. ▸ hi)]
      simp only [h.inFlight, h.held]

theorem Alike.release (h : Alike b b') (l : Lease) : Alike (b.release l) (b'.release l) where
  strategy := by rw [strategy_release, strategy_release, h.strategy]
  cursor other := by rw [cursor_release, cursor_release, h.cursor]
  inFlight := by
    simp only [Balancer.release, h.held, h.inFlight]
    split <;> rfl

end Balancer

namespace Dispatch

/-! ### Runs with the entries -/

/-- A dispatch whose balancer has the entry that a call makes it keep. -/
def asked (d : Dispatch) : Call → Dispatch
  | .select service _ => { d with balancer := d.balancer.ask service }
  | _ => d

/-- A run of a balancer that keeps an entry for every service that it has been asked for. -/
def askingRun (d : Dispatch) (calls : List (Instant × Call)) : Dispatch :=
  calls.foldl (fun d e => (d.asked e.2).step e) d

/-- The instances that such a balancer chooses for a service. -/
def askingPicks (d : Dispatch) (service : String) (calls : List (Instant × Call)) :
    List Instance :=
  observed (fun d e => (d.asked e.2).step e) (fun d e => (d.asked e.2).picked service e.2) d calls

/-- Dispatches that differ in the entries of their balancers alone. -/
structure Alike (d d' : Dispatch) : Prop where
  registry : d.registry = d'.registry
  balancer : d.balancer.Alike d'.balancer
  leases : d.leases = d'.leases

variable {d d' : Dispatch}

theorem Alike.refl (d : Dispatch) : Alike d d := ⟨rfl, .refl _, rfl⟩

theorem Alike.asked (h : Alike d d') (c : Call) : Alike (d.asked c) d' := by
  cases c with
  | select service draw =>
    exact ⟨h.registry, (Balancer.alike_ask _ _).trans h.balancer, h.leases⟩
  | _ => exact h

theorem Alike.choose (h : Alike d d') (service : String) (draw : Nat) :
    d.balancer.choose service draw (d.registry.healthy service) =
      d'.balancer.choose service draw (d'.registry.healthy service) := by
  rw [h.registry, h.balancer.choose]

theorem Alike.picked (h : Alike d d') (service : String) (c : Call) :
    d.picked service c = d'.picked service c := by
  cases c with
  | select given draw => rw [picked_select, picked_select, h.choose]
  | _ => rfl

theorem Alike.step (h : Alike d d') (e : Instant × Call) : Alike (d.step e) (d'.step e) := by
  obtain ⟨now, c⟩ := e
  cases c with
  | change c =>
    refine ⟨?_, h.balancer, h.leases⟩
    simp only [Dispatch.step, h.registry]
  | select service draw =>
    refine ⟨h.registry, ?_, ?_⟩
    · simp only [Dispatch.step, choice, h.registry]
      exact h.balancer.select ..
    · simp only [Dispatch.step, choice, Balancer.select_answer, h.choose, h.leases]
  | release place =>
    simp only [Dispatch.step, h.leases]
    split
    · exact h
    · exact ⟨h.registry, h.balancer.release _, rfl⟩

theorem Alike.run (h : Alike d d') (calls : List (Instant × Call)) :
    Alike (d.askingRun calls) (d'.run calls) := by
  induction calls generalizing d d' with
  | nil => exact h
  | cons e rest ih => exact ih ((h.asked e.2).step e)

/-- The entries change no choice. -/
theorem Alike.picks (h : Alike d d') (service : String) (calls : List (Instant × Call)) :
    d.askingPicks service calls = d'.picks service calls := by
  induction calls generalizing d d' with
  | nil => rfl
  | cons e rest ih =>
    rw [picks_cons, ← ih ((h.asked e.2).step e), ← (h.asked e.2).picked]
    rfl

/-! ### Attempts in vain -/

/-- A choice for a service that has no healthy instance changes nothing. -/
theorem step_of_none {service : String} {draw : Nat} {e : Instant × Call}
    (call : e.2 = .select service draw) (h : d.registry.healthy service = []) : d.step e = d := by
  have hchoice : d.choice service draw =
      ⟨d.balancer, .error (.serviceNotAvailable service), []⟩ :=
    Balancer.select_of_none _ _ _ ((d.balancer.choose_eq_none_iff service draw).2 h)
  simp only [step, call, hchoice]
  exact congrArg _ (List.append_nil _)

theorem run_of_none {attempts : List (Instant × Call)}
    (vain : ∀ e ∈ attempts, ∃ service draw, e.2 = .select service draw ∧
      d.registry.healthy service = []) : d.run attempts = d := by
  induction attempts with
  | nil => rfl
  | cons e rest ih =>
    obtain ⟨⟨service, draw, call, hnone⟩, hrest⟩ := List.forall_mem_cons.1 vain
    rw [run_cons, step_of_none call hnone, ih hrest]

theorem picks_of_none {attempts : List (Instant × Call)}
    (vain : ∀ e ∈ attempts, ∃ service draw, e.2 = .select service draw ∧
      d.registry.healthy service = []) (service : String) : d.picks service attempts = [] := by
  induction attempts with
  | nil => rfl
  | cons e rest ih =>
    obtain ⟨⟨given, draw, call, hnone⟩, hrest⟩ := List.forall_mem_cons.1 vain
    rw [picks_cons, step_of_none call hnone, ih hrest, call, picked_select,
      (d.balancer.choose_eq_none_iff given draw).2 hnone]
    simp

/-! ### Instances that can be chosen -/

/-- The registry of a chronicle whose ids are in order offers every healthy record. -/
theorem exists_choice_iff {w : Chronicle} (hw : w.Numbered) (id : String) :
    (∃ (b : Balancer) (service : String) (draw : Nat) (l : Lease),
      (b.select service draw (w.registry.healthy service)).answer = .ok l ∧ l.chosen.id = id) ↔
      w.registry.isUp id = true := by
  rw [hw.isUp_iff]
  constructor
  · rintro ⟨b, service, draw, l, hl, rfl⟩
    have hserves := hw.mem_healthy_iff.1 (b.mem_of_answer service draw hl)
    exact ⟨l.chosen, rfl, hserves.named ▸ hserves⟩
  · rintro ⟨i, rfl, h⟩
    -- a random draw may fall on any healthy instance
    obtain ⟨k, hlt, hk⟩ := List.getElem_of_mem (hw.mem_healthy_iff.2 h)
    refine ⟨{ strategy := .random }, i.name, k, ⟨i⟩, ?_, rfl⟩
    have hchoose : ({ strategy := .random } : Balancer).choose i.name k
        (w.registry.healthy i.name) = some i := by
      simp only [Balancer.choose, Nat.mod_eq_of_lt hlt]
      rw [List.getElem?_eq_getElem hlt, hk]
    rw [Balancer.select_answer, hchoose]

/-- Whatever has happened to a registry, and whatever the strategy, the cursors and the counts of
a balancer are, a choice for a service finds an instance just when the registry holds a healthy
record of exactly that service, and what it finds is such a record as it stands; otherwise it
answers that the service is not available. The place of the choice is always within the healthy
instances. Attempts in vain, with the entries that the balancer keeps of them, change no count, no
lease and no later choice. A call that bears on an id decides whether any balancer can choose it,
until a call bears on it in the other way. -/
theorem chooses_while_healthy (threshold : UInt32) (changes : List (Instant × Change)) :
    let r := (({ threshold } : Registry).run changes).1
    (∀ (b : Balancer) (service : String) (draw : Nat),
      let healthy := r.healthy service
      let answer := (b.select service draw healthy).answer
      ((∃ l, answer = .ok l) ↔ ∃ i, r.Serves service i) ∧
      (∀ l, answer = .ok l → r.Serves service l.chosen) ∧
      ((¬ ∃ i, r.Serves service i) → answer = .error (.serviceNotAvailable service)) ∧
      b.choose service draw healthy = healthy[b.place service draw healthy]? ∧
      ((∃ i, r.Serves service i) → b.place service draw healthy < healthy.length)) ∧
    (∀ (b : Balancer) (leases : List Lease) (attempts later : List (Instant × Call)),
      (∀ e ∈ attempts, ∃ service draw,
        e.2 = .select service draw ∧ ¬ ∃ i, r.Serves service i) →
      let d : Dispatch := ⟨r, b, leases⟩
      (∀ id, (d.askingRun attempts).balancer.held id = b.held id) ∧
      (d.askingRun attempts).leases = leases ∧
      ∀ service, d.askingPicks service (attempts ++ later) = d.askingPicks service later ∧
        d.askingPicks service later = d.picks service later) ∧
    ∀ (now : Instant) (c : Change) (after : List (Instant × Change)) (id : String) (up : Bool),
      c.bearing id (c.echo now r) = some up → (!up) ∉ (c.run now r).1.bearings id after →
      let r' := (r.run ((now, c) :: after)).1
      ((∃ (b : Balancer) (service : String) (draw : Nat) (l : Lease),
        (b.select service draw (r'.healthy service)).answer = .ok l ∧ l.chosen.id = id) ↔
        up = true) := by
  intro r
  let w := (Chronicle.start threshold).run changes
  have hw : w.Numbered := Chronicle.numbered_run (Chronicle.numbered_start threshold) changes
  have hr : r = w.registry := (Chronicle.run_registry (Chronicle.start threshold) changes).symm
  have hserves {service : String} {i : Instance} :
      i ∈ r.healthy service ↔ r.Serves service i := hr ▸ hw.mem_healthy_iff
  have hnone {service : String} : r.healthy service = [] ↔ ¬ ∃ i, r.Serves service i := by
    simp only [List.eq_nil_iff_forall_not_mem, hserves, not_exists]
  have hsome {service : String} : r.healthy service ≠ [] ↔ ∃ i, r.Serves service i := by
    rw [Ne, hnone, not_not]
  refine ⟨fun b service draw => ?_, fun b leases attempts later vain => ?_,
    fun now c after id up bearing since => ?_⟩
  · intro healthy answer
    refine ⟨(b.exists_answer_iff service draw).trans hsome,
      fun l hl => hserves.1 (b.mem_of_answer service draw hl), fun h => ?_,
      b.choose_eq_getElem? service draw healthy, fun h => b.place_lt service draw (hsome.2 h)⟩
    have hchoose := (b.choose_eq_none_iff service draw).2 (hnone.2 h)
    exact congrArg Outcome.answer (b.select_of_none service draw hchoose)
  · intro d
    have vain' : ∀ e ∈ attempts, ∃ service draw, e.2 = .select service draw ∧
        d.registry.healthy service = [] := by
      intro e he
      obtain ⟨service, draw, call, h⟩ := vain e he
      exact ⟨service, draw, call, hnone.2 h⟩
    have hrun := (Alike.refl d).run attempts
    rw [run_of_none vain'] at hrun
    refine ⟨hrun.balancer.held, hrun.leases, fun service => ⟨?_, (Alike.refl d).picks ..⟩⟩
    rw [(Alike.refl d).picks, (Alike.refl d).picks, picks_append, picks_of_none vain',
      run_of_none vain', List.nil_append]
  · intro r'
    let w' := (Chronicle.start threshold).run (changes ++ (now, c) :: after)
    have hw' : w'.Numbered := Chronicle.numbered_run (Chronicle.numbered_start threshold) _
    have hr' : r' = w'.registry := by
      show (r.run ((now, c) :: after)).1 = _
      rw [hr, ← Chronicle.run_registry, ← Chronicle.run_append]
    have hup : r'.isUp id = up := Registry.isUp_run_of_bearing bearing since
    rw [hr', exists_choice_iff hw', ← hr', hup]

/-- An instance that fails a probe is lost to every balancer until it passes one: a choice before
that is in vain and shifts no turn, and the registration of another instance does not help. -/
theorem chooses_while_healthy_again :
    let q (id : String) := (Registration.new "db" "10.0.0.1" 5432).withId id
    let t : Instant := ⟨0, 0⟩
    let changes : List (Instant × Change) := [(t, .register (q "db-1")), (t, .fold "db-1" true)]
    let after : List (Instant × Change) := [(t, .register (q "db-2"))]
    let r := (({ threshold := 0 } : Registry).run changes).1
    let down := (r.run ((t, .fold "db-1" false) :: after)).1
    let attempts : List (Instant × Call) := [(t, .select "db" 0), (t, .select "web" 0)]
    let later : List (Instant × Call) := [(t, .change (.fold "db-1" true)), (t, .select "db" 0)]
    let b : Balancer := { strategy := .leastConnections, cursors := Keyed.empty.insert "db" 7 }
    let d : Dispatch := ⟨down, b, []⟩
    (∃ l, (b.select "db" 0 (r.healthy "db")).answer = .ok l ∧ r.Serves "db" l.chosen) ∧
      (¬ ∃ (b : Balancer) (service : String) (draw : Nat) (l : Lease),
        (b.select service draw (down.healthy service)).answer = .ok l ∧ l.chosen.id = "db-1") ∧
      (b.select "db" 0 (down.healthy "db")).answer = .error (.serviceNotAvailable "db") ∧
      (d.askingRun attempts).balancer.held "db-1" = b.held "db-1" ∧
      (d.askingPicks "db" (attempts ++ later)).map Instance.id = ["db-1"] := by
  intro q t changes after r down attempts later b d
  obtain ⟨hchoice, -, hbearing⟩ := chooses_while_healthy 0 changes
  obtain ⟨hfound, hlease, -⟩ := hchoice b "db" 0
  have hserves : ∃ i, r.Serves "db" i := by
    have hhealthy : (r.get? "db-1").map (fun i => (i.id, i.name, i.status)) =
        some ("db-1", "db", .healthy) := by decide +kernel
    obtain ⟨i, hi, heq⟩ := Option.map_eq_some_iff.1 hhealthy
    obtain ⟨hid, hname, hstatus⟩ : i.id = "db-1" ∧ i.name = "db" ∧ i.status = .healthy := by
      simpa using heq
    exact ⟨i, hid ▸ hi, hname, hstatus⟩
  obtain ⟨l, hl⟩ := hfound.2 hserves
  have hlost := hbearing t (.fold "db-1" false) after "db-1" false (by decide +kernel)
    (by decide +kernel)
  have hdown : (({ threshold := 0 } : Registry).run
      (changes ++ (t, .fold "db-1" false) :: after)).1 = down := rfl
  have hsick : ∀ i ∈ down.records.values, i.status ≠ .healthy := by decide +kernel
  have hnone (service : String) : ¬ ∃ i, down.Serves service i := fun ⟨i, hi⟩ =>
    hsick i ((Keyed.mem_values_iff _).2 ⟨_, hi.held⟩) hi.healthy
  obtain ⟨hchoice', hvain, -⟩ :=
    chooses_while_healthy 0 (changes ++ (t, .fold "db-1" false) :: after)
  rw [hdown] at hchoice' hvain
  obtain ⟨-, -, hrefused, -⟩ := hchoice' b "db" 0
  obtain ⟨hheld, -, hpicks⟩ := hvain b [] attempts later
    (List.forall_mem_cons.2 ⟨⟨"db", 0, rfl, hnone _⟩,
      List.forall_mem_cons.2 ⟨⟨"web", 0, rfl, hnone _⟩, nofun⟩⟩)
  obtain ⟨hshift, hsame⟩ := hpicks "db"
  have hpicked : (d.picks "db" later).map Instance.id = ["db-1"] := by decide +kernel
  refine ⟨⟨l, hl, hlease l hl⟩, fun h => Bool.noConfusion (hlost.1 h), hrefused (hnone _),
    hheld _, ?_⟩
  rw [hshift, hsame, hpicked]

end Dispatch

end Switchyard
