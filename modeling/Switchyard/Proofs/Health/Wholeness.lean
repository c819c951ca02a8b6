import Switchyard.Proofs.Gateway.Regularity

/-! Passes in the background as the registry sees them. When a pass ends, the results of all
instances that were listed when it began are folded, as far as these are still there; a pass that
is dropped leaves no trace. Once the checks have been stopped they change nothing any more. -/
namespace Switchyard

open Registry (Reaches)

namespace Health

/-- The results of the instances of a listing in their order, whatever the probes found. -/
theorem copies_httpProbe (h : HttpProbe) (n : Network) (p : Pass) (listing : List Instance) :
    (h.pass n p listing).2.1.probed.map (·.copy) = p.probed.map (·.copy) ++ listing := by
  induction listing generalizing n p with
  | nil => exact (List.append_nil _).symm
  | cons i rest ih =>
    simp only [HttpProbe.pass]
    rw [ih, Pass.add, List.map_append, List.append_assoc]
    rfl

theorem copies_script (now : Instant) (r : Registry) (s : Script) (p : Pass)
    (listing : List Instance) :
    (s.pass now r p listing).2.answer.probed.map (·.copy) = p.probed.map (·.copy) ++ listing := by
  rw [script_pass, List.map_append, results, List.map_map]
  exact congrArg _ (List.map_id listing)

/-- A script without changes changes nothing. -/
theorem script_of_quiet (now : Instant) (r : Registry) {s : Script} (h : s.meanwhile = ∅)
    (p : Pass) (listing : List Instance) : (s.pass now r p listing).2.state = r := by
  induction listing generalizing s p with
  | nil => rfl
  | cons i rest ih =>
    have hnone : s.meanwhile.getD i.id [] = [] := by rw [h]; rfl
    have herased : s.meanwhile.erase i.id = ∅ := by rw [h]; rfl
    have hrun : r.runAt now (s.meanwhile.getD i.id []) = (r, []) := by rw [hnone]; rfl
    simp only [Script.pass, hrun]
    exact ih herased _

theorem distinct_of_copies {w : Chronicle} (h : Chronicle.Numbered w) {found : List Probed}
    (hcopies : found.map (·.copy) = w.registry.list.values) : Distinct found := by
  have hlisted := h.list_pairwise
  rw [← hcopies, List.pairwise_map] at hlisted
  refine hlisted.imp fun {p q} hlt heq => ?_
  rw [heq] at hlt
  exact String.lt_irrefl _ hlt

/-- What the results of a pass make of a registry: each that concerns a record that is still there
is folded into it, and nothing else changes. -/
structure Folds (now : Instant) (r : Registry) (found : List Probed) (r' : Registry) : Prop where
  current : ∀ p ∈ found, current r p = true →
    r'.get? p.copy.id = (r.fold now p.copy.id p.verdict.isHealthy).state.get? p.copy.id
  others : ∀ id, (∀ p ∈ found, p.copy.id = id → Health.current r p = false) →
    r'.get? id = r.get? id
  frame : r'.threshold = r.threshold ∧ r'.registrations = r.registrations

theorem folds_settle {found : List Probed} (hd : Distinct found) (now : Instant) (r : Registry) :
    Folds now r found (settle now r found).state :=
  ⟨fun _ hp hc => get?_settle_of_current hd hp hc, fun _ h => get?_settle_of_not_current hd h,
    absorb_frame r now {} found⟩

end Health

namespace Gateway

variable {g : Gateway} {t : Task}

/-! ### The registry -/

/-- Whether an event concerns the registry: a change does, and the end of a pass; the beginning
of a drill does through the changes that its script brings with it. -/
def Touches (g : Gateway) : Event → Prop
  | .call (.change _) | .finish .health _ | .finish .drill _ => True
  | .begin .drill _ => g.script.meanwhile ≠ ∅
  | _ => False

theorem registry_after {e : Event} (h : ¬ g.Touches e) : (g.after e).registry = g.registry := by
  cases e with
  | call c =>
    cases c with
    | change c => exact absurd trivial h
    | _ => rfl
  | start t => exact congrArg Feed.registry (g.feed_startTask t)
  | signal t =>
    rw [after]
    split <;> rfl
  | drop t => exact congrArg Feed.registry (g.feed_dropTask t)
  | begin t moment =>
    rw [after]
    split
    · cases t with
      | broadcast => rfl
      | health => rfl
      | drill =>
        have hquiet : g.script.meanwhile = ∅ := Classical.byContradiction h
        exact Health.script_of_quiet _ _ hquiet _ _
    · rfl
  | finish t moment =>
    rw [after]
    split
    · cases t with
      | broadcast => rfl
      | health => exact absurd trivial h
      | drill => exact absurd trivial h
    · rfl
  | rest other => rfl

/-- At the end of a tick the results of its pass are folded, all of them. -/
theorem registry_finish (ht : t ≠ .broadcast) (h : g.IsUnderway t) (moment : Nat) :
    (g.after (.finish t moment)).registry =
      (Health.settle (g.atMoment moment).now g.registry (g.passOf t).probed).state := by
  obtain ⟨c, -, -, hc, -⟩ := h
  rw [after, hc]
  cases t with
  | broadcast => exact absurd rfl ht
  | health => rfl
  | drill => rfl

/-- A pass probes what is listed when it begins. -/
theorem copies_begin (ht : t ≠ .broadcast) {moment : Nat} (h : g.Awaits t moment) :
    ((g.after (.begin t moment)).passOf t).probed.map (·.copy) = g.registry.list.values := by
  obtain ⟨c, -, -, hc, -, -⟩ := h
  rw [after, hc]
  cases t with
  | broadcast => exact absurd rfl ht
  | health => exact Health.copies_httpProbe _ _ {} _
  | drill => exact Health.copies_script _ _ _ {} _

/-! ### Wholeness -/

/-- That the passes of a task are whole in what happens to a gateway. -/
structure Whole (g : Gateway) (t : Task) (es : List Event) : Prop where
  /-- What is folded when a tick ends is the pass that began last and was not dropped, for each
  instance that was listed at its beginning. -/
  folded : ∀ before moment later, es = before ++ .finish t moment :: later →
    ∃ early m between, before = early ++ .begin t m :: between ∧
      (∀ e ∈ between, e.turns t = false) ∧
      let found := (((g.happen early).after (.begin t m)).passOf t).probed
      found.map (·.copy) = (g.happen early).registry.list.values ∧
      Health.Folds ((g.happen before).atMoment moment).now (g.happen before).registry found
        ((g.happen before).after (.finish t moment)).registry
  /-- A pass that has begun is under way until it ends or is dropped, and then it is over. -/
  ended : ∀ early m later, es = early ++ .begin t m :: later →
    ((∀ e ∈ later, e.turns t = false) ∧ (g.happen es).IsUnderway t) ∨
      ∃ between e rest, later = between ++ e :: rest ∧ (∀ x ∈ between, x.turns t = false) ∧
        (e = .drop t ∨ ∃ moment, e = .finish t moment) ∧
        ¬ (g.happen (early ++ .begin t m :: between ++ [e])).IsUnderway t
  /-- Nothing else concerns the registry. -/
  silent : ∀ before e later, es = before ++ e :: later → ¬ (g.happen before).Touches e →
    ((g.happen before).after e).registry = (g.happen before).registry

/-- In whatever can happen to a new gateway passes are whole. -/
theorem whole_of_fits (settings : Settings) (base : Int) (ticksFirst : Task → Nat → Bool)
    {es : List Event} (hfits : (new settings base ticksFirst).Fits es) (ht : t ≠ .broadcast) :
    Whole (new settings base ticksFirst) t es where
  folded before moment later hes := by
    subst hes
    obtain ⟨hbefore, hunderway, -⟩ := fits_append.1 hfits
    have hidle : ¬ (new settings base ticksFirst).IsUnderway t :=
      not_isUnderway_of_none (by cases t <;> rfl)
    obtain ⟨early, m, between, rfl, hquiet⟩ := exists_begin hbefore hidle hunderway
    obtain ⟨-, hawaits, -⟩ := fits_append.1 hbefore
    have hcopies := copies_begin ht hawaits
    refine ⟨early, m, between, rfl, hquiet, hcopies, ?_⟩
    -- There has been no turn since the beginning, so what ends is the pass that began there.
    have hpass : ((new settings base ticksFirst).happen (early ++ .begin t m :: between)).passOf t =
        (((new settings base ticksFirst).happen early).after (.begin t m)).passOf t := by
      rw [happen_append, happen_cons]
      exact (happen_of_quiet hquiet).2
    rw [registry_finish ht hunderway, hpass]
    refine Health.folds_settle ?_ _ _
    obtain ⟨changes, hchanges⟩ := Health.exists_run_of_reaches
      (Chronicle.start settings.healthCheck.evictionThreshold)
      ((new settings base ticksFirst).happen_reaches early).registry
    have hnumbered := Chronicle.numbered_run
      (Chronicle.numbered_start settings.healthCheck.evictionThreshold) changes
    have hlisted : ((new settings base ticksFirst).happen early).registry.list.values =
        ((Chronicle.start settings.healthCheck.evictionThreshold).run
          changes).registry.list.values := by
      rw [hchanges]
      rfl
    exact Health.distinct_of_copies hnumbered (hcopies.trans hlisted)
  ended early m later hes := by
    subst hes
    obtain ⟨-, hawaits, hlater⟩ := fits_append.1 hfits
    have hbegun := isUnderway_begin hawaits
    rcases exists_ending hlater hbegun with ⟨hquiet, hend⟩ | ⟨between, e, rest, rfl, hquiet, he⟩
    · refine .inl ⟨hquiet, ?_⟩
      rwa [happen_append, happen_cons]
    · refine .inr ⟨between, e, rest, rfl, hquiet, he, ?_⟩
      rw [happen_append, happen_append, happen_cons, happen_cons, happen_nil]
      rcases he with rfl | ⟨moment, rfl⟩
      · exact not_isUnderway_drop _ t
      · exact not_isUnderway_finish ((happen_of_quiet hquiet).1.2 hbegun) moment
  silent before e later _ htouches := registry_after htouches

/-- In every run of a gateway the passes in the background are whole: what ends is folded for
every instance that was listed when it began, what is dropped never, and none is overdue. From the
moment that a task has been stopped, in time or not, it is not running and does not tick, until it
is started again. -/
theorem passes_whole_until_stopped (settings : Settings) (base : Int)
    (ticksFirst : Task → Nat → Bool) (ds : List Deed) :
    let start := new settings base ticksFirst
    (∃ es, History start ds es ∧ ∀ t, t ≠ .broadcast → Whole start t es) ∧
    (start.run ds).agenda.Timely (start.run ds).elapsed ∧
    ∀ (t : Task) (grace : Nat) (later : List Deed), (∀ d ∈ later, t ∉ d.scope.starts) →
      let stopped := (start.run ds).perform (.stop t grace)
      (stopped.run later).agenda.isRunning t = false ∧
      ∃ es, History stopped later es ∧ ∀ e ∈ es, e.ticks t = false := by
  intro start
  refine ⟨?_, (regular_run (regular_new settings base ticksFirst) ds).timely, ?_⟩
  · obtain ⟨es, hes⟩ := start.exists_history ds
    exact ⟨es, hes, fun t ht => whole_of_fits settings base ticksFirst hes.fits ht⟩
  · intro t grace later hlater stopped
    obtain ⟨es, hes⟩ := stopped.exists_history later
    obtain ⟨hnone, hquiet⟩ := happen_of_stopped hes.fits ((start.run ds).get_stopTask t grace)
      (hes.not_start hlater)
    refine ⟨?_, es, hes, hquiet⟩
    rw [Agenda.isRunning, ← hes.leads, hnone]
    rfl

/-- A check is stopped while its probe is outstanding, and dropped as it does not come to its end in
time; nothing of it reaches the registry. -/
theorem passes_whole_until_stopped_aborted :
    let later := [Deed.call .broadcast, .sleep 90000]
    let g := (new {} 0).run slowCheck
    let stopped := g.perform (.stop .health 1000)
    (g.agenda.isRunning .health = true ∧ g.healthPass.probed.length = 1 ∧
      stopped.log.head? = some (.taskAborted "health_check")) ∧
    (∀ d ∈ later, Task.health ∉ d.scope.starts) ∧
    (stopped.run later).agenda.isRunning .health = false ∧
    (stopped.run later).registry.list.values = g.registry.list.values := by
  intro later g stopped
  have hlater : ∀ d ∈ later, Task.health ∉ d.scope.starts := by
    intro d hd
    simp only [later, List.mem_cons, List.not_mem_nil, or_false] at hd
    rcases hd with rfl | rfl
    · exact List.not_mem_nil
    · exact List.not_mem_nil
  obtain ⟨-, -, hlaw⟩ := passes_whole_until_stopped {} 0 (fun _ _ => false) slowCheck
  exact ⟨by decide +kernel, hlater, (hlaw .health 1000 _ hlater).1, by decide +kernel⟩

end Gateway

end Switchyard
