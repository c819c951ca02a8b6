import Switchyard.Proofs.Health.Pass

/-! The events of a health check pass. What is said of a result tells what the result has changed,
and says it once: a failure that counts is warned of, a recovery is announced, and a result that is
dropped is passed over at the level of debugging. -/
namespace Switchyard

open Registry (Change)

namespace Notice

/-- The id that a notice names. -/
def subject? (n : Notice) : Option String :=
  n.fields.findSome? fun f =>
    match f with
    | ("id", .str id) => some id
    | _ => none

/-- The notices that name an id. -/
def about (id : String) (notices : List Notice) : List Notice :=
  notices.filter fun n => n.subject? = some id

variable {id : String} {notices : List Notice}

theorem about_append (notices more : List Notice) :
    about id (notices ++ more) = about id notices ++ about id more := List.filter_append ..

theorem about_eq_nil (h : ∀ n ∈ notices, n.subject? ≠ some id) : about id notices = [] :=
  List.filter_eq_nil_iff.2 fun n hn => by simpa using h n hn

end Notice

namespace Health

open Notice (about_append about_eq_nil)

variable {r r' : Registry} {now : Instant} {p : Probed} {t : Report}

/-! ### One result -/

/-- What is said of a result. -/
def said (r : Registry) (now : Instant) (p : Probed) : List Notice :=
  let o := r.foldProbed now p.copy p.verdict.isHealthy
  o.notices ++ remarks p.copy p.verdict o.answer

theorem not_evicting_of_healthy (h : p.verdict = .healthy) : evicting r now p = false := by
  cases he : evicting r now p with
  | false => rfl
  | true =>
    have hfailed := (evicting_spec he).2
    rw [h] at hfailed
    cases hfailed

/-- What can be said of a result, and when. -/
inductive Saying (r : Registry) (now : Instant) (p : Probed) : List Notice → Prop where
  | dropped (n : Notice) (gone : current r p = false) (subject : n.subject? = some p.copy.id)
      (level : n.level = .debug) : Saying r now p [n]
  | evicted (name : String) (failures : UInt32) (evicts : evicting r now p = true) :
      Saying r now p [.evicted p.copy.id name failures]
  | fell (i : Instance) (reason : String) (held : r.get? p.copy.id = some i)
      (same : current r p = true) (failed : p.verdict = .unhealthy reason)
      (keeps : evicting r now p = false) (was : i.status ≠ .unhealthy) :
      Saying r now p [.markedUnhealthy p.copy.id p.copy.name i.status .unhealthy reason]
  | lay (i : Instance) (reason : String) (held : r.get? p.copy.id = some i)
      (same : current r p = true) (failed : p.verdict = .unhealthy reason)
      (keeps : evicting r now p = false) (was : i.status = .unhealthy) :
      Saying r now p [.probeFailed p.copy.id p.copy.name reason,
        .probeCompleted p.copy.id .unhealthy]
  | rose (i : Instance) (held : r.get? p.copy.id = some i) (same : current r p = true)
      (answered : p.verdict = .healthy) (was : i.status ≠ .healthy) :
      Saying r now p [.markedHealthy p.copy.id p.copy.name i.status .healthy]
  | stood (i : Instance) (held : r.get? p.copy.id = some i) (same : current r p = true)
      (answered : p.verdict = .healthy) (was : i.status = .healthy) :
      Saying r now p [.probeCompleted p.copy.id .healthy]

theorem saying (r : Registry) (now : Instant) (p : Probed) : Saying r now p (said r now p) := by
  unfold said
  cases hc : current r p with
  | false =>
    cases hi : r.get? p.copy.id with
    | none =>
      rw [Registry.foldProbed_of_absent hi]
      exact .dropped (.deregisteredMeanwhile p.copy.id) hc rfl rfl
    | some i =>
      have hne : i.registration ≠ p.copy.registration := by simpa [current, hi] using hc
      rw [Registry.foldProbed_of_other hi hne]
      exact .dropped (.reregisteredMeanwhile p.copy.id) hc rfl rfl
  | true =>
    obtain ⟨i, hi, -⟩ := current_iff.1 hc
    rw [foldProbed_of_current hc]
    by_cases he : r.evicts (Registry.probed now p.verdict.isHealthy i) = true
    · rw [Registry.fold_of_evicts hi he]
      exact .evicted i.name _ (by simp [evicting, hc, hi, he])
    · have hkeeps : evicting r now p = false := by simp [evicting, hi, he]
      rw [Registry.fold_of_keeps hi he]
      cases hv : p.verdict with
      | healthy =>
        show Saying r now p (remarks p.copy .healthy
          (if i.status = .healthy then .unchanged .healthy else .transition i.status .healthy))
        split
        · exact .stood i hi hc hv ‹_›
        · exact .rose i hi hc hv ‹_›
      | unhealthy reason =>
        show Saying r now p (remarks p.copy (.unhealthy reason)
          (if i.status = .unhealthy then .unchanged .unhealthy
            else .transition i.status .unhealthy))
        split
        · exact .lay i reason hi hc hv hkeeps ‹_›
        · exact .fell i reason hi hc hv hkeeps ‹_›

namespace Saying

variable {notices : List Notice}

theorem subject (h : Saying r now p notices) {n : Notice} (hn : n ∈ notices) :
    n.subject? = some p.copy.id := by
  cases h with
  | dropped m _ subject _ => rwa [List.mem_singleton.1 hn]
  | lay =>
    -- the only saying of two notices
    rcases List.mem_cons.1 hn with rfl | hn
    · rfl
    · rw [List.mem_singleton.1 hn]
      rfl
  | _ =>
    rw [List.mem_singleton.1 hn]
    rfl

theorem level_ne_error (h : Saying r now p notices) {n : Notice} (hn : n ∈ notices) :
    n.level ≠ .error := by
  cases h with
  | dropped m _ _ level =>
    rw [List.mem_singleton.1 hn, level]
    nofun
  | lay =>
    rcases List.mem_cons.1 hn with rfl | hn
    · nofun
    · rw [List.mem_singleton.1 hn]
      nofun
  | _ =>
    rw [List.mem_singleton.1 hn]
    nofun

/-- A failure that counts is warned of once, and nothing else is. -/
theorem countP_warn (h : Saying r now p notices) :
    notices.countP (·.level = .warn) =
      (if (current r p && !p.verdict.isHealthy && !evicting r now p) = true then 1 else 0) +
        if evicting r now p = true then 1 else 0 := by
  cases h with
  | dropped n gone _ level => simp [gone, level, evicting]
  | evicted name failures evicts => simp [evicts, Notice.level]
  | fell i reason _ same failed keeps | lay i reason _ same failed keeps =>
    simp [same, failed, keeps, Verdict.isHealthy, Notice.level]
  | rose i _ same answered | stood i _ same answered =>
    simp [answered, not_evicting_of_healthy answered, Verdict.isHealthy, Notice.level]

/-- A result that is dropped is neither a warning nor a recovery. -/
theorem of_dropped (h : Saying r now p notices) (hc : current r p = false) :
    notices.filter (·.level = .warn) = [] ∧ notices.filter (·.level = .info) = [] := by
  cases h with
  | dropped n _ _ level => simp [level]
  | evicted _ _ evicts => exact absurd ((evicting_spec evicts).1.symm.trans hc) nofun
  | fell _ _ _ same | lay _ _ _ same | rose _ _ same | stood _ _ same =>
    exact absurd (same.symm.trans hc) nofun

/-- A failure that counts is told by one warning, whose sentence is that of what has changed. -/
theorem of_failed (h : Saying r now p notices) {i : Instance} (hi : r.get? p.copy.id = some i)
    (hc : current r p = true) (hv : p.verdict.isHealthy = false) :
    notices.filter (·.level = .info) = [] ∧ ∃ n, notices.filter (·.level = .warn) = [n] ∧
      n.message = if evicting r now p then "Instance evicted after consecutive failed probes"
        else if i.status = .unhealthy then "Service health check failed"
        else "Service marked unhealthy" := by
  cases h with
  | dropped _ gone => exact absurd (hc.symm.trans gone) nofun
  | evicted name failures evicts => exact ⟨rfl, _, rfl, (if_pos evicts).symm⟩
  | fell j reason held _ _ keeps was =>
    cases hi.symm.trans held
    rw [keeps, if_neg nofun, if_neg was]
    exact ⟨rfl, _, rfl, rfl⟩
  | lay j reason held _ _ keeps was =>
    cases hi.symm.trans held
    rw [keeps, if_neg nofun, if_pos was]
    exact ⟨rfl, _, rfl, rfl⟩
  | rose _ _ _ answered | stood _ _ _ answered =>
    rw [answered] at hv
    cases hv

/-- A success is told by one recovery if the instance was not healthy, and else by nothing. -/
theorem of_answered (h : Saying r now p notices) {i : Instance} (hi : r.get? p.copy.id = some i)
    (hc : current r p = true) (hv : p.verdict.isHealthy = true) :
    notices.filter (·.level = .warn) = [] ∧
      (i.status = .healthy → notices.filter (·.level = .info) = []) ∧
      (i.status ≠ .healthy → ∃ n, notices.filter (·.level = .info) = [n] ∧
        n.message = "Service marked healthy") := by
  cases h with
  | dropped _ gone => exact absurd (hc.symm.trans gone) nofun
  | evicted _ _ evicts => exact absurd ((evicting_spec evicts).2.symm.trans hv) nofun
  | fell _ _ _ _ failed | lay _ _ _ _ failed =>
    rw [failed] at hv
    cases hv
  | rose j held _ _ was =>
    cases hi.symm.trans held
    exact ⟨rfl, fun hup => absurd hup was, fun _ => ⟨_, rfl, rfl⟩⟩
  | stood j held _ _ was =>
    cases hi.symm.trans held
    exact ⟨rfl, fun _ => rfl, fun hdown => absurd was hdown⟩

end Saying

/-! ### All results -/

/-- The registry tells of evictions and of nothing else. -/
theorem foldProbed_notices (r : Registry) (now : Instant) (copy : Instance) (healthy : Bool) :
    (r.foldProbed now copy healthy).notices =
      match (r.foldProbed now copy healthy).answer with
      | .evicted n => (r.get? copy.id).toList.map fun i => .evicted copy.id i.name n
      | _ => [] := by
  rcases Registry.foldProbed_eq_or r now copy healthy with h | h
  · rw [h]
    cases hi : r.get? copy.id with
    | none =>
      rw [Registry.fold_of_absent hi]
    | some i =>
      by_cases he : r.evicts (Registry.probed now healthy i) = true
      · rw [Registry.fold_of_evicts hi he]
        rfl
      · rw [Registry.fold_of_keeps hi he]
        by_cases hs : i.status = (Registry.probed now healthy i).status
        · simp only [if_pos hs]
        · simp only [if_neg hs]
  · rw [h]

/-- What is said of a result depends on the one record and on the threshold. -/
theorem said_congr (hget : r'.get? p.copy.id = r.get? p.copy.id)
    (ht : r'.threshold = r.threshold) : said r' now p = said r now p := by
  have hanswer : (r'.foldProbed now p.copy p.verdict.isHealthy).answer = _ :=
    (foldProbed_congr hget ht p.verdict.isHealthy).1
  simp only [said, foldProbed_notices, hanswer, hget]

/-- What is said of each result is said as if it were the only one. -/
theorem absorb_notices {found : List Probed} (hd : Distinct found) (h : Agrees r r' found)
    (now : Instant) (t : Report) :
    (absorb now r' t found).notices = found.flatMap (said r now) := by
  induction found generalizing r' t with
  | nil => rfl
  | cons p rest ih =>
    obtain ⟨hp, hrest⟩ := List.pairwise_cons.1 hd
    have hfirst : said r' now p = said r now p :=
      said_congr (h.get? p List.mem_cons_self) h.threshold
    rw [List.flatMap_cons, ← hfirst, ← ih hrest (h.tail hp now p.verdict.isHealthy)]
    rfl

/-- Of what is said, what names an instance is what is said of its result. -/
theorem about_said {found : List Probed} (hd : Distinct found) (hp : p ∈ found)
    (r : Registry) (now : Instant) (f : Notice → Bool) :
    Notice.about p.copy.id ((found.flatMap (said r now)).filter f) = (said r now p).filter f := by
  induction found with
  | nil => cases hp
  | cons q rest ih =>
    obtain ⟨hq, hrest⟩ := List.pairwise_cons.1 hd
    rw [List.flatMap_cons, List.filter_append, about_append]
    rcases List.mem_cons.1 hp with rfl | hp
    · -- whatever follows is said of other instances
      have hnone : Notice.about p.copy.id ((rest.flatMap (said r now)).filter f) = [] := by
        refine about_eq_nil fun n hn => ?_
        obtain ⟨q, hmem, hsaid⟩ := List.mem_flatMap.1 (List.mem_filter.1 hn).1
        rw [(saying r now q).subject hsaid]
        exact fun heq => hq q hmem (Option.some.inj heq)
      rw [hnone, List.append_nil]
      refine List.filter_eq_self.2 fun n hn => ?_
      rw [(saying r now p).subject (List.mem_filter.1 hn).1]
      exact decide_eq_true rfl
    · have hnone : Notice.about p.copy.id ((said r now q).filter f) = [] := by
        refine about_eq_nil fun n hn => ?_
        rw [(saying r now q).subject (List.mem_filter.1 hn).1]
        exact fun heq => hq p hp (Option.some.inj heq).symm
      rw [hnone, List.nil_append]
      exact ih hrest hp

theorem settle_notices {found : List Probed} (hd : Distinct found) (r : Registry)
    (now : Instant) :
    ∃ completed : Notice, completed.level = .debug ∧
      (settle now r found).notices = found.flatMap (said r now) ++ [completed] :=
  ⟨_, rfl, by rw [settle, absorb_notices hd (agrees_self found)]⟩

/-- The end of a pass is told at the level of debugging. -/
theorem filter_settle {found : List Probed} (hd : Distinct found) (r : Registry) (now : Instant)
    {l : Level} (hl : l ≠ .debug) :
    (settle now r found).notices.filter (·.level = l) =
      (found.flatMap (said r now)).filter (·.level = l) := by
  obtain ⟨completed, hlevel, hnotices⟩ := settle_notices hd r now
  have hnone : [completed].filter (·.level = l) = [] :=
    List.filter_eq_nil_iff.2 fun n hn => by
      simpa [List.mem_singleton.1 hn, hlevel] using hl.symm
  rw [hnotices, List.filter_append, hnone, List.append_nil]

/-- As many warnings as failures that count. -/
theorem countP_said (r : Registry) (now : Instant) (found : List Probed) :
    (found.flatMap (said r now)).countP (·.level = .warn) =
      (found.countP fun p => current r p && !p.verdict.isHealthy && !evicting r now p) +
        found.countP (evicting r now) := by
  induction found with
  | nil => rfl
  | cons p rest ih =>
    simp only [List.flatMap_cons, List.countP_append, ih, (saying r now p).countP_warn,
      List.countP_cons]
    omega

/-- Unless the numbers of the registrations have begun again, a record that was probed is still
there just when its id has not been registered since. -/
theorem current_iff_same_birth {w : Chronicle} (hw : Chronicle.Numbered w)
    (meanwhile : List (Instant × Change)) (held : p.copy ∈ w.registry.list.values)
    (few : (w.run meanwhile).registered < Numeric.limit64) :
    current (w.run meanwhile).registry p = true ↔
      (w.run meanwhile).birth? p.copy.id = w.birth? p.copy.id := by
  have hheld := Chronicle.held_of_shown hw (.inl held)
  obtain ⟨l, hl⟩ := hw.life_of_held hheld
  have hbirth : w.birth? p.copy.id = some l.call := by rw [Chronicle.birth?, hl]; rfl
  have htracked := Chronicle.tracked_run hw (Chronicle.tracked_of_held hw hheld hl) meanwhile
  have hw' := Chronicle.numbered_run hw meanwhile
  rw [hbirth]
  cases hget : (w.run meanwhile).registry.get? p.copy.id with
  | none =>
    rw [Chronicle.birth?, hw'.lifeless_of_absent hget]
    simp [current, hget]
  | some i =>
    rw [htracked.birth_eq_iff hw' few hget]
    simp [current, hget]

/-- A pass warns once of each failure that counts, in a sentence that tells whether the instance
has been evicted, has been down before or has just gone down, and it announces once each recovery.
It does so of no instance that is gone or has been registered again, and it announces none that was
healthy before. These are all its warnings, as many as the report counts, and nothing is an error.
The checks of a gateway are such passes, and these are the events that they add to its log. -/
theorem pass_warns_of_each_failure (threshold : UInt32) (before : List (Instant × Change)) :
    let w := (Chronicle.start threshold).run before
    let listing := w.registry.list.values
    (∀ (verdict : Instance → Verdict) (meanwhile : List (Instant × Change)) (now : Instant),
      let r := (w.run meanwhile).registry
      let found := results verdict listing
      let o := settle now r found
      let warnings := o.notices.filter (·.level = .warn)
      let recoveries := o.notices.filter (·.level = .info)
      (∀ n ∈ o.notices, n.level ≠ .error) ∧
      warnings.length = o.answer.unhealthy + o.answer.evicted ∧
      (∀ n ∈ warnings ++ recoveries, ∃ p ∈ found, n.subject? = some p.copy.id) ∧
      (∀ p ∈ found, current r p = false →
        Notice.about p.copy.id warnings = [] ∧ Notice.about p.copy.id recoveries = []) ∧
      (∀ p ∈ found, ∀ i, current r p = true → r.get? p.copy.id = some i →
        (p.verdict.isHealthy = false →
          Notice.about p.copy.id recoveries = [] ∧
          ∃ n, Notice.about p.copy.id warnings = [n] ∧
            n.message =
              if (o.state.get? p.copy.id).isNone then
                "Instance evicted after consecutive failed probes"
              else if i.status = .unhealthy then "Service health check failed"
              else "Service marked unhealthy") ∧
        (p.verdict.isHealthy = true →
          Notice.about p.copy.id warnings = [] ∧
          (i.status = .healthy → Notice.about p.copy.id recoveries = []) ∧
          (i.status ≠ .healthy → ∃ n, Notice.about p.copy.id recoveries = [n] ∧
            n.message = "Service marked healthy"))) ∧
      ((w.run meanwhile).registered < Numeric.limit64 → ∀ p ∈ found, current r p = true ↔
        (w.run meanwhile).birth? p.copy.id = w.birth? p.copy.id)) ∧
    ∀ g : Gateway, g.registry = w.registry →
      (∃ verdict meanwhile now,
        let o := settle now (w.run meanwhile).registry (results verdict listing)
        let g' := g.beginHealthPass.1.sleep g.beginHealthPass.2.1.duration
        g'.registry = (w.run meanwhile).registry ∧
          g.checkByNetwork.1.log = o.notices.reverse ++ g'.log ∧
          g.checkByNetwork.2.1 = o.answer) ∧
      ∃ verdict meanwhile now,
        let o := settle now (w.run meanwhile).registry (results verdict listing)
        let g' := g.beginDrillPass.1.sleep g.beginDrillPass.2.duration
        g'.registry = (w.run meanwhile).registry ∧
          g.checkByScript.1.log = o.notices.reverse ++ g'.log ∧ g.checkByScript.2 = o.answer := by
  intro w listing
  have hw : Chronicle.Numbered w :=
    Chronicle.numbered_run (Chronicle.numbered_start threshold) before
  refine ⟨fun verdict meanwhile now => ?_, fun g hg => ⟨?_, ?_⟩⟩
  · intro r found o warnings recoveries
    have hd : Distinct found := distinct_results hw verdict
    have hwarnings : warnings = (found.flatMap (said r now)).filter (·.level = .warn) :=
      filter_settle hd r now nofun
    have hrecoveries : recoveries = (found.flatMap (said r now)).filter (·.level = .info) :=
      filter_settle hd r now nofun
    refine ⟨fun n hn => ?_, ?_, fun n hn => ?_, fun p hp hc => ?_, fun p hp i hc hi => ?_,
      fun few p hp => ?_⟩
    · obtain ⟨completed, hlevel, hnotices⟩ := settle_notices hd r now
      rw [hnotices] at hn
      rcases List.mem_append.1 hn with hn | hn
      · obtain ⟨p, -, hsaid⟩ := List.mem_flatMap.1 hn
        exact (saying r now p).level_ne_error hsaid
      · rw [List.mem_singleton.1 hn, hlevel]
        nofun
    · have hanswer : o.answer = _ := absorb_answer hd (agrees_self (r := r) found) now {}
      rw [hwarnings, ← List.countP_eq_length_filter, countP_said, hanswer]
      simp only [Nat.zero_add]
    · have hsaid : n ∈ found.flatMap (said r now) := by
        rw [hwarnings, hrecoveries] at hn
        exact (List.mem_append.1 hn).elim (fun h => (List.mem_filter.1 h).1)
          fun h => (List.mem_filter.1 h).1
      obtain ⟨p, hp, hsaid⟩ := List.mem_flatMap.1 hsaid
      exact ⟨p, hp, (saying r now p).subject hsaid⟩
    · rw [hwarnings, hrecoveries, about_said hd hp, about_said hd hp]
      exact (saying r now p).of_dropped hc
    · have hgone : (o.state.get? p.copy.id).isNone = evicting r now p := by
        rw [Bool.eq_iff_iff, Option.isNone_iff_eq_none, evicting_iff hd hp]
        exact (and_iff_right hc).symm
      rw [hwarnings, hrecoveries, about_said hd hp, about_said hd hp, hgone]
      exact ⟨(saying r now p).of_failed hi hc, (saying r now p).of_answered hi hc⟩
    · obtain ⟨i, hi, rfl⟩ := List.mem_map.1 hp
      exact current_iff_same_birth hw meanwhile hi few
  · obtain ⟨verdict, meanwhile, hv, hm⟩ := exists_network_pass hw hg
    refine ⟨verdict, meanwhile,
      (g.beginHealthPass.1.sleep g.beginHealthPass.2.1.duration).now, ?_⟩
    rw [hm, ← hv]
    exact ⟨rfl, rfl, rfl⟩
  · obtain ⟨verdict, meanwhile, hv, hm⟩ := exists_script_pass hg
    refine ⟨verdict, meanwhile, (g.beginDrillPass.1.sleep g.beginDrillPass.2.duration).now, ?_⟩
    rw [hm, ← hv]
    exact ⟨rfl, rfl, rfl⟩

/-- Of three instances one is evicted at its first failure, one has become healthy, and the third
has been registered again meanwhile. -/
theorem pass_warns_of_each_failure_evicted :
    let new (id : String) : Instant × Change :=
      (⟨0, 0⟩, .register ((Registration.new "db" "10.0.0.1" 5432).withId id))
    let w := (Chronicle.start 1).run [new "a", new "b", new "c"]
    let r := (w.run [new "c"]).registry
    let verdict (i : Instance) : Verdict := if i.id = "b" then .healthy else .unhealthy "down"
    let o := settle ⟨9, 0⟩ r (results verdict w.registry.list.values)
    let warnings := o.notices.filter (·.level = .warn)
    let recoveries := o.notices.filter (·.level = .info)
    warnings.length = 1 ∧
      (∃ n, Notice.about "a" warnings = [n] ∧
        n.message = "Instance evicted after consecutive failed probes") ∧
      (∃ n, Notice.about "b" recoveries = [n] ∧ n.message = "Service marked healthy") ∧
      Notice.about "c" warnings = [] := by
  intro new w r verdict o warnings recoveries
  obtain ⟨hpass, -⟩ := pass_warns_of_each_failure 1 [new "a", new "b", new "c"]
  obtain ⟨-, hlength, -, hdropped, hfolded, -⟩ := hpass verdict [new "c"] ⟨9, 0⟩
  let found := results verdict w.registry.list.values
  have hfound : found.map (fun p => (p.copy.id, current r p, p.verdict.isHealthy)) =
      [("a", true, false), ("b", true, true), ("c", false, false)] := by decide +kernel
  have pick (id : String) (same healthy : Bool)
      (h : (id, same, healthy) ∈ [("a", true, false), ("b", true, true), ("c", false, false)]) :
      ∃ p ∈ found, p.copy.id = id ∧ current r p = same ∧ p.verdict.isHealthy = healthy := by
    rw [← hfound] at h
    simpa using h
  obtain ⟨a, ha, hida, hca, hva⟩ := pick "a" true false (by simp)
  obtain ⟨b, hb, hidb, hcb, hvb⟩ := pick "b" true true (by simp)
  obtain ⟨c, hc, hidc, hcc, -⟩ := pick "c" false false (by simp)
  obtain ⟨i, hi, -⟩ := current_iff.1 hca
  obtain ⟨j, hj, -⟩ := current_iff.1 hcb
  obtain ⟨-, n, hwarned, hmessage⟩ := (hfolded a ha i hca hi).1 hva
  obtain ⟨-, -, hrose⟩ := (hfolded b hb j hcb hj).2 hvb
  have hgone : (o.state.get? "a").isNone = true := by decide +kernel
  have hstatus : (r.get? "b").map Instance.status = some .unknown := by decide +kernel
  have hone : o.answer.unhealthy + o.answer.evicted = 1 := by decide +kernel
  rw [hidb] at hj hrose
  rw [hida] at hwarned hmessage
  rw [hj, Option.map_some] at hstatus
  refine ⟨hlength.trans hone, ⟨n, hwarned, hmessage.trans (if_pos hgone)⟩, hrose ?_,
    hidc ▸ (hdropped c hc hcc).1⟩
  rw [Option.some.inj hstatus]
  nofun

end Health

end Switchyard
