import Switchyard.Proofs.Gateway.Background
import Switchyard.Proofs.Keyed
import Switchyard.Proofs.Registry.Generations

/-! What a health check pass makes of the registry. Each result concerns the record under one
id and depends on that record alone; as the ids of a listing are distinct, the results can be
folded one by one in any order, and each of them as if it were the only one. -/
namespace Switchyard

/-- Registries with the same look-ups and counters are the same. -/
theorem Registry.ext_get? {r r' : Registry} (hget : ∀ id, r.get? id = r'.get? id)
    (ht : r.threshold = r'.threshold) (hr : r.registrations = r'.registrations) : r = r' := by
  have hrecords : r.records = r'.records := Keyed.ext_get? hget
  cases r
  cases r'
  cases hrecords
  cases ht
  cases hr
  rfl

namespace Health

open Registry (Change)

variable {r r' : Registry} {now : Instant} {p : Probed} {t : Report}

/-! ### One result -/

/-- Whether the record that was probed is still there. -/
def current (r : Registry) (p : Probed) : Bool :=
  (r.get? p.copy.id).any fun i => i.registration = p.copy.registration

/-- Whether the registry evicts the record that was probed. -/
def evicting (r : Registry) (now : Instant) (p : Probed) : Bool :=
  current r p && (r.get? p.copy.id).any fun i =>
    r.evicts (Registry.probed now p.verdict.isHealthy i)

theorem current_iff : current r p = true ↔
    ∃ i, r.get? p.copy.id = some i ∧ i.registration = p.copy.registration := by
  simp [current, Option.any_eq_true]

theorem foldProbed_of_current (h : current r p = true) (healthy : Bool) :
    r.foldProbed now p.copy healthy = r.fold now p.copy.id healthy := by
  obtain ⟨i, hi, heq⟩ := current_iff.1 h
  exact Registry.foldProbed_of_same hi heq

/-- A result for a record that is no longer there is dropped. -/
theorem foldProbed_of_not_current (h : current r p = false) (now : Instant) (healthy : Bool) :
    (r.foldProbed now p.copy healthy).state = r ∧
      ((r.foldProbed now p.copy healthy).answer = .missing ∨
        (r.foldProbed now p.copy healthy).answer = .stale) := by
  cases hi : r.get? p.copy.id with
  | none =>
    rw [Registry.foldProbed_of_absent hi]
    exact ⟨rfl, .inl rfl⟩
  | some i =>
    have hne : i.registration ≠ p.copy.registration := by
      simpa [current, hi] using h
    rw [Registry.foldProbed_of_other hi hne]
    exact ⟨rfl, .inr rfl⟩

theorem not_evicts_of_healthy (i : Instance) : ¬ r.evicts (Registry.probed now true i) = true := by
  simp [Registry.evicts, Registry.probed]

theorem evicting_spec (h : evicting r now p = true) :
    current r p = true ∧ p.verdict.isHealthy = false := by
  rw [evicting, Bool.and_eq_true] at h
  obtain ⟨hc, he⟩ := h
  refine ⟨hc, ?_⟩
  obtain ⟨i, -, hi⟩ := (Option.any_eq_true _ _).1 he
  cases hv : p.verdict.isHealthy with
  | false => rfl
  | true => exact absurd (hv ▸ hi) (not_evicts_of_healthy i)

/-- What one result adds to the report. -/
theorem count_eq (r : Registry) (now : Instant) (p : Probed) (t : Report) :
    t.count p.verdict (r.foldProbed now p.copy p.verdict.isHealthy).answer =
      { checked := t.checked + 1
        healthy := t.healthy + (current r p && p.verdict.isHealthy).toNat
        unhealthy := t.unhealthy +
          (current r p && !p.verdict.isHealthy && !evicting r now p).toNat
        evicted := t.evicted + (evicting r now p).toNat } := by
  cases hc : current r p with
  | false =>
    obtain ⟨-, hmissing | hstale⟩ := foldProbed_of_not_current hc now p.verdict.isHealthy
    · simp [hmissing, Report.count, evicting, hc]
    · simp [hstale, Report.count, evicting, hc]
  | true =>
    obtain ⟨i, hi, -⟩ := current_iff.1 hc
    rw [foldProbed_of_current hc]
    by_cases he : r.evicts (Registry.probed now p.verdict.isHealthy i) = true
    · have hevicting : evicting r now p = true := by simp [evicting, hc, hi, he]
      rw [Registry.fold_of_evicts hi he]
      simp [Report.count, hevicting, (evicting_spec hevicting).2]
    · rw [Registry.fold_of_keeps hi he]
      cases hv : p.verdict.isHealthy <;> rw [hv] at he <;> dsimp only <;> split <;>
        simp [Report.count, evicting, hc, hi, hv, he]

theorem get?_foldProbed_of_ne {copy : Instance} {healthy : Bool} {other : String}
    (h : other ≠ copy.id) : (r.foldProbed now copy healthy).state.get? other = r.get? other := by
  rcases Registry.foldProbed_eq_or r now copy healthy with he | he
  · rw [he, Registry.get?_fold, if_neg h]
  · rw [he]

theorem foldProbed_frame (r : Registry) (now : Instant) (copy : Instance) (healthy : Bool) :
    (r.foldProbed now copy healthy).state.threshold = r.threshold ∧
      (r.foldProbed now copy healthy).state.registrations = r.registrations := by
  rcases Registry.foldProbed_eq_or r now copy healthy with he | he
  · rw [he]
    exact Registry.fold_frame
  · rw [he]
    exact ⟨rfl, rfl⟩

/-- A result depends on the one record and on the threshold. -/
theorem foldProbed_congr {copy : Instance} (hget : r'.get? copy.id = r.get? copy.id)
    (ht : r'.threshold = r.threshold) (healthy : Bool) :
    (r'.foldProbed now copy healthy).answer = (r.foldProbed now copy healthy).answer ∧
      (r'.foldProbed now copy healthy).state.get? copy.id =
        (r.foldProbed now copy healthy).state.get? copy.id := by
  have hevicts (i : Instance) : r'.evicts i = r.evicts i := by rw [Registry.evicts, ht]; rfl
  cases hi : r.get? copy.id with
  | none =>
    rw [hi] at hget
    rw [Registry.foldProbed_of_absent hi, Registry.foldProbed_of_absent hget, hget, hi]
    exact ⟨rfl, rfl⟩
  | some i =>
    rw [hi] at hget
    by_cases heq : i.registration = copy.registration
    · rw [Registry.foldProbed_of_same hi heq, Registry.foldProbed_of_same hget heq,
        Registry.get?_fold, Registry.get?_fold, hi, hget]
      simp only [Option.bind_some, Registry.afterProbe, hevicts, and_true]
      by_cases he : r.evicts (Registry.probed now healthy i) = true
      · rw [Registry.fold_of_evicts hi he, Registry.fold_of_evicts hget ((hevicts _).trans he)]
      · rw [Registry.fold_of_keeps hi he, Registry.fold_of_keeps hget (by rwa [hevicts])]
    · rw [Registry.foldProbed_of_other hi heq, Registry.foldProbed_of_other hget heq, hget, hi]
      exact ⟨rfl, rfl⟩

/-! ### All results -/

/-- A registry is as another one for the results that are still to be folded. -/
structure Agrees (r r' : Registry) (results : List Probed) : Prop where
  get? : ∀ p ∈ results, r'.get? p.copy.id = r.get? p.copy.id
  threshold : r'.threshold = r.threshold

/-- A result that has been folded concerns none of the others. -/
theorem Agrees.tail {rest : List Probed} (h : Agrees r r' (p :: rest))
    (hp : ∀ q ∈ rest, q.copy.id ≠ p.copy.id) (now : Instant) (healthy : Bool) :
    Agrees r (r'.foldProbed now p.copy healthy).state rest where
  get? q hq := by
    rw [get?_foldProbed_of_ne (hp q hq)]
    exact h.get? q (List.mem_cons_of_mem _ hq)
  threshold := (foldProbed_frame r' now p.copy healthy).1.trans h.threshold

/-- The results of distinct instances. -/
def Distinct (results : List Probed) : Prop := results.Pairwise fun p q => q.copy.id ≠ p.copy.id

theorem absorb_frame (r : Registry) (now : Instant) (t : Report) (results : List Probed) :
    (absorb now r t results).state.threshold = r.threshold ∧
      (absorb now r t results).state.registrations = r.registrations := by
  induction results generalizing r t with
  | nil => exact ⟨rfl, rfl⟩
  | cons p rest ih =>
    obtain ⟨hthreshold, hregistrations⟩ :=
      foldProbed_frame r now p.copy p.verdict.isHealthy
    exact ⟨(ih _ _).1.trans hthreshold, (ih _ _).2.trans hregistrations⟩

theorem get?_absorb_of_not_mem {results : List Probed} {id : String}
    (h : ∀ p ∈ results, p.copy.id ≠ id) : (absorb now r t results).state.get? id = r.get? id := by
  induction results generalizing r t with
  | nil => rfl
  | cons p rest ih =>
    have hne := h p List.mem_cons_self
    exact (ih fun q hq => h q (List.mem_cons_of_mem _ hq)).trans (get?_foldProbed_of_ne hne.symm)

/-- Each result is folded as if it were the only one. -/
theorem get?_absorb_of_mem {results : List Probed} (hd : Distinct results)
    (h : Agrees r r' results) (hp : p ∈ results) :
    (absorb now r' t results).state.get? p.copy.id =
      (r.foldProbed now p.copy p.verdict.isHealthy).state.get? p.copy.id := by
  induction results generalizing r' t with
  | nil => cases hp
  | cons q rest ih =>
    obtain ⟨hq, hrest⟩ := List.pairwise_cons.1 hd
    rcases List.mem_cons.1 hp with rfl | hp
    · rw [← (foldProbed_congr (h.get? p hp) h.threshold _).2]
      exact get?_absorb_of_not_mem hq
    · exact ih hrest (h.tail hq now _) hp

/-- The report counts each result as if it were the only one. -/
theorem absorb_answer {results : List Probed} (hd : Distinct results)
    (h : Agrees r r' results) (now : Instant) (t : Report) :
    (absorb now r' t results).answer =
      { checked := t.checked + results.length
        healthy := t.healthy + results.countP fun p => current r p && p.verdict.isHealthy
        unhealthy := t.unhealthy + results.countP fun p =>
          current r p && !p.verdict.isHealthy && !evicting r now p
        evicted := t.evicted + results.countP (evicting r now) } := by
  induction results generalizing r' t with
  | nil => rfl
  | cons p rest ih =>
    obtain ⟨hp, hrest⟩ := List.pairwise_cons.1 hd
    have hcount := count_eq r now p t
    rw [← (foldProbed_congr (h.get? p List.mem_cons_self) h.threshold _).1] at hcount
    refine (ih hrest (h.tail hp now _) _).trans ?_
    have hone (b : Bool) (m n : Nat) :
        m + b.toNat + n = m + (n + if b = true then 1 else 0) := by
      cases b with
      | false => rfl
      | true =>
        simp only [Bool.toNat_true, if_true]
        omega
    rw [hcount]
    simp only [List.length_cons, List.countP_cons, hone, Nat.add_assoc, Nat.add_comm 1]

/-! ### A pass -/

theorem settle_answer (results : List Probed) :
    (settle now r results).answer = (absorb now r {} results).answer := rfl

theorem agrees_self (results : List Probed) : Agrees r r results := ⟨fun _ _ => rfl, rfl⟩

theorem Distinct.perm {results results' : List Probed} (hp : results'.Perm results)
    (hd : Distinct results) : Distinct results' :=
  hp.symm.pairwise hd fun h => Ne.symm h

/-- The order of the results makes no difference. -/
theorem settle_perm {results results' : List Probed} (hp : results'.Perm results)
    (hd : Distinct results) :
    (settle now r results').state = (settle now r results).state ∧
      (settle now r results').answer = (settle now r results).answer := by
  have hd' := hd.perm hp
  have hself := agrees_self (r := r) results
  have hself' := agrees_self (r := r) results'
  constructor
  · have hget (id : String) : (settle now r results').state.get? id =
        (settle now r results).state.get? id := by
      by_cases h : ∃ p ∈ results, p.copy.id = id
      · obtain ⟨p, hp', rfl⟩ := h
        exact (get?_absorb_of_mem hd' hself' (hp.mem_iff.2 hp')).trans
          (get?_absorb_of_mem hd hself hp').symm
      · have hnone : ∀ p ∈ results, p.copy.id ≠ id := fun p hp' heq => h ⟨p, hp', heq⟩
        exact (get?_absorb_of_not_mem fun p hp' => hnone p (hp.mem_iff.1 hp')).trans
          (get?_absorb_of_not_mem hnone).symm
    obtain ⟨hthreshold, hregistrations⟩ := absorb_frame r now {} results
    obtain ⟨hthreshold', hregistrations'⟩ := absorb_frame r now {} results'
    exact Registry.ext_get? hget (hthreshold'.trans hthreshold.symm)
      (hregistrations'.trans hregistrations.symm)
  · rw [settle_answer, settle_answer, absorb_answer hd hself now {},
      absorb_answer hd' hself' now {}, hp.length_eq, hp.countP_eq, hp.countP_eq, hp.countP_eq]

/-- Every result is dropped, or counted as one of the three. -/
theorem counts_add (r : Registry) (now : Instant) (results : List Probed) :
    results.length = (results.countP fun p => current r p && p.verdict.isHealthy) +
      (results.countP fun p => current r p && !p.verdict.isHealthy && !evicting r now p) +
      results.countP (evicting r now) + results.countP fun p => !current r p := by
  induction results with
  | nil => rfl
  | cons p rest ih =>
    have hone : (if (current r p && p.verdict.isHealthy) = true then 1 else 0) +
        (if (current r p && !p.verdict.isHealthy && !evicting r now p) = true then 1 else 0) +
        (if evicting r now p = true then 1 else 0) +
        (if (!current r p) = true then 1 else 0) = 1 := by
      have hspec : evicting r now p = true → _ := evicting_spec
      cases hc : current r p <;> cases hv : p.verdict.isHealthy <;>
        cases he : evicting r now p <;> simp_all
    simp only [List.length_cons, List.countP_cons]
    omega

/-! ### The results of a pass -/

/-- What the probes found at the instances of a listing. -/
def results (verdict : Instance → Verdict) (listing : List Instance) : List Probed :=
  listing.map fun i => ⟨i, verdict i⟩

theorem results_cons {listing : List Instance} {i : Instance} (h : i ∉ listing)
    (verdict : Instance → Verdict) (v : Verdict) :
    results (Function.update verdict i v) (i :: listing) = ⟨i, v⟩ :: results verdict listing := by
  rw [results, List.map_cons, Function.update_self]
  congr 1
  refine List.map_congr_left fun j hj => ?_
  have hne : j ≠ i := fun heq => h (heq ▸ hj)
  rw [Function.update_of_ne hne]

/-- A pass over the network probes every instance of the listing once. -/
theorem httpProbe_pass (h : HttpProbe) (n : Network) (p : Pass) {listing : List Instance}
    (hd : listing.Nodup) :
    ∃ verdict, (h.pass n p listing).2.1.probed = p.probed ++ results verdict listing := by
  induction listing generalizing n p with
  | nil => exact ⟨fun _ => .healthy, (List.append_nil _).symm⟩
  | cons i rest ih =>
    obtain ⟨hi, hrest⟩ := List.nodup_cons.1 hd
    obtain ⟨verdict, hv⟩ := ih (h.probe n i).1.network
      (p.add i (h.probe n i).2 (h.probe n i).1.elapsed) hrest
    refine ⟨Function.update verdict i (h.probe n i).2, ?_⟩
    simp only [HttpProbe.pass]
    rw [hv, results_cons hi, Pass.add, List.append_assoc]
    rfl

/-- A pass by the script finds what the script says. -/
theorem script_pass (now : Instant) (r : Registry) (s : Script) (p : Pass)
    (listing : List Instance) :
    (s.pass now r p listing).2.answer.probed =
      p.probed ++ results (fun i => (s.cue i.id).verdict) listing := by
  induction listing generalizing s r p with
  | nil => exact (List.append_nil _).symm
  | cons i rest ih =>
    refine (ih _ _ _).trans ?_
    rw [Pass.add, List.append_assoc]
    rfl

theorem distinct_results {w : Chronicle} (h : Chronicle.Numbered w)
    (verdict : Instance → Verdict) : Distinct (results verdict w.registry.list.values) := by
  refine List.pairwise_map.2 (h.list_pairwise.imp fun {a b} hlt heq => ?_)
  have hid : b.id = a.id := heq
  rw [hid] at hlt
  exact String.lt_irrefl _ hlt

theorem exists_run_of_reaches (w : Chronicle) {r : Registry} (h : w.registry.Reaches r) :
    ∃ meanwhile, (w.run meanwhile).registry = r := by
  obtain ⟨meanwhile, rfl⟩ := h
  exact ⟨meanwhile, w.run_registry meanwhile⟩

/-- What a check over the network has found, and what has become of the registry by then. -/
theorem exists_network_pass {w : Chronicle} (h : Chronicle.Numbered w) {g : Gateway}
    (hg : g.registry = w.registry) :
    ∃ verdict meanwhile,
      g.beginHealthPass.2.1.probed = results verdict w.registry.list.values ∧
      (w.run meanwhile).registry =
        (g.beginHealthPass.1.sleep g.beginHealthPass.2.1.duration).registry := by
  have hd : g.registry.list.values.Nodup := by
    rw [hg]
    refine h.list_pairwise.imp fun {a b} hlt heq => ?_
    rw [heq] at hlt
    exact String.lt_irrefl _ hlt
  obtain ⟨verdict, hv⟩ := httpProbe_pass g.httpProbe g.network {} hd
  have hreaches := g.beginHealthPass.1.sleep_reaches g.beginHealthPass.2.1.duration
  obtain ⟨meanwhile, hm⟩ := exists_run_of_reaches w (hg ▸ hreaches)
  exact ⟨verdict, meanwhile, hg ▸ hv, hm⟩

/-- And a check by the script. -/
theorem exists_script_pass {w : Chronicle} {g : Gateway} (hg : g.registry = w.registry) :
    ∃ verdict meanwhile,
      g.beginDrillPass.2.probed = results verdict w.registry.list.values ∧
      (w.run meanwhile).registry =
        (g.beginDrillPass.1.sleep g.beginDrillPass.2.duration).registry := by
  have hv := script_pass g.now g.registry g.script {} g.registry.list.values
  have hreaches : g.registry.Reaches
      (g.beginDrillPass.1.sleep g.beginDrillPass.2.duration).registry :=
    (Registry.Reaches.script _ _ _).trans (g.beginDrillPass.1.sleep_reaches _)
  obtain ⟨meanwhile, hm⟩ := exists_run_of_reaches w (hg ▸ hreaches)
  exact ⟨fun i => (g.script.cue i.id).verdict, meanwhile, hg ▸ hv, hm⟩

/-- A check over the network is a pass over the listing with which it begins. -/
theorem checkByNetwork_is_pass {w : Chronicle} (h : Chronicle.Numbered w) {g : Gateway}
    (hg : g.registry = w.registry) :
    ∃ verdict meanwhile now,
      let o := settle now (w.run meanwhile).registry (results verdict w.registry.list.values)
      g.checkByNetwork.1.registry = o.state ∧ g.checkByNetwork.2.1 = o.answer := by
  obtain ⟨verdict, meanwhile, hv, hm⟩ := exists_network_pass h hg
  refine ⟨verdict, meanwhile, (g.beginHealthPass.1.sleep g.beginHealthPass.2.1.duration).now, ?_⟩
  rw [hm, ← hv]
  exact ⟨rfl, rfl⟩

/-- And so is a check by the script. -/
theorem checkByScript_is_pass {w : Chronicle} {g : Gateway} (hg : g.registry = w.registry) :
    ∃ verdict meanwhile now,
      let o := settle now (w.run meanwhile).registry (results verdict w.registry.list.values)
      g.checkByScript.1.registry = o.state ∧ g.checkByScript.2 = o.answer := by
  obtain ⟨verdict, meanwhile, hv, hm⟩ := exists_script_pass hg
  refine ⟨verdict, meanwhile, (g.beginDrillPass.1.sleep g.beginDrillPass.2.duration).now, ?_⟩
  rw [hm, ← hv]
  exact ⟨rfl, rfl⟩

theorem get?_settle_of_current {found : List Probed} (hd : Distinct found) (hp : p ∈ found)
    (hc : current r p = true) : (settle now r found).state.get? p.copy.id =
      (r.fold now p.copy.id p.verdict.isHealthy).state.get? p.copy.id := by
  rw [← foldProbed_of_current hc]
  exact get?_absorb_of_mem hd (agrees_self found) hp

theorem get?_settle_of_not_current {found : List Probed} (hd : Distinct found) {id : String}
    (h : ∀ p ∈ found, p.copy.id = id → current r p = false) :
    (settle now r found).state.get? id = r.get? id := by
  by_cases hin : ∃ p ∈ found, p.copy.id = id
  · obtain ⟨p, hp, rfl⟩ := hin
    refine (get?_absorb_of_mem hd (agrees_self found) hp).trans ?_
    rw [(foldProbed_of_not_current (h p hp rfl) now _).1]
  · exact get?_absorb_of_not_mem fun p hp heq => hin ⟨p, hp, heq⟩

/-- A record that has been evicted is gone, and no other record that was probed is. -/
theorem evicting_iff {found : List Probed} (hd : Distinct found) (hp : p ∈ found) :
    evicting r now p = true ↔
      current r p = true ∧ (settle now r found).state.get? p.copy.id = none := by
  cases hc : current r p with
  | false => simp [evicting, hc]
  | true =>
    obtain ⟨i, hi, -⟩ := current_iff.1 hc
    rw [get?_settle_of_current hd hp hc, Registry.get?_fold, if_pos rfl, hi, Option.bind_some,
      Registry.afterProbe]
    simp [evicting, hc, hi]

/-- A pass folds what it found into the records that it probed, as far as they are still there,
and changes no other; and the report says how many there were of each kind. -/
theorem pass_folds_current (threshold : UInt32) (before : List (Instant × Change)) :
    let w := (Chronicle.start threshold).run before
    let listing := w.registry.list.values
    (∀ (verdict : Instance → Verdict) (meanwhile : List (Instant × Change)) (now : Instant),
      let r := (w.run meanwhile).registry
      let found := results verdict listing
      let o := settle now r found
      (∀ p ∈ found, current r p = true → o.state.get? p.copy.id =
        (r.fold now p.copy.id p.verdict.isHealthy).state.get? p.copy.id) ∧
      (∀ id, (∀ p ∈ found, p.copy.id = id → current r p = false) →
        o.state.get? id = r.get? id) ∧
      (o.state.threshold = r.threshold ∧ o.state.registrations = r.registrations) ∧
      o.answer =
        { checked := listing.length
          healthy := found.countP fun p => current r p && p.verdict.isHealthy
          unhealthy := found.countP fun p =>
            current r p && !p.verdict.isHealthy && !evicting r now p
          evicted := found.countP (evicting r now) } ∧
      o.answer.checked = o.answer.healthy + o.answer.unhealthy + o.answer.evicted +
        (found.countP fun p => !current r p) ∧
      (∀ p ∈ found, evicting r now p = true ↔
        current r p = true ∧ o.state.get? p.copy.id = none) ∧
      ∀ found' : List Probed, found'.Perm found →
        (settle now r found').state = o.state ∧ (settle now r found').answer = o.answer) ∧
    ∀ g : Gateway, g.registry = w.registry →
      (∃ verdict meanwhile now,
        let o := settle now (w.run meanwhile).registry (results verdict listing)
        g.checkByNetwork.1.registry = o.state ∧ g.checkByNetwork.2.1 = o.answer) ∧
      ∃ verdict meanwhile now,
        let o := settle now (w.run meanwhile).registry (results verdict listing)
        g.checkByScript.1.registry = o.state ∧ g.checkByScript.2 = o.answer := by
  intro w listing
  have hw : Chronicle.Numbered w :=
    Chronicle.numbered_run (Chronicle.numbered_start threshold) before
  refine ⟨fun verdict meanwhile now => ?_, fun g hg =>
    ⟨checkByNetwork_is_pass hw hg, checkByScript_is_pass hg⟩⟩
  intro r found o
  have hd : Distinct found := distinct_results hw verdict
  have hlength : found.length = listing.length := List.length_map _
  have hanswer := absorb_answer hd (agrees_self (r := r) found) now {}
  simp only [Nat.zero_add, hlength] at hanswer
  refine ⟨fun p hp hc => get?_settle_of_current hd hp hc,
    fun id h => get?_settle_of_not_current hd h, absorb_frame r now {} found, hanswer, ?_,
    fun p hp => evicting_iff hd hp, fun found' hp => settle_perm hp hd⟩
  have hadd := counts_add r now found
  rw [hlength] at hadd
  rw [show o.answer = _ from hanswer]
  exact hadd

end Health

end Switchyard
