import Mathlib.Data.List.Perm.Basic
import Mathlib.Data.List.Rotate
import Switchyard.Proofs.Balance.Dispatch
import Switchyard.Proofs.Balance.Holdings

/-! The balancer that chooses the instance with the fewest leases. Of several such it takes the
one that comes first in turn, counted from the cursor; so it chooses as a balancer in turn does
while no instance has more leases than another. Each choice raises a least count by one, and
therefore the counts stay level up to one as long as no lease is given back. -/
namespace Switchyard

namespace Balancer

/-! ### The first of the least -/

/-- That `a` stands `steps` places behind `start` in the round of some items, has no more weight
than any of them, and less than those that stand between. -/
structure IsLeastFrom {α : Type} (weight : α → Nat) (items : List α) (start steps : Nat) (a : α) :
    Prop where
  near : steps < items.length
  found : items[(start + steps) % items.length]? = some a
  least : ∀ b ∈ items, weight a ≤ weight b
  first : ∀ m < steps, ∀ b ∈ items[(start + m) % items.length]?, weight a < weight b

variable {α : Type} {weight : α → Nat}

/-- The scan of a list ends with the first of its least items. -/
theorem exists_firstLeast (weight : α → Nat) (best : α) (rest : List α) :
    ∃ k : Nat, (best :: rest)[k]? = some (firstLeast weight best rest) ∧
      (∀ b ∈ best :: rest, weight (firstLeast weight best rest) ≤ weight b) ∧
      ∀ m < k, ∀ b ∈ (best :: rest)[m]?, weight (firstLeast weight best rest) < weight b := by
  induction rest generalizing best with
  | nil => exact ⟨0, rfl, by simp [firstLeast], nofun⟩
  | cons a rest ih =>
    rw [firstLeast]
    split
    · rename_i hlt
      obtain ⟨k, hk, hleast, hfirst⟩ := ih a
      have ha := hleast a List.mem_cons_self
      refine ⟨k + 1, hk, List.forall_mem_cons.2 ⟨by omega, hleast⟩, fun m hm b hb => ?_⟩
      cases m with
      | zero =>
        cases hb
        omega
      | succ m => exact hfirst m (by omega) b hb
    · rename_i hle
      obtain ⟨k, hk, hleast, hfirst⟩ := ih best
      obtain ⟨hbest, hrest⟩ := List.forall_mem_cons.1 hleast
      have hall : ∀ b ∈ best :: a :: rest, weight (firstLeast weight best rest) ≤ weight b :=
        List.forall_mem_cons.2 ⟨hbest, List.forall_mem_cons.2 ⟨by omega, hrest⟩⟩
      -- the item that was passed over moves all but the first place up by one
      cases k with
      | zero => exact ⟨0, hk, hall, nofun⟩
      | succ k =>
        have hzero := hfirst 0 (Nat.zero_lt_succ k) best rfl
        refine ⟨k + 2, hk, hall, fun m hm b hb => ?_⟩
        match m with
        | 0 =>
          cases hb
          exact hzero
        | 1 =>
          cases hb
          omega
        | m + 2 => exact hfirst (m + 1) (by omega) b hb

theorem rotate_eq {start : Nat} {items : List α} (h : start ≤ items.length) :
    rotate start items = items.rotate start := (List.rotate_eq_drop_append_take h).symm

variable {b : Balancer} {service : String} {healthy : List Instance}

/-- With a healthy instance the choice is the first, from the cursor on, of those with the fewest
leases. -/
theorem choose_of_leastConnections (h : b.strategy = .leastConnections) (service : String)
    (some_ : healthy ≠ []) (draw : Nat) :
    ∃ i steps, b.choose service draw healthy = some i ∧
      IsLeastFrom (fun i => b.held i.id) healthy (b.cursor service).toNat steps i := by
  have hpos : 0 < healthy.length := List.length_pos_iff.2 some_
  have hstart := Nat.mod_lt (b.cursor service).toNat hpos
  have hround := rotate_eq (Nat.le_of_lt hstart)
  cases hitems : rotate ((b.cursor service).toNat % healthy.length) healthy with
  | nil =>
    rw [hround, List.rotate_eq_nil_iff] at hitems
    exact absurd hitems some_
  | cons best rest =>
    obtain ⟨k, hk, hleast, hfirst⟩ := exists_firstLeast (fun i => b.held i.id) best rest
    rw [← hitems, hround] at hk hleast hfirst
    have hlt : k < healthy.length := by
      have := (List.getElem?_eq_some_iff.1 hk).1
      rwa [List.length_rotate] at this
    have hplace (m : Nat) (hm : m < healthy.length) :
        (healthy.rotate ((b.cursor service).toNat % healthy.length))[m]? =
          healthy[((b.cursor service).toNat + m) % healthy.length]? := by
      rw [List.getElem?_rotate hm, Nat.add_mod_mod, Nat.add_comm]
    refine ⟨_, k, ?_, hlt, ?_, fun i hi => hleast i (List.mem_rotate.2 hi), fun m hm i hi => ?_⟩
    · simp only [choose, h, hitems]
    · rw [← hplace k hlt, hk]
    · exact hfirst m hm i (hplace m (by omega) ▸ hi)

/-- While the counts are level, the fewest leases are found where a balancer in turn chooses. -/
theorem choose_of_level (h : b.strategy = .leastConnections)
    (level : ∀ i ∈ healthy, ∀ j ∈ healthy, b.held i.id = b.held j.id) (draw : Nat) :
    b.choose service draw healthy =
      ({ b with strategy := .roundRobin } : Balancer).choose service draw healthy := by
  rw [choose_of_roundRobin { b with strategy := .roundRobin } service draw rfl]
  by_cases hnone : healthy = []
  · subst hnone
    simp [choose, h, rotate]
  · obtain ⟨i, steps, hi, hleast⟩ := choose_of_leastConnections h service hnone draw
    have hmem : i ∈ healthy := List.mem_of_getElem? hleast.found
    cases steps with
    | zero =>
      rw [hi, ← hleast.found]
      rfl
    | succ steps =>
      -- an instance that stands between would have more leases
      have hlt : (b.cursor service).toNat % healthy.length < healthy.length :=
        Nat.mod_lt _ (List.length_pos_iff.2 hnone)
      have hmore := hleast.first 0 (Nat.zero_lt_succ _) _ (List.getElem?_eq_getElem hlt)
      have hsame := level i hmem _ (List.getElem_mem hlt)
      exact absurd hsame (Nat.ne_of_lt hmore)

end Balancer

namespace Dispatch

variable {d : Dispatch} {service : String}

/-! ### Runs -/

theorem strategy_step (d : Dispatch) (e : Instant × Call) :
    (d.step e).balancer.strategy = d.balancer.strategy := by
  obtain ⟨now, c⟩ := e
  cases c with
  | change c => rfl
  | select service draw => exact Balancer.strategy_select ..
  | release place =>
    simp only [step]
    split
    · rfl
    · exact Balancer.strategy_release ..

theorem strategy_run (d : Dispatch) (calls : List (Instant × Call)) :
    (d.run calls).balancer.strategy = d.balancer.strategy := by
  induction calls generalizing d with
  | nil => rfl
  | cons e rest ih => rw [run_cons, ih, strategy_step]

/-- The counts of a balancer are those of the leases that are held. -/
theorem counts_step (h : d.balancer.Counts d.leases) (e : Instant × Call) :
    (d.step e).balancer.Counts (d.step e).leases := by
  obtain ⟨now, c⟩ := e
  cases c with
  | change c => exact h
  | select service draw =>
    simp only [step, choice]
    cases hi : d.balancer.choose service draw (d.registry.healthy service) with
    | none =>
      rw [Balancer.select_of_none _ _ _ hi]
      simpa [Except.toOption] using h
    | some i =>
      have hcounts := h.select service draw hi
      rw [Balancer.select_answer, hi]
      exact hcounts.perm (List.perm_append_singleton _ _).symm
  | release place =>
    simp only [step]
    split
    · exact h
    · rename_i l hl
      obtain ⟨hlt, rfl⟩ := List.getElem?_eq_some_iff.1 hl
      exact (h.perm (List.getElem_cons_eraseIdx_perm hlt).symm).release

theorem counts_run (h : d.balancer.Counts d.leases) (calls : List (Instant × Call)) :
    (d.run calls).balancer.Counts (d.run calls).leases := by
  induction calls generalizing d with
  | nil => exact h
  | cons e rest ih => exact ih (counts_step h e)

/-! ### The same choices -/

/-- The same with a balancer that chooses in turn, from the same cursors. -/
def inTurn (d : Dispatch) : Dispatch :=
  { d with balancer := { d.balancer with strategy := .roundRobin } }

/-- That no lease is held at any choice of a run. -/
def Unleased (d : Dispatch) : List (Instant × Call) → Prop
  | [] => True
  | e :: rest =>
    ((∃ service draw, e.2 = .select service draw) → d.leases = []) ∧ (d.step e).Unleased rest

theorem choose_of_unleased (hstrategy : d.balancer.strategy = .leastConnections)
    (hcounts : d.balancer.Counts d.leases) (hnone : d.leases = []) (service : String) (draw : Nat) :
    d.balancer.choose service draw (d.registry.healthy service) =
      d.inTurn.balancer.choose service draw (d.registry.healthy service) := by
  refine Balancer.choose_of_level hstrategy (fun i _ j _ => ?_) draw
  rw [hcounts.each, hcounts.each, hnone]
  rfl

/-- A balancer in turn that chooses the same comes to the same. -/
theorem step_inTurn (now : Instant) (c : Call)
    (same : ∀ service draw, c = .select service draw →
      d.balancer.choose service draw (d.registry.healthy service) =
        d.inTurn.balancer.choose service draw (d.registry.healthy service)) :
    d.inTurn.step (now, c) = (d.step (now, c)).inTurn := by
  cases c with
  | change c => rfl
  | select service draw =>
    have hchoose := same service draw rfl
    have hregistry : d.inTurn.registry = d.registry := rfl
    simp only [step, choice, hregistry]
    cases hi : d.balancer.choose service draw (d.registry.healthy service) with
    | none =>
      rw [Balancer.select_of_none _ _ _ hi, Balancer.select_of_none _ _ _ (hchoose ▸ hi)]
      rfl
    | some i =>
      rw [Balancer.select_of_some _ _ _ hi, Balancer.select_of_some _ _ _ (hchoose ▸ hi)]
      rfl
  | release place =>
    have hleases : d.inTurn.leases = d.leases := rfl
    simp only [step, hleases]
    split
    · rfl
    · rename_i l hl
      have hrelease : d.inTurn.balancer.release l =
          { d.balancer.release l with strategy := .roundRobin } := by
        unfold Balancer.release
        dsimp only
        split <;> rename_i hheld <;>
          simp only [inTurn, Balancer.held] at hheld ⊢ <;> simp [hheld]
      rw [hrelease]
      rfl

/-- Without a lease at any choice the instances are chosen in turn. -/
theorem picks_inTurn (hstrategy : d.balancer.strategy = .leastConnections)
    (hcounts : d.balancer.Counts d.leases) {stretch : List (Instant × Call)}
    (h : d.Unleased stretch) (service : String) :
    d.picks service stretch = d.inTurn.picks service stretch := by
  induction stretch generalizing d with
  | nil => rfl
  | cons e rest ih =>
    obtain ⟨now, c⟩ := e
    obtain ⟨hfree, hrest⟩ := h
    have same : ∀ service draw, c = .select service draw →
        d.balancer.choose service draw (d.registry.healthy service) =
          d.inTurn.balancer.choose service draw (d.registry.healthy service) :=
      fun service draw hc => choose_of_unleased hstrategy hcounts (hfree ⟨service, draw, hc⟩) _ _
    have hpicked : d.picked service c = d.inTurn.picked service c := by
      cases c with
      | select given draw =>
        rw [picked_select, picked_select, same given draw rfl]
        rfl
      | _ => rfl
    rw [picks_cons, picks_cons, hpicked, step_inTurn now c same,
      ih ((strategy_step d _).trans hstrategy) (counts_step hcounts _) hrest]

/-! ### Level counts -/

/-- That the healthy instances of a service are the same at every moment of a run. -/
def Constant (d : Dispatch) (service : String) (ids : List String) :
    List (Instant × Call) → Prop
  | [] => (d.registry.healthy service).map Instance.id = ids
  | e :: rest =>
    (d.registry.healthy service).map Instance.id = ids ∧ (d.step e).Constant service ids rest

theorem Constant.ids {ids : List String} {stretch : List (Instant × Call)}
    (h : d.Constant service ids stretch) :
    (d.registry.healthy service).map Instance.id = ids := by
  cases stretch with
  | nil => exact h
  | cons e rest => exact h.1

/-- A record is a healthy instance of one service only. -/
theorem id_ne_of_other (threshold : UInt32) (strategy : Strategy) (calls : List (Instant × Call))
    {other : String} (hne : other ≠ service) {i j : Instance}
    (hi : i ∈ ((start threshold strategy).run calls).registry.healthy other)
    (hj : j ∈ ((start threshold strategy).run calls).registry.healthy service) : i.id ≠ j.id := by
  intro heq
  have hne_of_lt {a b : Instance} (hlt : a.id < b.id) : a.id ≠ b.id := fun heq =>
    String.lt_irrefl _ (heq ▸ hlt)
  have hnodup : (((start threshold strategy).run calls).registry.list.values.map
      Instance.id).Nodup :=
    List.pairwise_map.2 ((list_pairwise threshold strategy calls).imp hne_of_lt)
  obtain ⟨himem, hiname⟩ := List.mem_filter.1 hi
  obtain ⟨hjmem, hjname⟩ := List.mem_filter.1 hj
  have hsame : i = j := List.inj_on_of_nodup_map hnodup himem hjmem heq
  simp only [Bool.and_eq_true, beq_iff_eq] at hiname hjname
  exact hne (hiname.1.symm.trans (hsame ▸ hjname.1))

/-- That no count is above another by more than one. -/
def Level (d : Dispatch) (ids : List String) : Prop :=
  ∀ a ∈ ids, ∀ b ∈ ids, d.balancer.held a ≤ d.balancer.held b + 1

/-- A choice raises a count that is among the least. -/
theorem level_step (threshold : UInt32) (calls : List (Instant × Call)) {ids : List String}
    {e : Instant × Call} (kept : ∀ place, e.2 ≠ .release place)
    (h : ((start threshold .leastConnections).run calls).Level ids)
    (hids : (((start threshold .leastConnections).run calls).registry.healthy service).map
      Instance.id = ids) :
    (((start threshold .leastConnections).run calls).step e).Level ids := by
  obtain ⟨now, c⟩ := e
  cases c with
  | change c => exact h
  | release place => exact absurd rfl (kept place)
  | select given draw =>
    set d := (start threshold .leastConnections).run calls with hd
    cases hi : d.balancer.choose given draw (d.registry.healthy given) with
    | none =>
      have hstep : (d.step (now, .select given draw)).balancer = d.balancer := by
        simp only [step, choice, Balancer.select_of_none _ _ _ hi]
      intro a ha b hb
      rw [hstep]
      exact h a ha b hb
    | some i =>
      have hheld := Balancer.held_select d.balancer given draw hi
      have hstrategy : d.balancer.strategy = .leastConnections := strategy_run _ calls
      have hsome : d.registry.healthy given ≠ [] := by
        intro hnone
        rw [hnone] at hi
        simp [Balancer.choose, hstrategy, Balancer.rotate] at hi
      obtain ⟨j, steps, hj, hleast⟩ :=
        Balancer.choose_of_leastConnections hstrategy given hsome draw
      obtain rfl : i = j := Option.some.inj (hi.symm.trans hj)
      have himem : i ∈ d.registry.healthy given := List.mem_of_getElem? hleast.found
      intro a ha b hb
      have hab := h a ha b hb
      have hstep : (d.step (now, .select given draw)).balancer =
          (d.balancer.select given draw (d.registry.healthy given)).state := rfl
      rw [hstep, hheld, hheld]
      by_cases hai : a = i.id
      · subst hai
        have hgiven : given = service := by
          by_contra hne
          rw [← hids] at ha
          obtain ⟨x, hx, heq⟩ := List.mem_map.1 ha
          exact id_ne_of_other threshold .leastConnections calls hne himem hx heq.symm
        subst hgiven
        rw [← hids] at hb
        obtain ⟨y, hy, rfl⟩ := List.mem_map.1 hb
        have hle : d.balancer.held i.id ≤ d.balancer.held y.id := hleast.least y hy
        split <;> split <;> omega
      · rw [if_neg hai]
        split <;> omega

theorem level_run (threshold : UInt32) (calls : List (Instant × Call)) {ids : List String}
    {stretch : List (Instant × Call)} (kept : ∀ e ∈ stretch, ∀ place, e.2 ≠ .release place)
    (h : ((start threshold .leastConnections).run calls).Level ids)
    (hids : ((start threshold .leastConnections).run calls).Constant service ids stretch) :
    (((start threshold .leastConnections).run calls).run stretch).Level ids := by
  induction stretch generalizing calls with
  | nil => exact h
  | cons e rest ih =>
    obtain ⟨hkept, hrest⟩ := List.forall_mem_cons.1 kept
    have hstep := level_step threshold calls hkept h hids.1
    have hsnoc : ((start threshold .leastConnections).run calls).step e =
        (start threshold .leastConnections).run (calls ++ [e]) :=
      (run_append _ calls [e]).symm
    rw [run_cons, hsnoc]
    exact ih (calls ++ [e]) hrest (hsnoc ▸ hstep) (hsnoc ▸ hids.2)

/-- With a healthy instance the next choice goes to the first, in turn from the cursor, of those
with the fewest leases. While the counts are level it is the choice in turn, and without any lease
at the choices all of them are. From level counts on, and while the healthy instances stay the
same and no lease is given back, no count gets above another by more than one. -/
theorem chooses_fewest_leases (threshold : UInt32) (calls : List (Instant × Call))
    (service : String) :
    let d := (start threshold .leastConnections).run calls
    let healthy := d.registry.healthy service
    let held (i : Instance) := d.balancer.held i.id
    (healthy ≠ [] → ∃ i steps,
      Balancer.IsLeastFrom held healthy (d.balancer.cursor service).toNat steps i ∧
        ∀ draw, (d.choice service draw).answer = .ok ⟨i⟩) ∧
    ((∀ i ∈ healthy, ∀ j ∈ healthy, held i = held j) → ∀ draw,
      (d.choice service draw).answer = (d.inTurn.choice service draw).answer) ∧
    (∀ stretch, d.Unleased stretch → ∀ other, d.picks other stretch = d.inTurn.picks other stretch) ∧
    ∀ stretch ids, (∀ i ∈ healthy, ∀ j ∈ healthy, held i = held j) →
      d.Constant service ids stretch → (∀ e ∈ stretch, ∀ place, e.2 ≠ .release place) →
      ∀ a ∈ ids, ∀ b ∈ ids,
        (d.run stretch).balancer.held a ≤ (d.run stretch).balancer.held b + 1 := by
  intro d healthy held
  have hstrategy : d.balancer.strategy = .leastConnections := strategy_run _ calls
  have hcounts : d.balancer.Counts d.leases :=
    counts_run (Balancer.counts_start .leastConnections) calls
  refine ⟨fun hsome => ?_, fun level draw => ?_, fun stretch free other => ?_,
    fun stretch ids level same kept => ?_⟩
  · obtain ⟨i, steps, hchoose, hleast⟩ :=
      Balancer.choose_of_leastConnections hstrategy service hsome 0
    refine ⟨i, steps, hleast, fun draw => ?_⟩
    have hdraw : d.balancer.choose service draw healthy = d.balancer.choose service 0 healthy := by
      simp only [Balancer.choose, hstrategy]
    rw [choice, Balancer.select_answer, hdraw, hchoose]
  · have hsame : d.balancer.choose service draw (d.registry.healthy service) =
        d.inTurn.balancer.choose service draw (d.inTurn.registry.healthy service) :=
      Balancer.choose_of_level hstrategy level draw
    rw [choice, choice, Balancer.select_answer, Balancer.select_answer, hsame]
  · exact picks_inTurn hstrategy hcounts free other
  · refine level_run threshold calls kept (fun a ha b hb => ?_) same
    rw [← same.ids] at ha hb
    obtain ⟨i, hi, rfl⟩ := List.mem_map.1 ha
    obtain ⟨j, hj, rfl⟩ := List.mem_map.1 hb
    have heq : d.balancer.held i.id = d.balancer.held j.id := level i hi j hj
    exact heq ▸ Nat.le_succ _

/-- With one lease out the next instance has fewer. Given back before the second choice, that
lease changes no turn; kept, it leaves the counts level up to one. -/
theorem chooses_fewest_leases_three :
    let q (id : String) := (Registration.new "db" "10.0.0.1" 5432).withId id
    let t : Instant := ⟨0, 0⟩
    let ids := ["db-1", "db-2", "db-3"]
    let calls : List (Instant × Call) :=
      ids.flatMap fun id => [(t, .change (.register (q id))), (t, .change (.fold id true))]
    let select : Instant × Call := (t, .select "db" 0)
    let idle := (start 0 .leastConnections).run calls
    let busy := (start 0 .leastConnections).run (calls ++ [select])
    (∃ i, i.id = "db-2" ∧ ∀ draw, (busy.choice "db" draw).answer = .ok ⟨i⟩) ∧
      (∀ draw, (idle.choice "db" draw).answer = (idle.inTurn.choice "db" draw).answer) ∧
      idle.Unleased [select, (t, .release 0), select] ∧
      idle.picks "db" [select, (t, .release 0), select] =
        idle.inTurn.picks "db" [select, (t, .release 0), select] ∧
      idle.Constant "db" ids [select, select] ∧
      (idle.run [select, select]).balancer.held "db-1" ≤
        (idle.run [select, select]).balancer.held "db-3" + 1 := by
  intro q t ids calls select idle busy
  have level : ∀ i ∈ idle.registry.healthy "db", ∀ j ∈ idle.registry.healthy "db",
      idle.balancer.held i.id = idle.balancer.held j.id := by decide +kernel
  have free : idle.Unleased [select, (t, .release 0), select] :=
    ⟨fun _ => by decide +kernel, nofun, fun _ => by decide +kernel, trivial⟩
  have kept : ((idle.run [select, select]).registry.healthy "db").map Instance.id = ids := by
    decide +kernel
  have same : idle.Constant "db" ids [select, select] :=
    ⟨by decide +kernel, by decide +kernel, kept⟩
  obtain ⟨hleast, -⟩ := chooses_fewest_leases 0 (calls ++ [select]) "db"
  obtain ⟨-, hlevel, hfree, hkept⟩ := chooses_fewest_leases 0 calls "db"
  obtain ⟨i, steps, hi, hchoice⟩ := hleast (by decide +kernel)
  have hid : i.id = "db-2" := by
    have hsecond : (busy.choice "db" 0).answer.toOption.map (·.chosen.id) = some "db-2" := by
      decide +kernel
    rw [hchoice 0] at hsecond
    exact Option.some.inj hsecond
  exact ⟨⟨i, hid, hchoice⟩, hlevel level, free, hfree _ free "db", same,
    hkept _ ids level same (by simp [select]) "db-1" (by decide) "db-3" (by decide)⟩

end Dispatch

end Switchyard
