import Mathlib.Data.Int.CardIntervalMod
import Switchyard.Proofs.Balance.Dispatch

/-! The rotation of a balancer that chooses in turn. The cursor of a service counts the
choices made for it, and nothing else: so each choice takes the next of the instances that
are healthy at its moment, and while these stay the same each of them is chosen as often
as any other, up to one. -/
namespace Switchyard.Dispatch

/-! ### The cursor -/

/-- The cursor of a service after `n` choices for it, of a balancer that chooses in turn. -/
structure Rotating (d : Dispatch) (service : String) (n : Nat) : Prop where
  strategy : d.balancer.strategy = .roundRobin
  cursor : (d.balancer.cursor service).toNat = n % Numeric.limit64

variable {d : Dispatch} {service : String} {n : Nat}

/-- Before the cursor begins again, the choice goes to the next instance in turn. -/
theorem Rotating.choose_eq (h : Rotating d service n) (few : n < Numeric.limit64) (draw : Nat) :
    d.balancer.choose service draw (d.registry.healthy service) =
      (d.registry.healthy service)[n % (d.registry.healthy service).length]? := by
  rw [Balancer.choose_of_roundRobin _ _ _ h.strategy, h.cursor, Nat.mod_eq_of_lt few]

theorem rotating_start (threshold : UInt32) (service : String) :
    Rotating (start threshold .roundRobin) service 0 := ⟨rfl, rfl⟩

/-- Each choice that finds an instance moves the cursor of its service by one. -/
theorem rotating_select (h : Rotating d service n) (now : Instant) (given : String)
    (draw : Nat) :
    Rotating (d.step (now, .select given draw)) service
      (n + (d.picked service (.select given draw)).length) where
  strategy := (Balancer.strategy_select ..).trans h.strategy
  cursor := by
    have hcursor : (d.step (now, .select given draw)).balancer.cursor service = _ :=
      Balancer.cursor_select d.balancer given draw (d.registry.healthy given) service
    rw [hcursor, picked_select]
    by_cases heq : given = service
    · subst heq
      cases d.balancer.choose given draw (d.registry.healthy given) with
      | none =>
        rw [if_neg fun hs => absurd hs.2 nofun, if_pos rfl]
        exact h.cursor
      | some i =>
        rw [if_pos ⟨rfl, rfl⟩, if_pos rfl, UInt64.toNat_add, h.cursor]
        exact Nat.mod_add_mod n Numeric.limit64 1
    · rw [if_neg fun hs => heq hs.1.symm, if_neg heq]
      exact h.cursor

theorem rotating_step (h : Rotating d service n) (e : Instant × Call) :
    Rotating (d.step e) service (n + (d.picked service e.2).length) := by
  obtain ⟨now, c⟩ := e
  cases c with
  | change c => exact ⟨h.strategy, h.cursor⟩
  | select given draw => exact rotating_select h now given draw
  | release place =>
    cases hl : d.leases[place]? with
    | none =>
      have hsame : d.step (now, .release place) = d := by simp only [step, hl]
      rw [hsame]
      exact h
    | some l =>
      have hgiven : (d.step (now, .release place)).balancer = d.balancer.release l := by
        simp only [step, hl]
      refine ⟨?_, ?_⟩
      · rw [hgiven, Balancer.strategy_release, h.strategy]
      · rw [hgiven, Balancer.cursor_release]
        exact h.cursor

theorem rotating_run (h : Rotating d service n) (calls : List (Instant × Call)) :
    Rotating (d.run calls) service (n + (d.picks service calls).length) := by
  induction calls generalizing d n with
  | nil => exact h
  | cons e rest ih =>
    have hrest := ih (rotating_step h e)
    rw [picks_cons, List.length_append, ← Nat.add_assoc]
    exact hrest

/-! ### A stretch of choices -/

/-- Whether the healthy instances of a service are the same ones at every choice made for
it in a run. -/
def Steady (d : Dispatch) (service : String) (ids : List String) : List (Instant × Call) → Prop
  | [] => True
  | e :: rest =>
    (d.picked service e.2 ≠ [] → (d.registry.healthy service).map Instance.id = ids) ∧
      (d.step e).Steady service ids rest

/-- A call chooses nothing for a service, or the next of its healthy instances. -/
theorem picked_eq (h : Rotating d service n) (few : n < Numeric.limit64) (c : Call) :
    d.picked service c = [] ∨
      ∃ i, d.picked service c = [i] ∧
        (d.registry.healthy service)[n % (d.registry.healthy service).length]? = some i := by
  cases c with
  | change c => exact .inl rfl
  | release place => exact .inl rfl
  | select given draw =>
    rw [picked_select]
    by_cases heq : given = service
    · subst heq
      rw [if_pos rfl, h.choose_eq few]
      cases (d.registry.healthy given)[n % (d.registry.healthy given).length]? with
      | none => exact .inl rfl
      | some i => exact .inr ⟨i, rfl, rfl⟩
    · exact .inl (if_neg heq)

/-- While the healthy instances are the same, the choices go round them. -/
theorem picks_of_steady {ids : List String} (h : Rotating d service n)
    (calls : List (Instant × Call))
    (few : n + (d.picks service calls).length < Numeric.limit64)
    (same : d.Steady service ids calls) (j : Nat) (hj : j < (d.picks service calls).length) :
    ((d.picks service calls).map Instance.id)[j]? = ids[(n + j) % ids.length]? := by
  induction calls generalizing d n j with
  | nil => cases hj
  | cons e rest ih =>
    obtain ⟨hids, hrest⟩ := same
    have hstep := rotating_step h e
    rw [picks_cons, List.length_append] at few hj
    rw [picks_cons]
    rcases picked_eq h (by omega) e.2 with hnone | ⟨i, hone, hturn⟩
    · rw [hnone] at few hj hstep ⊢
      simp only [List.length_nil, Nat.zero_add, Nat.add_zero, List.nil_append] at few hj hstep ⊢
      exact ih hstep few hrest j hj
    · have hlist := hids (by rw [hone]; nofun)
      rw [hone] at few hj hstep ⊢
      simp only [List.length_singleton] at few hj hstep
      cases j with
      | zero =>
        show some i.id = _
        rw [← hlist, List.length_map, List.getElem?_map, Nat.add_zero, hturn]
        rfl
      | succ j =>
        have hlater := ih hstep (by omega) hrest j (by omega)
        rw [Nat.add_assoc, Nat.add_comm 1 j] at hlater
        exact hlater

/-! ### The count of each instance -/

/-- The places of a turn are a class of numbers modulo the length of the round. -/
theorem mod_eq_iff_modEq {n m k : Nat} (hk : k < m) (j : Nat) :
    (n + j) % m = k ↔ j ≡ k + (m - n % m) [MOD m] := by
  have hpos : 0 < m := Nat.zero_lt_of_lt hk
  have hround : n + (k + (m - n % m)) = k + m * (n / m + 1) := by
    have hn := Nat.div_add_mod n m
    have hlt := Nat.mod_lt n hpos
    rw [Nat.mul_add, Nat.mul_one]
    omega
  have hclass : n + (k + (m - n % m)) ≡ k [MOD m] := by
    rw [hround]
    exact Nat.add_mul_mod_self_left k m _
  constructor
  · intro h
    refine Nat.ModEq.add_left_cancel' n (Nat.ModEq.trans ?_ hclass.symm)
    rw [Nat.ModEq, h, Nat.mod_eq_of_lt hk]
  · intro h
    have hj : (n + j) % m = k % m := (h.add_left n).trans hclass
    rw [hj, Nat.mod_eq_of_lt hk]

/-- The round that is not over counts for one more at most. -/
theorem count_modEq_eq_or {m : Nat} (hm : 0 < m) (v l : Nat) :
    l.count (· ≡ v [MOD m]) = l / m ∨ l.count (· ≡ v [MOD m]) = (l + m - 1) / m := by
  rw [Nat.count_modEq_card l hm]
  split
  · rename_i hlt
    right
    have hl := Nat.div_add_mod l m
    have hrest := Nat.mod_lt l hm
    have hround : l + m - 1 = (l % m - 1) + m * (l / m + 1) := by
      rw [Nat.mul_add, Nat.mul_one]
      omega
    have hnone : (l % m - 1) / m = 0 := Nat.div_eq_of_lt (by omega)
    rw [hround, Nat.add_mul_div_left _ _ hm, hnone, Nat.zero_add]
  · left
    rfl

/-- In a list that goes round others, each of them comes as often as any other, up to one. -/
theorem count_of_turns {l ids : List String} {n : Nat} (hnodup : ids.Nodup)
    (hl : ∀ j < l.length, l[j]? = ids[(n + j) % ids.length]?) {id : String} (hid : id ∈ ids) :
    l.count id = l.length / ids.length ∨
      l.count id = (l.length + ids.length - 1) / ids.length := by
  obtain ⟨k, hk, rfl⟩ := List.getElem_of_mem hid
  have hpos : 0 < ids.length := Nat.zero_lt_of_lt hk
  have hcount : l.count ids[k] =
      l.length.count (· ≡ k + (ids.length - n % ids.length) [MOD ids.length]) := by
    induction l using List.reverseRecOn with
    | nil => rfl
    | append_singleton l a ih =>
      have hlast := hl l.length (by rw [List.length_append]; exact Nat.lt_succ_self _)
      rw [List.getElem?_concat_length,
        List.getElem?_eq_getElem (Nat.mod_lt (n + l.length) hpos), Option.some.injEq] at hlast
      have hturn : a = ids[k] ↔ l.length ≡ k + (ids.length - n % ids.length) [MOD ids.length] := by
        rw [hlast, hnodup.getElem_inj_iff]
        exact mod_eq_iff_modEq hk l.length
      have hbefore : ∀ j < l.length, l[j]? = ids[(n + j) % ids.length]? := by
        intro j hj
        rw [← hl j (by rw [List.length_append]; omega), List.getElem?_append_left hj]
      rw [List.count_append, ih hbefore, List.length_append, List.length_singleton,
        Nat.count_succ, List.count_singleton]
      simp only [beq_iff_eq, hturn]
  rw [hcount]
  exact count_modEq_eq_or hpos _ _

/-- The instances of a stretch with a choice are the healthy ones of one of its moments. -/
theorem exists_healthy_of_steady {ids : List String} (calls : List (Instant × Call))
    (same : d.Steady service ids calls) (chosen : d.picks service calls ≠ []) :
    ∃ before after, calls = before ++ after ∧
      ((d.run before).registry.healthy service).map Instance.id = ids := by
  induction calls generalizing d with
  | nil => exact absurd rfl chosen
  | cons e rest ih =>
    obtain ⟨hids, hrest⟩ := same
    by_cases hnone : d.picked service e.2 = []
    · rw [picks_cons, hnone, List.nil_append] at chosen
      obtain ⟨before, after, hsplit, hhealthy⟩ := ih hrest chosen
      exact ⟨e :: before, after, by rw [hsplit, List.cons_append], hhealthy⟩
    · exact ⟨[], e :: rest, rfl, hids hnone⟩

theorem nodup_of_steady (threshold : UInt32) (strategy : Strategy) {ids : List String}
    (calls stretch : List (Instant × Call))
    (same : ((start threshold strategy).run calls).Steady service ids stretch)
    (chosen : ((start threshold strategy).run calls).picks service stretch ≠ []) : ids.Nodup := by
  obtain ⟨before, after, -, hids⟩ := exists_healthy_of_steady stretch same chosen
  have hordered := healthy_pairwise threshold strategy (calls ++ before) service
  rw [run_append] at hordered
  have hne {a b : Instance} (hlt : a.id < b.id) : a.id ≠ b.id := fun heq =>
    String.lt_irrefl _ (heq ▸ hlt)
  rw [← hids]
  exact List.pairwise_map.2 (hordered.imp hne)

/-- The healthy instances of a service are listed by their ids. The next choice for it goes
to the one whose turn it is, and the turns count the choices made for this service alone;
without a healthy instance nothing is chosen and nothing changes. In a stretch of choices
from the same instances the choices go round them, and each is chosen as often as any
other, up to one. -/
theorem choices_take_turns (threshold : UInt32) (calls : List (Instant × Call))
    (service : String)
    (few : ((start threshold .roundRobin).picks service calls).length < Numeric.limit64) :
    let d := (start threshold .roundRobin).run calls
    let healthy := d.registry.healthy service
    let turn := ((start threshold .roundRobin).picks service calls).length
    healthy.Pairwise (·.id < ·.id) ∧
    (healthy = [] → ∀ draw,
      d.choice service draw = ⟨d.balancer, .error (.serviceNotAvailable service), []⟩) ∧
    (healthy ≠ [] → ∃ i, healthy[turn % healthy.length]? = some i ∧
      ∀ draw, (d.choice service draw).answer = .ok ⟨i⟩) ∧
    ∀ stretch ids,
      ((start threshold .roundRobin).picks service (calls ++ stretch)).length < Numeric.limit64 →
      d.Steady service ids stretch →
      let chosen := (d.picks service stretch).map Instance.id
      (∀ j < chosen.length, chosen[j]? = ids[(turn + j) % ids.length]?) ∧
      ∀ id ∈ ids, chosen.count id = chosen.length / ids.length ∨
        chosen.count id = (chosen.length + ids.length - 1) / ids.length := by
  intro d healthy turn
  have hd : Rotating d service turn := by
    have h := rotating_run (rotating_start threshold service) calls
    rwa [Nat.zero_add] at h
  have hchoose (draw : Nat) : d.balancer.choose service draw healthy =
      healthy[turn % healthy.length]? := hd.choose_eq few draw
  refine ⟨healthy_pairwise threshold .roundRobin calls service, fun hnone draw => ?_,
    fun hsome => ?_, fun stretch ids hfew same => ?_⟩
  · refine Balancer.select_of_none _ _ _ ((hchoose draw).trans ?_)
    rw [hnone]
    rfl
  · have hlt : turn % healthy.length < healthy.length :=
      Nat.mod_lt _ (List.length_pos_iff.2 hsome)
    have hturn := List.getElem?_eq_getElem hlt
    refine ⟨_, hturn, fun draw => ?_⟩
    rw [choice, Balancer.select_answer, hchoose draw, hturn]
  · intro chosen
    rw [picks_append, List.length_append] at hfew
    have hround : ∀ j < chosen.length, chosen[j]? = ids[(turn + j) % ids.length]? := by
      intro j hj
      rw [List.length_map] at hj
      exact picks_of_steady hd stretch hfew same j hj
    refine ⟨hround, fun id hid => ?_⟩
    by_cases hempty : d.picks service stretch = []
    · have hchosen : chosen = [] := List.map_eq_nil_iff.2 hempty
      rw [hchosen]
      exact .inl (Nat.zero_div _).symm
    · have hnodup := nodup_of_steady threshold .roundRobin calls stretch same hempty
      exact count_of_turns hnodup hround hid

/-- The choice for another service finds nothing, and neither it nor the release shifts the
turns. -/
theorem choices_take_turns_two :
    let q (id : String) := (Registration.new "db" "10.0.0.1" 5432).withId id
    let t : Instant := ⟨0, 0⟩
    let calls : List (Instant × Call) := [(t, .change (.register (q "db-2"))),
      (t, .change (.register (q "db-1"))), (t, .change (.fold "db-1" true)),
      (t, .change (.fold "db-2" true)), (t, .select "db" 0)]
    let stretch : List (Instant × Call) := [(t, .select "web" 0), (t, .release 0),
      (t, .select "db" 0), (t, .select "db" 0)]
    let d := (start 0 .roundRobin).run calls
    ((start 0 .roundRobin).picks "db" (calls ++ stretch)).length < Numeric.limit64 ∧
      d.Steady "db" ["db-1", "db-2"] stretch ∧
      (∃ i, i.id = "db-2" ∧ ∀ draw, (d.choice "db" draw).answer = .ok ⟨i⟩) ∧
      ((d.picks "db" stretch).map Instance.id).count "db-1" = 1 := by
  intro q t calls stretch d
  have few : ((start 0 .roundRobin).picks "db" (calls ++ stretch)).length < Numeric.limit64 := by
    decide +kernel
  have same : d.Steady "db" ["db-1", "db-2"] stretch :=
    ⟨fun _ => by decide +kernel, fun _ => by decide +kernel, fun _ => by decide +kernel,
      fun _ => by decide +kernel, trivial⟩
  obtain ⟨-, -, hturn, hstretch⟩ := choices_take_turns 0 calls "db" (by decide +kernel)
  obtain ⟨i, hi, hchoice⟩ := hturn (by decide +kernel)
  obtain ⟨-, hcount⟩ := hstretch stretch _ few same
  have hlength : ((d.picks "db" stretch).map Instance.id).length = 2 := by decide +kernel
  refine ⟨few, same, ⟨i, ?_, hchoice⟩, ?_⟩
  · have hid : (some i).map Instance.id = some "db-2" := hi ▸ by decide +kernel
    exact Option.some.inj hid
  · have hone := hcount "db-1" List.mem_cons_self
    rw [hlength] at hone
    exact hone.elim id id

end Switchyard.Dispatch
