import Mathlib.Data.List.Induction
import Switchyard.Proofs.Registry.Generations
import Switchyard.Proofs.Registry.Renewal

/-! The census of a registry. Every record is one that a sound registration left under its own id;
the views of the registry count these records, each in its own way, and agree; and as many are
there as registrations brought a new id and nothing took it away again. -/
namespace Switchyard

open Registry (Change)

/-! ### Records -/

namespace Registry

/-- What holds of every record that stands under an id. -/
structure WellFormed (id : String) (i : Instance) : Prop where
  own : i.id = id
  given : id ≠ ""
  name : Text.isVoid i.name = false
  address : Text.isVoid i.address = false
  port : i.port ≠ 0

def AllWellFormed (r : Registry) : Prop := ∀ id i, r.get? id = some i → WellFormed id i

end Registry

/-- A registration without a defect names a service and a place. -/
theorem Registration.defect?_eq_none_iff {q : Registration} :
    q.defect? = none ↔ Text.isVoid q.name = false ∧ Text.isVoid q.address = false ∧ q.port ≠ 0 := by
  unfold defect?
  cases Text.isVoid q.name <;> cases Text.isVoid q.address <;> by_cases hport : q.port = 0 <;>
    simp [hport]

namespace Chronicle

theorem wellFormed_step {w : Chronicle} (h : w.registry.AllWellFormed) (e : Instant × Change) :
    (w.step e).registry.AllWellFormed := by
  intro id i hi
  have hturn := turn w id e
  generalize (w.step e).registry.get? id = i? at hturn hi
  generalize (w.step e).lives id = life at hturn
  cases hturn with
  | kept => exact h id i hi
  | created q _ sound given =>
    cases hi
    obtain ⟨hname, haddress, hport⟩ := Registration.defect?_eq_none_iff.1 sound
    refine ⟨given, ?_, hname, haddress, hport⟩
    rintro rfl
    have hgiven := Registry.isGiven_idFor w.registry e.1 q
    rw [given] at hgiven
    exact Registry.trim_ne_of_isGiven hgiven (by decide)
  | heard j healthy held _ =>
    cases hi
    obtain ⟨hown, hgiven, hname, haddress, hport⟩ := h id j held
    cases healthy <;> exact ⟨hown, hgiven, hname, haddress, hport⟩
  | gone => cases hi

theorem wellFormed_run {w : Chronicle} (h : w.registry.AllWellFormed)
    (calls : List (Instant × Change)) : (w.run calls).registry.AllWellFormed := by
  induction calls generalizing w with
  | nil => exact h
  | cons e rest ih => exact ih (wellFormed_step h e)

end Chronicle

/-! ### Counts by status -/

namespace StatusCounts

def total (c : StatusCounts) : Nat := c.healthy + c.unhealthy + c.unknown

theorem total_add (c : StatusCounts) (s : Status) : (c.add s).total = c.total + 1 := by
  cases s <;> simp only [add, total] <;> omega

/-- The counts of the instances of a service. -/
def of (name : String) (instances : List Instance) : StatusCounts where
  healthy := instances.countP fun i => i.name == name && i.status == .healthy
  unhealthy := instances.countP fun i => i.name == name && i.status == .unhealthy
  unknown := instances.countP fun i => i.name == name && i.status == .unknown

theorem of_concat (name : String) (instances : List Instance) (i : Instance) :
    of name (instances ++ [i]) =
      if i.name = name then (of name instances).add i.status else of name instances := by
  by_cases h : i.name = name <;> cases hs : i.status <;> simp [of, add, h, hs]

theorem of_eq_empty {name : String} {instances : List Instance}
    (h : name ∉ instances.map (·.name)) : of name instances = {} := by
  have hnone (s : Status) :
      instances.countP (fun i => i.name == name && i.status == s) = 0 := by
    refine List.countP_eq_zero.2 fun i hi hboth => h ?_
    rw [Bool.and_eq_true, beq_iff_eq] at hboth
    exact List.mem_map.2 ⟨i, hi, hboth.1⟩
  simp only [of, hnone]

/-- The counts of all services, one instance after the other. -/
def gather (instances : List Instance) : Keyed StatusCounts :=
  instances.foldl (fun m i => m.insert i.name ((m.getD i.name {}).add i.status)) ∅

theorem gather_concat (instances : List Instance) (i : Instance) :
    gather (instances ++ [i]) =
      (gather instances).insert i.name (((gather instances).getD i.name {}).add i.status) := by
  rw [gather, List.foldl_append]
  rfl

/-- A service is counted if it has an instance, and all of them are. -/
theorem get?_gather (instances : List Instance) (name : String) :
    (gather instances).get? name =
      if name ∈ instances.map (·.name) then some (of name instances) else none := by
  -- from the end: the last instance meets the counts of all that stand before it
  induction instances using List.reverseRecOn with
  | nil => rfl
  | append_singleton instances i ih =>
    rw [gather_concat, Keyed.get?_insert, of_concat]
    by_cases h : i.name = name
    · subst h
      have hbefore : (gather instances).getD i.name {} = of i.name instances := by
        rw [Keyed.getD, ih]
        split
        · rfl
        · exact (of_eq_empty ‹_›).symm
      rw [if_pos rfl, if_pos rfl, if_pos (by simp), hbefore]
    · have hmem : name ∈ (instances ++ [i]).map (·.name) ↔ name ∈ instances.map (·.name) := by
        simp [Ne.symm h]
      rw [if_neg (Ne.symm h), if_neg h, ih, if_congr hmem rfl rfl]

/-- Every instance is counted once. -/
theorem sum_gather (instances : List Instance) :
    (gather instances).sum total = instances.length := by
  induction instances using List.reverseRecOn with
  | nil => rfl
  | append_singleton instances i ih =>
    have hsum := Keyed.sum_insert total (gather instances) i.name
      (((gather instances).getD i.name {}).add i.status)
    have hold : (((gather instances).get? i.name).map total).getD 0 =
        ((gather instances).getD i.name {}).total := by
      rw [Keyed.getD]
      cases (gather instances).get? i.name <;> rfl
    rw [gather_concat, List.length_append, List.length_singleton, ← ih]
    rw [total_add, hold] at hsum
    omega

end StatusCounts

/-! ### The views -/

/-- Whether the result of a probe evicted its record. -/
def Folded.ousts : Folded → Bool
  | .evicted _ => true
  | _ => false

namespace Registry

variable (r : Registry)

theorem length_healthy (name : String) :
    (r.healthy name).length = (StatusCounts.of name r.list.values).healthy :=
  (List.countP_eq_length_filter ..).symm

/-- The services that have an instance are counted, each by its instances. -/
theorem get?_statusCounts (name : String) :
    r.statusCounts.get? name =
      if name ∈ r.list.values.map (·.name) then some (StatusCounts.of name r.list.values)
      else none :=
  StatusCounts.get?_gather r.list.values name

/-- All services together have all the instances. -/
theorem sum_statusCounts : r.statusCounts.sum StatusCounts.total = r.size := by
  refine (StatusCounts.sum_gather r.list.values).trans ?_
  rw [Keyed.values, List.length_map]
  rfl

theorem isEmpty_iff : r.isEmpty = true ↔ r.size = 0 := by
  rw [isEmpty, List.isEmpty_iff, size, Keyed.size, List.length_eq_zero_iff]

/-! ### Coming and going -/

/-- Whether a call brings a record under an id that had none. -/
def opens (r : Registry) (e : Instant × Change) : Bool :=
  match e.2.echo e.1 r with
  | .registered (.ok id) => !(r.get? id).isSome
  | _ => false

/-- Whether a call removes a record because its caller wants it so. -/
def removes (r : Registry) (e : Instant × Change) : Bool :=
  match e.2.echo e.1 r with
  | .deregistered found => found
  | _ => false

/-- Whether a call evicts a record. -/
def loses (r : Registry) (e : Instant × Change) : Bool :=
  match e.2.echo e.1 r with
  | .folded a => a.ousts
  | _ => false

/-- How many calls of a run are of a kind. -/
def count (kind : Registry → Instant × Change → Bool) (r : Registry) :
    List (Instant × Change) → Nat
  | [] => 0
  | e :: rest => (kind r e).toNat + count kind (e.2.run e.1 r).1 rest

theorem size_register (now : Instant) (q : Registration) :
    (r.register now q).state.size = r.size + (r.opens (now, .register q)).toNat := by
  cases h : q.defect? with
  | some d => simp only [opens, Change.echo, register_of_defect h, Bool.toNat_false, Nat.add_zero]
  | none =>
    rw [size_register_of_sound h]
    simp only [opens, Change.echo, register_of_sound h]
    cases (r.get? (r.idFor now q)).isSome <;> rfl

theorem size_deregister (id : String) :
    (r.deregister id).state.size + (r.deregister id).answer.toNat = r.size := by
  unfold deregister
  split
  · rename_i i hi
    have hsize := Keyed.size_erase r.records id
    rwa [if_pos (by rw [← get?, hi]; rfl)] at hsize
  · rfl

/-- The result of a probe removes the record that it evicts. -/
theorem size_fold (now : Instant) (id : String) (healthy : Bool) :
    (r.fold now id healthy).state.size + (r.fold now id healthy).answer.ousts.toNat = r.size := by
  cases h : r.get? id with
  | none =>
    rw [fold_of_absent h]
    rfl
  | some i =>
    have hsome : (r.records.get? id).isSome = true := by
      rw [← get?, h]
      rfl
    by_cases he : r.evicts (probed now healthy i) = true
    · have hsize := Keyed.size_erase r.records id
      rw [if_pos hsome] at hsize
      rw [fold_of_evicts h he]
      exact hsize
    · have hsize := Keyed.size_insert r.records id (probed now healthy i)
      rw [if_pos hsome] at hsize
      rw [fold_of_keeps h he]
      dsimp only
      split <;> exact hsize

theorem size_foldProbed (now : Instant) (copy : Instance) (healthy : Bool) :
    (r.foldProbed now copy healthy).state.size +
      (r.foldProbed now copy healthy).answer.ousts.toNat = r.size := by
  rcases foldProbed_eq_or r now copy healthy with h | h
  · rw [h]
    exact r.size_fold now copy.id healthy
  · rw [h]
    rfl

/-- A call changes the size by what it opens, removes and loses. -/
theorem size_change (e : Instant × Change) :
    (e.2.run e.1 r).1.size + (r.removes e).toNat + (r.loses e).toNat =
      r.size + (r.opens e).toNat := by
  obtain ⟨now, c⟩ := e
  cases c with
  | register q => exact r.size_register now q
  | deregister id => exact r.size_deregister id
  | fold id healthy => exact r.size_fold now id healthy
  | foldProbed copy healthy => exact r.size_foldProbed now copy healthy

theorem size_run (calls : List (Instant × Change)) :
    (r.run calls).1.size + r.count removes calls + r.count loses calls =
      r.size + r.count opens calls := by
  induction calls generalizing r with
  | nil => rfl
  | cons e rest ih =>
    have hstep := r.size_change e
    have hrest := ih (e.2.run e.1 r).1
    have hrun : (r.run (e :: rest)).1 = ((e.2.run e.1 r).1.run rest).1 := rfl
    rw [hrun]
    simp only [count]
    omega

end Registry

/-! ### Every registry -/

namespace Chronicle

/-- The healthy instances of a service are listed by their ids, each once. -/
theorem Numbered.healthy_pairwise {w : Chronicle} (hw : Numbered w) (name : String) :
    (w.registry.healthy name).Pairwise (·.id < ·.id) := hw.list_pairwise.filter _

end Chronicle

end Switchyard
