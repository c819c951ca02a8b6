import Switchyard.Proofs.Balance.Laws
import Switchyard.Proofs.Keyed

/-! The counts of a balancer and the leases that are out. A choice adds one to the count of
the instance that it finds, and a lease given back takes one off the count of its own; so the
counts are those of the leases that are out, as long as no lease is given back twice. -/
namespace Switchyard.Balancer

variable (b : Balancer) (service : String) (draw : Nat) {healthy : List Instance}

/-! ### The count of one instance -/

theorem held_select {i : Instance} (h : b.choose service draw healthy = some i) (id : String) :
    (b.select service draw healthy).state.held id =
      if id = i.id then b.held id + 1 else b.held id := by
  rw [select_of_some b service draw h]
  simp only [held, Keyed.getD, Keyed.get?_insert]
  split
  · rename_i heq
    rw [heq]
    rfl
  · rfl

theorem held_release (l : Lease) (id : String) :
    (b.release l).held id = if id = l.chosen.id then b.held id - 1 else b.held id := by
  unfold release
  dsimp only
  split
  · rename_i hle
    simp only [held, Keyed.getD, Keyed.get?_erase] at hle ⊢
    split
    · rename_i heq
      rw [heq]
      exact (Nat.sub_eq_zero_of_le hle).symm
    · rfl
  · simp only [held, Keyed.getD, Keyed.get?_insert]
    split
    · rename_i heq
      rw [heq]
      rfl
    · rfl

/-- A lease that is given back leaves the counts as they were before it. -/
theorem held_release_select {l : Lease} (h : b.choose service draw healthy = some l.chosen)
    (id : String) : ((b.select service draw healthy).state.release l).held id = b.held id := by
  rw [held_release, held_select b service draw h]
  split <;> rfl

/-! ### The count of all -/

theorem totalHeld_eq : b.totalHeld = b.inFlight.sum id := by
  rw [totalHeld, Keyed.sum, List.map_id, List.sum_eq_foldl]

theorem getD_map_id (key : String) : ((b.inFlight.get? key).map id).getD 0 = b.held key := by
  rw [Option.map_id]
  rfl

theorem totalHeld_select {i : Instance} (h : b.choose service draw healthy = some i) :
    (b.select service draw healthy).state.totalHeld = b.totalHeld + 1 := by
  have hsum := b.inFlight.sum_insert id i.id (b.held i.id + 1)
  rw [getD_map_id, ← totalHeld_eq] at hsum
  rw [select_of_some b service draw h, totalHeld_eq]
  simp only [id] at hsum ⊢
  omega

theorem totalHeld_release {l : Lease} (h : 0 < b.held l.chosen.id) :
    (b.release l).totalHeld + 1 = b.totalHeld := by
  unfold release
  dsimp only
  split
  · have hsum := b.inFlight.sum_erase id l.chosen.id
    rw [getD_map_id, ← totalHeld_eq] at hsum
    rw [totalHeld_eq]
    dsimp only at hsum ⊢
    omega
  · have hsum := b.inFlight.sum_insert id l.chosen.id (b.held l.chosen.id - 1)
    rw [getD_map_id, ← totalHeld_eq] at hsum
    rw [totalHeld_eq]
    simp only [id] at hsum ⊢
    omega

/-! ### Leases that are out -/

/-- The counts of a balancer are those of the leases that are out. -/
structure Counts (b : Balancer) (out : List Lease) : Prop where
  each : ∀ id, b.held id = out.countP (·.chosen.id = id)
  total : b.totalHeld = out.length

variable {b} {out out' : List Lease}

theorem counts_start (strategy : Strategy) : Counts { strategy } [] := ⟨fun _ => rfl, rfl⟩

theorem Counts.perm (h : Counts b out) (hp : out.Perm out') : Counts b out' where
  each id := (h.each id).trans (hp.countP_eq _)
  total := h.total.trans hp.length_eq

theorem Counts.select (h : Counts b out) {i : Instance}
    (hi : b.choose service draw healthy = some i) :
    Counts (b.select service draw healthy).state (⟨i⟩ :: out) where
  each id := by
    rw [held_select b service draw hi, h.each, List.countP_cons]
    by_cases heq : id = i.id
    · simp [heq]
    · simp [heq, Ne.symm heq]
  total := by
    rw [totalHeld_select b service draw hi, h.total, List.length_cons]

/-- A lease that is out is counted. -/
theorem Counts.pos (h : Counts b out) {l : Lease} (hl : l ∈ out) : 0 < b.held l.chosen.id := by
  rw [h.each]
  exact List.countP_pos_iff.2 ⟨l, hl, decide_eq_true rfl⟩

theorem Counts.release {l : Lease} (h : Counts b (l :: out)) : Counts (b.release l) out where
  each id := by
    have hid := h.each id
    rw [List.countP_cons] at hid
    rw [held_release, hid]
    by_cases heq : id = l.chosen.id
    · simp [heq]
    · simp [heq, Ne.symm heq]
  total := by
    have hone := totalHeld_release b (h.pos List.mem_cons_self)
    have hall := h.total
    rw [List.length_cons] at hall
    omega

end Switchyard.Balancer
