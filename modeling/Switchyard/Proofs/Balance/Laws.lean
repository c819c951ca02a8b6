import Mathlib.Tactic.Common
import Switchyard.Balance.Balancer

/-! What a choice and a release make of the balancer. A choice that finds nothing changes
nothing; one that finds an instance moves the cursor of its own service and the count of
its own instance. A release moves no cursor. -/
namespace Switchyard.Balancer

variable (b : Balancer) (service : String) (draw : Nat) {healthy : List Instance}

/-! ### The choice -/

theorem head?_rotate {α : Type} {start : Nat} {items : List α} (h : start < items.length) :
    (rotate start items).head? = items[start]? := by
  rw [rotate, List.head?_append, List.head?_drop, List.getElem?_eq_getElem h]
  rfl

/-- In turn, the instance at the cursor is chosen. -/
theorem choose_of_roundRobin (h : b.strategy = .roundRobin) (healthy : List Instance) :
    b.choose service draw healthy = healthy[(b.cursor service).toNat % healthy.length]? := by
  simp only [choose, h]
  cases healthy with
  | nil => simp [rotate]
  | cons i rest => exact head?_rotate (Nat.mod_lt _ (Nat.zero_lt_succ _))

theorem select_of_none (h : b.choose service draw healthy = none) :
    b.select service draw healthy = ⟨b, .error (.serviceNotAvailable service), []⟩ := by
  simp only [select, h]

theorem select_of_some {i : Instance} (h : b.choose service draw healthy = some i) :
    b.select service draw healthy =
      ⟨{ b with
          cursors := b.cursors.insert service (b.cursor service + 1)
          inFlight := b.inFlight.insert i.id (b.held i.id + 1) },
        .ok ⟨i⟩, [.selected service i.id b.strategy.label]⟩ := by
  simp only [select, h]

/-- The lease is on the instance that was chosen. -/
theorem select_answer (healthy : List Instance) :
    (b.select service draw healthy).answer =
      match b.choose service draw healthy with
      | none => .error (.serviceNotAvailable service)
      | some i => .ok ⟨i⟩ := by
  cases h : b.choose service draw healthy with
  | none => rw [select_of_none b service draw h]
  | some i => rw [select_of_some b service draw h]

/-! ### Cursors and strategy -/

/-- A choice moves the cursor of its own service, and only when it finds an instance. -/
theorem cursor_select (healthy : List Instance) (other : String) :
    (b.select service draw healthy).state.cursor other =
      if other = service ∧ (b.choose service draw healthy).isSome then b.cursor other + 1
      else b.cursor other := by
  cases h : b.choose service draw healthy with
  | none =>
    rw [select_of_none b service draw h, if_neg nofun]
  | some i =>
    rw [select_of_some b service draw h]
    simp only [cursor, Keyed.getD, Keyed.get?_insert, Option.isSome_some, and_true]
    split
    · rename_i heq
      rw [heq]
      rfl
    · rfl

theorem strategy_select (healthy : List Instance) :
    (b.select service draw healthy).state.strategy = b.strategy := by
  cases h : b.choose service draw healthy with
  | none => rw [select_of_none b service draw h]
  | some i => rw [select_of_some b service draw h]

theorem cursor_release (l : Lease) : (b.release l).cursor service = b.cursor service := by
  unfold release
  dsimp only
  split <;> rfl

theorem strategy_release (l : Lease) : (b.release l).strategy = b.strategy := by
  unfold release
  dsimp only
  split <;> rfl

end Switchyard.Balancer
