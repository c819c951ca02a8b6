import Switchyard.Gateway.Background
import Switchyard.Proofs.Schedule.Agenda

/-! The gateway while time passes. The tasks in the background leave the proxy alone, and they
change the registry by changes as others make them. -/
namespace Switchyard

open Registry (Change)

/-! ### Changes of the registry -/

/-- A registry comes to another one by changes. -/
def Registry.Reaches (r r' : Registry) : Prop :=
  ∃ changes : List (Instant × Change), r' = (r.run changes).1

namespace Registry.Reaches

variable {r r' r'' : Registry} {now : Instant}

theorem refl (r : Registry) : Reaches r r := ⟨[], rfl⟩

theorem run_append (r : Registry) (before after : List (Instant × Change)) :
    (r.run (before ++ after)).1 = ((r.run before).1.run after).1 := by
  induction before generalizing r with
  | nil => rfl
  | cons e rest ih => exact ih (e.2.run e.1 r).1

theorem trans (h : Reaches r r') (h' : Reaches r' r'') : Reaches r r'' := by
  obtain ⟨before, rfl⟩ := h
  obtain ⟨after, rfl⟩ := h'
  exact ⟨before ++ after, (run_append r before after).symm⟩

theorem one (now : Instant) (c : Change) : Reaches r (c.run now r).1 := ⟨[(now, c)], rfl⟩

theorem runAt (r : Registry) (now : Instant) (changes : List Change) :
    Reaches r (r.runAt now changes).1 := ⟨_, rfl⟩

/-- The results of a pass are changes. -/
theorem absorb (results : List Probed) (t : Report) :
    Reaches r (Health.absorb now r t results).state := by
  induction results generalizing r t with
  | nil => exact refl r
  | cons p rest ih => exact (one now (.foldProbed p.copy p.verdict.isHealthy)).trans (ih _)

/-- The instances change by the script. -/
theorem script (s : Script) (p : Pass) (listing : List Instance) :
    Reaches r (s.pass now r p listing).2.state := by
  induction listing generalizing s r p with
  | nil => exact refl r
  | cons i rest ih => exact (runAt r now _).trans (ih _ _)

end Registry.Reaches

/-! ### Ticks -/

namespace Gateway

open Registry (Reaches)

theorem beginTick_proxy (t : Task) (moment : Nat) (g : Gateway) :
    (beginTick t moment g).1.proxy = g.proxy := by
  cases t <;> rfl

theorem finishTick_proxy (t : Task) (moment : Nat) (g : Gateway) :
    (finishTick t moment g).proxy = g.proxy := by
  cases t <;> rfl

/-- The proxy does nothing by itself. -/
theorem sleep_proxy (g : Gateway) (millis : Nat) : (g.sleep millis).proxy = g.proxy :=
  Agenda.advance_induct (p := fun h => h.proxy = g.proxy)
    (fun t moment h hh => (beginTick_proxy t moment h).trans hh)
    (fun t moment h hh => (finishTick_proxy t moment h).trans hh) none _ g.agenda g rfl

theorem beginTick_reaches (t : Task) (moment : Nat) (g : Gateway) :
    Reaches g.registry (beginTick t moment g).1.registry := by
  cases t with
  | broadcast => exact .refl _
  | health => exact .refl _
  | drill => exact .script _ _ _

theorem finishTick_reaches (t : Task) (moment : Nat) (g : Gateway) :
    Reaches g.registry (finishTick t moment g).registry := by
  cases t with
  | broadcast => exact .refl _
  | health => exact .absorb _ _
  | drill => exact .absorb _ _

theorem sleep_reaches (g : Gateway) (millis : Nat) :
    Reaches g.registry (g.sleep millis).registry :=
  Agenda.advance_induct (p := fun h => Reaches g.registry h.registry)
    (fun t moment h hh => hh.trans (beginTick_reaches t moment h))
    (fun t moment h hh => hh.trans (finishTick_reaches t moment h)) none _ g.agenda g (.refl _)

end Gateway

end Switchyard
