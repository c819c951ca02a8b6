import Switchyard.Proofs.Health.Pass
import Switchyard.Proofs.Registry.Roster
import Switchyard.Proofs.Runs

/-! A registry with passes under way. The results of a pass are folded one at a time, and between
two of them the registry can change, and other passes can begin and end. A pass that is not
interrupted is `Health.settle`. -/
namespace Switchyard

open Registry (Change Echo)

/-- A pass whose results are being folded: its report so far, and the results that are left. -/
structure Round where
  report : Report := {}
  left : List Probed
deriving Inhabited

/-- A registry, and the passes over it that are under way. -/
structure Rounds where
  registry : Registry
  under : List Round := []

namespace Rounds

/-! ### Runs -/

inductive Event where
  | change (c : Change)
  /-- A pass takes a listing; `verdict` is what its probes find. -/
  | begin (verdict : Instance → Verdict)
  /-- The next result of a pass is folded, or the pass ends. -/
  | turn (place : Nat)

/-- An empty registry, and no pass. -/
def start (threshold : UInt32) : Rounds := { registry := { threshold } }

/-- What becomes of a result. -/
def folded (w : Rounds) (now : Instant) (p : Probed) : Outcome Registry Folded :=
  w.registry.foldProbed now p.copy p.verdict.isHealthy

def step (w : Rounds) (e : Instant × Event) : Rounds :=
  match e.2 with
  | .change c => { w with registry := (c.run e.1 w.registry).1 }
  | .begin verdict =>
    { w with under := w.under ++ [{ left := Health.results verdict w.registry.list.values }] }
  | .turn place =>
    match w.under[place]? with
    | none => w
    | some ⟨_, []⟩ => { w with under := w.under.eraseIdx place }
    | some ⟨t, p :: rest⟩ =>
      { registry := (w.folded e.1 p).state
        under := w.under.set place ⟨t.count p.verdict (w.folded e.1 p).answer, rest⟩ }

/-- What is told of an event. -/
def tells (w : Rounds) (e : Instant × Event) : List Notice :=
  match e.2 with
  | .change c => (c.run e.1 w.registry).2
  | .begin _ => []
  | .turn place =>
    match w.under[place]? with
    | none => []
    | some ⟨t, []⟩ => [.passCompleted t.checked t.healthy t.unhealthy t.evicted]
    | some ⟨_, p :: _⟩ =>
      (w.folded e.1 p).notices ++ Health.remarks p.copy p.verdict (w.folded e.1 p).answer

def run (w : Rounds) (es : List (Instant × Event)) : Rounds := es.foldl step w

@[simp] theorem run_nil (w : Rounds) : w.run [] = w := rfl

@[simp] theorem run_cons (w : Rounds) (e : Instant × Event) (es : List (Instant × Event)) :
    w.run (e :: es) = (w.step e).run es := rfl

/-- All that is told in a run. -/
def told (w : Rounds) (es : List (Instant × Event)) : List Notice := observed step tells w es

/-- What is heard of a change or of a result. -/
def echo? (w : Rounds) (e : Instant × Event) : Option Echo :=
  match e.2 with
  | .change c => some (c.echo e.1 w.registry)
  | .begin _ => none
  | .turn place =>
    match w.under[place]? with
    | some ⟨_, p :: _⟩ => some (.folded (w.folded e.1 p).answer)
    | _ => none

/-! ### A pass without interruption -/

/-- The turns of one pass at one moment, with nothing between them, are a pass that settles. -/
theorem run_turns {w : Rounds} {place : Nat} {t : Report} {found : List Probed}
    (h : w.under[place]? = some ⟨t, found⟩) (now : Instant) :
    let turns := List.replicate (found.length + 1) (now, Event.turn place)
    let o := Health.absorb now w.registry t found
    (w.run turns).registry = o.state ∧ w.told turns = o.notices ++
      [.passCompleted o.answer.checked o.answer.healthy o.answer.unhealthy o.answer.evicted] := by
  induction found generalizing w t with
  | nil => simp [told, observed, step, tells, h, Health.absorb]
  | cons p rest ih =>
    have hregistry : (w.step (now, .turn place)).registry = (w.folded now p).state := by
      simp only [step, h]
    have htells : w.tells (now, .turn place) = (w.folded now p).notices ++
        Health.remarks p.copy p.verdict (w.folded now p).answer := by
      simp only [tells, h]
    have hnext : (w.step (now, .turn place)).under[place]? =
        some ⟨t.count p.verdict (w.folded now p).answer, rest⟩ := by
      simp only [step, h]
      exact List.getElem?_set_self (List.getElem?_eq_some_iff.1 h).1
    obtain ⟨hstate, htold⟩ := ih hnext
    rw [hregistry] at hstate htold
    refine ⟨hstate, ?_⟩
    have hcons : w.told (List.replicate (rest.length + 2) (now, .turn place)) =
        w.tells (now, .turn place) ++
          (w.step (now, .turn place)).told (List.replicate (rest.length + 1) (now, .turn place)) :=
      rfl
    rw [List.length_cons, hcons, htells, htold, ← List.append_assoc]
    rfl

/-- A pass that nothing comes between. -/
theorem run_pass (w : Rounds) (now : Instant) (verdict : Instance → Verdict) :
    let found := Health.results verdict w.registry.list.values
    let pass := (now, Event.begin verdict) ::
      List.replicate (found.length + 1) (now, .turn w.under.length)
    (w.run pass).registry = (Health.settle now w.registry found).state ∧
      w.told pass = (Health.settle now w.registry found).notices := by
  have hbegun : (w.step (now, .begin verdict)).under[w.under.length]? =
      some ⟨{}, Health.results verdict w.registry.list.values⟩ := List.getElem?_concat_length
  exact run_turns hbegun now

/-! ### What the notices tell -/

theorem others_remarks (i : Instance) (v : Verdict) (a : Folded) :
    Notice.Others (Health.remarks i v a) := by
  cases a <;> cases v <;> simp [Health.remarks, Notice.Others, Notice.isEntry]

theorem replays_step (w : Rounds) (e : Instant × Event) :
    Notice.Replays w.registry.ids (w.tells e) (w.step e).registry.ids := by
  obtain ⟨now, e⟩ := e
  cases e with
  | change c => exact Registry.replays_change c
  | begin verdict => exact .nil _
  | turn place =>
    simp only [tells, step]
    split
    · exact .nil _
    · exact .of_others (by simp [Notice.Others, Notice.isEntry]) _
    · rename_i p rest _
      exact (Registry.replays_foldProbed p.copy _).append
        (.of_others (others_remarks p.copy p.verdict _) _)

theorem replays_run (w : Rounds) (es : List (Instant × Event)) :
    Notice.Replays w.registry.ids (w.told es) (w.run es).registry.ids := by
  induction es generalizing w with
  | nil => exact .nil _
  | cons e rest ih => exact (w.replays_step e).append (ih _)

/-- What is refused or ignored, and what changes nothing anyway, tells of no entry. -/
theorem others_of_idle {w : Rounds} {e : Instant × Event}
    (h : (w.echo? e).all Echo.isIdle = true) : Notice.Others (w.tells e) := by
  obtain ⟨now, e⟩ := e
  cases e with
  | change c => exact Registry.others_of_idle h
  | begin verdict => exact Notice.others_nil
  | turn place =>
    simp only [tells, echo?] at h ⊢
    split at h
    · rename_i t p rest hround
      have hresult : Notice.Others (w.folded now p).notices :=
        Registry.others_of_idle (c := .foldProbed p.copy p.verdict.isHealthy) h
      simp only [hround]
      exact hresult.append (others_remarks p.copy p.verdict _)
    · rename_i hround
      split
      · exact Notice.others_nil
      · simp [Notice.Others, Notice.isEntry]
      · rename_i p rest heq
        exact absurd heq (hround _ p rest)

end Rounds

end Switchyard
