/-! What a run gives. A run takes events one after another; at each of them something can be
observed, and the observations of a run stand in the order of its events. -/
namespace Switchyard

universe u v w

variable {σ : Type u} {ε : Type v} {α : Type w}

/-- The observations of a run from a state, in the order of its events. -/
def observed (step : σ → ε → σ) (out : σ → ε → List α) (s : σ) : List ε → List α
  | [] => []
  | e :: rest => out s e ++ observed step out (step s e) rest

theorem observed_append (step : σ → ε → σ) (out : σ → ε → List α) (s : σ)
    (before after : List ε) :
    observed step out s (before ++ after) =
      observed step out s before ++ observed step out (before.foldl step s) after := by
  induction before generalizing s with
  | nil => rfl
  | cons e rest ih =>
    rw [List.cons_append, observed, observed, ih, List.append_assoc, List.foldl_cons]

end Switchyard
