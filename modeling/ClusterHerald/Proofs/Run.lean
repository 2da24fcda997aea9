/-!
# Runs under a rule

A run of a system that steps from state to state is a fold of its steps over a list of actions.
A rule says which actions are permitted in a state; `Obeys` says that a run keeps to it, and
`Obeys.foldl` that what every permitted action keeps holds after every such run.
-/

namespace ClusterHerald

universe u v

variable {σ : Type u} {ι : Type v} {step : σ → ι → σ} {permitted : σ → ι → Prop} {s : σ}

/-- Every action of the run is permitted in the state in which it happens. -/
def Obeys (step : σ → ι → σ) (permitted : σ → ι → Prop) (s : σ) : List ι → Prop
  | [] => True
  | a :: actions => permitted s a ∧ Obeys step permitted (step s a) actions

instance decidableObeys [∀ s a, Decidable (permitted s a)] :
    ∀ (s : σ) (actions : List ι), Decidable (Obeys step permitted s actions)
  | _, [] => isTrue trivial
  | s, a :: actions =>
    have := decidableObeys (step s a) actions
    inferInstanceAs (Decidable (permitted s a ∧ Obeys step permitted (step s a) actions))

namespace Obeys

theorem append_iff {before after : List ι} :
    Obeys step permitted s (before ++ after) ↔
      Obeys step permitted s before ∧ Obeys step permitted (before.foldl step s) after := by
  induction before generalizing s with
  | nil => simp [Obeys]
  | cons a before ih => simp [Obeys, ih, and_assoc]

/-- What is permitted in every state may happen at any time. -/
theorem of_forall {actions : List ι} (h : ∀ a ∈ actions, ∀ s, permitted s a) :
    Obeys step permitted s actions := by
  induction actions generalizing s with
  | nil => trivial
  | cons a actions ih =>
    exact ⟨h a List.mem_cons_self s, ih fun b hb => h b (List.mem_cons_of_mem a hb)⟩

/-- What every permitted action keeps holds after every run that keeps to the rule. -/
theorem foldl {actions : List ι} (ha : Obeys step permitted s actions) {motive : σ → Prop}
    (h : motive s) (keep : ∀ s a, motive s → permitted s a → motive (step s a)) :
    motive (actions.foldl step s) := by
  induction actions generalizing s with
  | nil => exact h
  | cons a actions ih => exact ih ha.2 (keep s a h ha.1)

end Obeys

end ClusterHerald
