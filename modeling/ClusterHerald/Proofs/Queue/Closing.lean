import ClusterHerald.Proofs.Queue.Run

/-!
# A closed queue

A closed queue hands out nothing and takes nothing in.  What waits in it stays there.  A key in hand
may still be done with, and the failures and the retry of a key may still be forgotten.

* `System.remains_step`, `System.retries_step_of_closed` : what an action leaves of a closed queue;
* `Remains.trans` : and what two of them leave;
* `System.hands_of_closed` : a closed queue hands out nothing.
-/

namespace ClusterHerald

universe u

namespace Queue

variable {α : Type u} {q q' q'' : Queue α} {settled settled' forgotten forgotten' : String → Prop}

/-- What is left of a closed queue in which some keys were settled and some were forgotten:
everything else is as it was. -/
structure Remains (q q' : Queue α) (settled forgotten : String → Prop) : Prop where
  closed : q'.closed = true
  ready : q'.ready = q.ready
  pending : q'.pending = q.pending
  inHand : ∀ key, q'.inHand.contains key = true ↔ q.inHand.contains key = true ∧ ¬ settled key
  cleared : ∀ key, forgotten key →
    q'.failures.get? key = none ∧ q'.scheduled.get? key = none
  kept : ∀ key, ¬ forgotten key →
    q'.failures.get? key = q.failures.get? key ∧ q'.scheduled.get? key = q.scheduled.get? key

namespace Remains

theorem refl (hc : q.closed = true) (hs : ∀ key, ¬ settled key) (hf : ∀ key, ¬ forgotten key) :
    q.Remains q settled forgotten :=
  ⟨hc, rfl, rfl, fun key => by simp [hs key], fun key h => absurd h (hf key),
    fun _ _ => ⟨rfl, rfl⟩⟩

theorem trans (h : q.Remains q' settled forgotten) (h' : q'.Remains q'' settled' forgotten') :
    q.Remains q'' (fun key => settled key ∨ settled' key)
      (fun key => forgotten key ∨ forgotten' key) where
  closed := h'.closed
  ready := h'.ready.trans h.ready
  pending := h'.pending.trans h.pending
  inHand key := by rw [h'.inHand, h.inHand, not_or, and_assoc]
  cleared key hkey := by
    by_cases hlast : forgotten' key
    · exact h'.cleared key hlast
    · obtain ⟨hfailures, hscheduled⟩ := h'.kept key hlast
      rw [hfailures, hscheduled]
      exact h.cleared key (hkey.resolve_right hlast)
  kept key hkey := by
    obtain ⟨hfirst, hlast⟩ := not_or.1 hkey
    obtain ⟨hfailures, hscheduled⟩ := h'.kept key hlast
    rw [hfailures, hscheduled]
    exact h.kept key hfirst

end Remains

theorem get_of_closed (hc : q.closed = true) : q.get = (.closed, q) := by
  simp [get, hc]

theorem fire_of_closed (hc : q.closed = true) (key : String) (payload : α) (generation : Nat) :
    q.fire key payload generation = q := by
  simp [fire, hc]

namespace System

variable {backoff : Backoff} {s : System α}

/-- What an action leaves of a closed queue. -/
theorem remains_step (backoff : Backoff) (hc : s.queue.closed = true) (a : Action α) :
    s.queue.Remains (s.step backoff a).queue (fun key => .done key = a)
      (fun key => .forget key = a) := by
  cases a with
  | add key payload =>
    rw [step, add_of_closed hc]
    exact .refl hc (by simp) (by simp)
  | get =>
    rw [step, get_of_closed hc]
    exact .refl hc (by simp) (by simp)
  | done k =>
    -- a key that is still pending does not join the line again
    refine ⟨hc, by simp [step, done, hc], rfl, fun key => ?_, by simp, fun _ _ => ⟨rfl, rfl⟩⟩
    simp only [step, done, NameSet.contains_erase, Action.done.injEq, Bool.and_eq_true,
      Bool.not_eq_true', decide_eq_false_iff_not]
    rw [and_comm, @eq_comm _ k]
  | forget k =>
    refine ⟨hc, rfl, rfl, fun key => by simp [step, forget], fun key hk => ?_, fun key hk => ?_⟩
    · cases hk
      simp [step, forget]
    · have hne : k ≠ key := fun h => hk (h ▸ rfl)
      simp [step, forget, Table.get?_erase_ne _ hne]
  | retry key payload =>
    simp only [step, retry_of_closed hc]
    exact .refl hc (by simp) (by simp)
  | fire place =>
    simp only [step]
    split
    · rw [fire_of_closed hc]
      exact .refl hc (by simp) (by simp)
    · exact .refl hc (by simp) (by simp)
  | close =>
    refine ⟨rfl, rfl, rfl, fun key => ?_, by simp, fun _ _ => ⟨rfl, rfl⟩⟩
    simp [step, close]

/-- A closed queue stays closed. -/
theorem closed_step (backoff : Backoff) (hc : s.queue.closed = true) (a : Action α) :
    (s.step backoff a).queue.closed = true :=
  (remains_step backoff hc a).closed

/-- The retries of a closed queue that are still to come back only become fewer. -/
theorem retries_step_of_closed (backoff : Backoff) (hc : s.queue.closed = true) (a : Action α) :
    (s.step backoff a).retries.Sublist s.retries := by
  cases a with
  | retry key payload =>
    simp only [step, retry_of_closed hc]
    exact .refl _
  | fire place =>
    simp only [step]
    split
    · exact List.eraseIdx_sublist _ _
    · exact .refl _
  | _ => exact .refl _

/-- A closed queue hands out nothing. -/
theorem hands_of_closed (hc : s.queue.closed = true) (a : Action α) : s.hands a = none := by
  refine Option.eq_none_iff_forall_ne_some.2 fun item hitem => ?_
  obtain ⟨-, hopen, -⟩ := hands_some hitem
  rw [hc] at hopen
  cases hopen

end System

end Queue

end ClusterHerald
