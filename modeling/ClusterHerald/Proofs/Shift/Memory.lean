import ClusterHerald.Proofs.Queue.Failures
import ClusterHerald.Proofs.Shift.Steady

/-!
# What a queue remembers of failures

A queue that remembered failures for ever would grow, and would give up later changes of a key too
early.  But the worker tells its queue of every failure while it has the key in hand: then a retry
is scheduled, or the key is forgotten.  A newer change drops the retry, and then that change is
pending; a retry that comes back drops itself, and then its change is.

* `Shift.Mindful.step` : a key with failures waits, or the worker is about to tell of it;
* `Shift.failures_remembered_only_while_awaited` : what the queue remembers of failures.
-/

namespace ClusterHerald

open Queue

universe u

namespace Shift

variable {f : Shift} {s : State} {a : Action.{u}}

/-- While the queue is open it remembers failures only of keys that it comes back to, and keeps the
generations of retries that are still to come back. -/
structure Mindful (s : State) : Prop where
  steady : Steady s
  live : s.system.Live
  awaited : ∀ key, s.system.queue.failures.has key = true →
    s.system.Waits key ∨ s.stage.key? = some key ∧ 1 < s.stage.left

theorem mindful_start : Mindful start :=
  ⟨steady_start, System.live_start, nofun⟩

/-- Nothing that the queue is told makes it forgetful: the worker has the key in hand that is handed
out, and tells of the failures of a key before it lets go of it. -/
theorem Mindful.of_command (h : Mindful s) (hsteady : Steady (f.step s a))
    {b : Queue.Action (Numbered Change)} (hb : s.command? a = some b)
    (hworks : ∀ key, ((f.step s a).stage.key? = some key ∧ 1 < (f.step s a).stage.left) ∨
      (s.system.hands b).map Prod.fst ≠ some key ∧
        (s.stage.key? = some key → 1 < s.stage.left →
          (∃ x, b = .retry key x) ∨ b = .forget key)) : Mindful (f.step s a) where
  steady := hsteady
  live := by
    rw [system_step_of_command hb]
    exact System.live_step h.live h.steady.isOpen b
  awaited key hf := by
    refine (hworks key).symm.imp_left fun ⟨hh, htells⟩ => ?_
    rw [system_step_of_command hb] at hf ⊢
    refine System.waits_step_of_failures h.steady.isOpen (fun hbefore => ?_) hh hf
    exact (h.awaited key hbefore).imp_right fun ⟨hk, hleft⟩ => htells hk hleft

/-- What the queue is not told of changes nothing, if the worker keeps its key. -/
theorem Mindful.of_silence (h : Mindful s) (hsteady : Steady (f.step s a))
    (hb : s.command? a = none) (hkey : (f.step s a).stage.key? = s.stage.key?)
    (hleft : 1 < s.stage.left → 1 < (f.step s a).stage.left) : Mindful (f.step s a) where
  steady := hsteady
  live := by
    rw [system_step_of_none hb]
    exact h.live
  awaited key hf := by
    rw [system_step_of_none hb] at hf ⊢
    rw [hkey]
    exact (h.awaited key hf).imp_right (.imp_right hleft)

theorem Mindful.step (h : Mindful s) (ha : a ≠ .close) : Mindful (f.step s a) := by
  have hsteady : Steady (f.step s a) := h.steady.step ha
  -- what is said of a key that the worker keeps
  have keeps {b : Queue.Action (Numbered Change)} (hstage : (f.step s a).stage = s.stage)
      (hh : s.system.hands b = none) (key : String) :
      ((f.step s a).stage.key? = some key ∧ 1 < (f.step s a).stage.left) ∨
        (s.system.hands b).map Prod.fst ≠ some key ∧
          (s.stage.key? = some key → 1 < s.stage.left →
            (∃ x, b = .retry key x) ∨ b = .forget key) := by
    by_cases hworks : s.stage.key? = some key ∧ 1 < s.stage.left
    · exact .inl (by rwa [hstage])
    · exact .inr ⟨by simp [hh], fun hk hleft => absurd ⟨hk, hleft⟩ hworks⟩
  cases turn f s a with
  | stays stage attempts others =>
    cases hb : s.command? a with
    | none => exact h.of_silence hsteady hb (by rw [stage]) (by rw [stage]; exact id)
    | some b =>
      obtain ⟨k, x, rfl⟩ | ⟨place, rfl⟩ | ⟨hclose, -⟩ := others b hb
      · exact h.of_command hsteady hb (keeps stage rfl)
      · exact h.of_command hsteady hb (keeps stage rfl)
      · exact absurd hclose ha
  | takes before command after attempts =>
    refine h.of_command hsteady command fun key => ?_
    by_cases hh : (s.system.hands .get).map Prod.fst = some key
    · obtain ⟨item, hitem, rfl⟩ := Option.map_eq_some_iff.1 hh
      exact .inl (by simp [after, hitem, Stage.key?, Stage.left])
    · exact .inr ⟨hh, fun hk => by simp [before, Stage.key?] at hk⟩
  | processes attempt before command after attempts =>
    refine h.of_silence hsteady command (by rw [before, after]; rfl) fun _ => ?_
    rw [after]
    exact Nat.lt_succ_self 1
  | reports k x failed action before command after attempts =>
    have hkey {key : String} (hk : s.stage.key? = some key) : k = key := by
      simpa [before, Stage.key?] using hk
    obtain ⟨he, -⟩ | he := ending_cases s k x failed <;> rw [he] at command
    · exact h.of_command hsteady command
        fun key => .inr ⟨by simp [System.hands], fun hk _ => .inl ⟨x, by rw [hkey hk]⟩⟩
    · exact h.of_command hsteady command
        fun key => .inr ⟨by simp [System.hands], fun hk _ => .inr (by rw [hkey hk])⟩
  | finishes k before command after attempts =>
    refine h.of_command hsteady command fun key =>
      .inr ⟨by simp [System.hands], fun _ hleft => ?_⟩
    rw [before] at hleft
    exact absurd hleft (Nat.lt_irrefl 1)

theorem Mindful.run (h : Mindful s) {actions : List Action.{u}} (ha : ∀ a ∈ actions, a ≠ .close) :
    Mindful (f.run s actions) := by
  induction actions generalizing s with
  | nil => exact h
  | cons a actions ih =>
    exact ih (h.step (ha a List.mem_cons_self)) fun b hb => ha b (List.mem_cons_of_mem a hb)

/-- **Failures are remembered only while they are awaited.**  Before the queue is closed, whatever
happens to a worker and its queue, and whatever look-ups answer:

* a key has a count of failures only while it has a pending payload, is in hand, or has a retry that
  is still to come back and whose generation is the one that is kept;
* every generation that is kept is that of such a retry;
* so when nothing is pending, nothing is in hand and no retry that is still to come back is the
  current one, the queue remembers neither failures nor retries. -/
theorem failures_remembered_only_while_awaited (f : Shift) {actions : List Action.{u}}
    (ha : ∀ a ∈ actions, a ≠ .close) :
    let s := (f.run start actions).system
    (∀ key, s.queue.failures.has key = true →
      s.queue.pending.has key = true ∨ s.queue.inHand.contains key = true ∨
        ∃ r ∈ s.retries, r.key = key ∧ s.queue.scheduled.get? key = some r.generation) ∧
    (∀ key generation, s.queue.scheduled.get? key = some generation →
      ∃ r ∈ s.retries, r.key = key ∧ r.generation = generation) ∧
    (s.queue.pending = .empty → s.queue.inHand = .empty →
      (∀ r ∈ s.retries, s.queue.scheduled.get? r.key ≠ some r.generation) →
      s.queue.failures = .empty ∧ s.queue.scheduled = .empty) := by
  intro s
  have h : Mindful (f.run start actions) := mindful_start.run ha
  have hawaited : ∀ key, s.queue.failures.has key = true →
      s.queue.pending.has key = true ∨ s.queue.inHand.contains key = true ∨
        ∃ r ∈ s.retries, r.key = key ∧ s.queue.scheduled.get? key = some r.generation := by
    intro key hf
    obtain (hp | hs) | ⟨hk, -⟩ := h.awaited key hf
    · exact .inl hp
    · obtain ⟨generation, hg⟩ := Table.has_iff.1 hs
      obtain ⟨r, hr, hkey, rfl⟩ := h.live key generation hg
      exact .inr (.inr ⟨r, hr, hkey, hg⟩)
    · exact .inr (.inl ((h.steady.inHand key).2 hk))
  refine ⟨hawaited, h.live, fun hp hin hr => ⟨?_, ?_⟩⟩
  · refine Table.ext_get? fun key => Table.has_eq_false_iff.1 (eq_false_of_ne_true fun hf => ?_)
    obtain hpending | hhand | ⟨r, hmem, rfl, hg⟩ := hawaited key hf
    · rw [hp] at hpending
      cases hpending
    · rw [hin] at hhand
      cases hhand
    · exact hr r hmem hg
  · refine Table.ext_get? fun key => Option.eq_none_iff_forall_ne_some.2 fun generation hg => ?_
    obtain ⟨r, hmem, rfl, rfl⟩ := h.live key generation hg
    exact hr r hmem hg

/-- A change that is added while the one before is scheduled drops the retry, which may still come
back, but not the count; when its attempt succeeds, nothing is remembered. -/
theorem count_outlives_retry :
    let f : Shift := ⟨⟨⟨"Pod", "", "v1", "pods", true, none, .empty⟩, default, []⟩, .standard⟩
    let c : Change := ⟨"a/x", .update, "Pod", "v1", none, none, none⟩
    let world (found : Except LookupError (Option Object)) : World Unit :=
      ⟨fun _ s => (found, s), fun s => (⟨"", ""⟩, s), fun _ s => (none, s)⟩
    let failing : List Action.{0} := [.add "a/x" c, .take,
      .process (world (.error (.unavailable "a/x"))) (), .report, .finish, .add "a/x" c]
    let actions : List Action.{0} :=
      failing ++ [.take, .process (world (.ok none)) (), .report, .finish]
    let s := (f.run start failing).system
    let t := (f.run start actions).system
    (∀ a ∈ actions, a ≠ .close) ∧
      s.queue.failures.has "a/x" = true ∧ s.queue.scheduled.has "a/x" = false ∧
      t.retries.length = 1 ∧ t.queue.failures = .empty ∧ t.queue.scheduled = .empty := by
  intro f c world failing actions s t
  have ha : ∀ a ∈ actions, a ≠ .close := by simp [actions, failing]
  have hlength : t.retries.length = 1 := by decide +kernel
  have hcurrent : ∀ r ∈ t.retries, t.queue.scheduled.get? r.key ≠ some r.generation := by
    decide +kernel
  have hpending : t.queue.pending = .empty := Table.eq_empty_of_isEmpty (by decide +kernel)
  have hinHand : t.queue.inHand = .empty := Table.eq_empty_of_isEmpty (by decide +kernel)
  exact ⟨ha, by decide +kernel, by decide +kernel, hlength,
    (failures_remembered_only_while_awaited f ha).2.2 hpending hinHand hcurrent⟩

end Shift

end ClusterHerald
