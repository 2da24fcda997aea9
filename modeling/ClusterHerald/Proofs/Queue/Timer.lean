import ClusterHerald.Proofs.Queue.Scheduled

/-!
# The life of one retry

The queue does not keep the history of a key; it only keeps the generation of its latest retry.
That is enough: a retry that falls due finds its own generation exactly if nothing has ended it
since it was scheduled (`System.current_run_iff`).  A newer payload ends it, and so do forgetting
the key, another retry of the key and closing the queue (`Action.Ends`).

Generations are given out in increasing order (`System.InTurn`), so a retry is told from all others
by its generation, and once it has fallen due it is gone.

* `System.current_step_iff` : what one action does to the generation of a retry;
* `System.retry_returns_iff_not_ended` : what a retry does when it falls due, by the history of its
  key.
-/

namespace ClusterHerald

universe u

namespace Queue

variable {α : Type u}

/-- Actions after which a retry of the key that was scheduled before does not come back. -/
def Action.Ends (key : String) : Action α → Prop
  | .add k _ | .forget k | .retry k _ => k = key
  | .close => True
  | .get | .done _ | .fire _ => False

instance (key : String) : DecidablePred (Action.Ends (α := α) key)
  | .add _ _ | .forget _ | .retry _ _ => inferInstanceAs (Decidable (_ = _))
  | .close => isTrue trivial
  | .get | .done _ | .fire _ => isFalse id

/-- The payload becomes pending for a key that had none pending, and the key joins the line unless
it is in hand. -/
structure Inserts (q q' : Queue α) (key : String) (payload : α) : Prop where
  vacant : q.pending.get? key = none
  pending : q'.pending = q.pending.insert key payload
  ready : q'.ready = if q.inHand.contains key then q.ready else q.ready ++ [key]
  inHand : q'.inHand = q.inHand
  failures : q'.failures = q.failures

/-- The line, the pending payloads, the keys in hand and the failures stay as they are. -/
structure Keeps (q q' : Queue α) : Prop where
  ready : q'.ready = q.ready
  pending : q'.pending = q.pending
  inHand : q'.inHand = q.inHand
  failures : q'.failures = q.failures

theorem Inserts.not_keeps {q q' : Queue α} {key : String} {payload : α}
    (h : Inserts q q' key payload) : ¬ Keeps q q' := by
  intro hk
  have hp := hk.pending.symm.trans h.pending
  have hnone := h.vacant
  rw [hp, Table.get?_insert_self] at hnone
  cases hnone

/-- A retry that falls due inserts its payload exactly if the queue is open, its generation is the
one that is kept, and nothing is pending for the key; else it leaves the queue alone. -/
theorem fire_inserts_or_keeps (q : Queue α) (key : String) (payload : α) (generation : Nat) :
    q.closed = false ∧ q.scheduled.get? key = some generation ∧ q.pending.get? key = none ∧
        Inserts q (q.fire key payload generation) key payload ∨
      ¬ (q.closed = false ∧ q.scheduled.get? key = some generation ∧
          q.pending.get? key = none) ∧
        Keeps q (q.fire key payload generation) := by
  obtain ⟨he, hstale⟩ | ⟨hc, hg, ⟨hp, he⟩ | ⟨hp, he⟩⟩ := fire_cases q key payload generation
  · refine .inr ⟨?_, by rw [he]; exact ⟨rfl, rfl, rfl, rfl⟩⟩
    rintro ⟨hc, hg, -⟩
    rcases hstale with hclosed | hother
    · rw [hc] at hclosed
      cases hclosed
    · exact hother hg
  · refine .inr ⟨?_, by rw [he]; exact ⟨rfl, rfl, rfl, rfl⟩⟩
    rintro ⟨-, -, hnone⟩
    rw [Table.has_eq_false_iff.2 hnone] at hp
    cases hp
  · have hnone := Table.has_eq_false_iff.1 hp
    exact .inl ⟨hc, hg, hnone, by rw [he]; exact ⟨hnone, rfl, rfl, rfl, rfl⟩⟩

namespace System

variable {backoff : Backoff} {s : System α} {r timer : Retry α} {place : Nat}

/-! ### Generations -/

/-- Retries have increasing generations, which were all given out. -/
structure InTurn (s : System α) : Prop where
  dated : s.Dated
  increasing : s.retries.Pairwise fun r r' => r.generation < r'.generation

theorem inTurn_start : (start : System α).InTurn := ⟨dated_start, .nil⟩

theorem inTurn_step (h : s.InTurn) (a : Action α) : (s.step backoff a).InTurn := by
  refine ⟨dated_step h.dated a, ?_⟩
  obtain ⟨hr, -⟩ | ⟨key, payload, -, -, hr, -⟩ | ⟨place, r, -, -, hr, -⟩ :=
    retries_step_cases backoff s a
  · rw [hr]
    exact h.increasing
  · rw [hr, List.pairwise_append]
    refine ⟨h.increasing, List.pairwise_singleton _ _, fun r hmem r' hr' => ?_⟩
    rw [List.mem_singleton.1 hr']
    exact Nat.lt_succ_of_le (h.dated r hmem)
  · rw [hr]
    exact h.increasing.sublist (List.eraseIdx_sublist _ _)

theorem inTurn_run (h : s.InTurn) (actions : List (Action α)) :
    (s.run backoff actions).InTurn := by
  induction actions generalizing s with
  | nil => exact h
  | cons a actions ih => exact ih (inTurn_step h a)

/-- What is left of the retries has other generations than the one that falls due. -/
theorem InTurn.generation_ne (h : s.InTurn) (hr : s.retries[place]? = some r)
    (ht : timer ∈ s.retries.eraseIdx place) : timer.generation ≠ r.generation := by
  obtain ⟨hlt, rfl⟩ := List.getElem?_eq_some_iff.1 hr
  have hsplit :
      s.retries = s.retries.take place ++ s.retries[place] :: s.retries.drop (place + 1) :=
    by rw [← List.drop_eq_getElem_cons hlt, List.take_append_drop]
  have hinc := h.increasing
  rw [hsplit, List.pairwise_append, List.pairwise_cons] at hinc
  rw [List.eraseIdx_eq_take_drop_succ, List.mem_append] at ht
  rcases ht with ht | ht
  · exact Nat.ne_of_lt (hinc.2.2 timer ht _ List.mem_cons_self)
  · exact (Nat.ne_of_lt (hinc.2.1.1 timer ht)).symm

theorem lastGeneration_le_step (backoff : Backoff) (s : System α) (a : Action α) :
    s.queue.lastGeneration ≤ (s.step backoff a).queue.lastGeneration := by
  obtain ⟨-, hl⟩ | ⟨-, -, -, -, -, hl⟩ | ⟨-, -, -, -, -, hl⟩ := retries_step_cases backoff s a
  · exact Nat.le_of_eq hl.symm
  · rw [hl]
    exact Nat.le_succ _
  · exact Nat.le_of_eq hl.symm

theorem lastGeneration_le_run (backoff : Backoff) (s : System α) (actions : List (Action α)) :
    s.queue.lastGeneration ≤ (s.run backoff actions).queue.lastGeneration := by
  induction actions generalizing s with
  | nil => exact Nat.le_refl _
  | cons a actions ih =>
    exact Nat.le_trans (lastGeneration_le_step backoff s a) (ih (s.step backoff a))

/-- A generation that was given out is not given out again. -/
theorem mem_retries_of_step {a : Action α} (hg : r.generation ≤ s.queue.lastGeneration)
    (hr : r ∈ (s.step backoff a).retries) : r ∈ s.retries := by
  obtain ⟨he, -⟩ | ⟨key, payload, -, -, he, -⟩ | ⟨place, r', -, -, he, -⟩ :=
    retries_step_cases backoff s a
  · exact he ▸ hr
  · rw [he, List.mem_append, List.mem_singleton] at hr
    rcases hr with hr | rfl
    · exact hr
    · exact absurd hg (Nat.not_succ_le_self _)
  · exact List.mem_of_mem_eraseIdx (he ▸ hr)

theorem mem_retries_of_run {actions : List (Action α)}
    (hg : r.generation ≤ s.queue.lastGeneration) (hr : r ∈ (s.run backoff actions).retries) :
    r ∈ s.retries := by
  induction actions generalizing s with
  | nil => exact hr
  | cons a actions ih =>
    exact mem_retries_of_step hg (ih (Nat.le_trans hg (lastGeneration_le_step backoff s a)) hr)

/-- A retry stays among those that are still to come back until it falls due. -/
theorem mem_retries_step_or_fired (backoff : Backoff) (ht : timer ∈ s.retries) (a : Action α) :
    timer ∈ (s.step backoff a).retries ∨
      ∃ place, a = .fire place ∧ s.retries[place]? = some timer := by
  obtain ⟨he, -⟩ | ⟨key, payload, -, -, he, -⟩ | ⟨place, r, rfl, hr, he, -⟩ :=
    retries_step_cases backoff s a
  · exact .inl (he ▸ ht)
  · exact .inl (he ▸ List.mem_append_left _ ht)
  · obtain ⟨hlt, rfl⟩ := List.getElem?_eq_some_iff.1 hr
    by_cases hk : timer = s.retries[place]
    · exact .inr ⟨place, rfl, hk ▸ hr⟩
    · left
      obtain ⟨i, hi, rfl⟩ := List.mem_iff_getElem.1 ht
      rw [he, List.mem_eraseIdx_iff_getElem]
      exact ⟨i, hi, fun h => hk (by subst h; rfl), rfl⟩

theorem mem_retries_run_or_fired (backoff : Backoff) (ht : timer ∈ s.retries)
    (later : List (Action α)) :
    timer ∈ (s.run backoff later).retries ∨
      ∃ mid after place, later = mid ++ .fire place :: after ∧
        (s.run backoff mid).retries[place]? = some timer := by
  induction later generalizing s with
  | nil => exact .inl ht
  | cons a later ih =>
    rcases mem_retries_step_or_fired backoff ht a with ht' | ⟨place, rfl, hr⟩
    · refine (ih ht').imp_right ?_
      rintro ⟨mid, after, place, rfl, hr⟩
      exact ⟨a :: mid, after, place, rfl, hr⟩
    · exact .inr ⟨[], later, place, rfl, hr⟩

/-- No retry that is still to come back, then or later, has the generation of one that has fallen
due. -/
theorem InTurn.generation_ne_run (h : s.InTurn) (hr : s.retries[place]? = some timer)
    {more : List (Action α)} (hr' : r ∈ ((s.step backoff (.fire place)).run backoff more).retries) :
    r.generation ≠ timer.generation := by
  intro hg
  have hdated := h.dated timer (List.mem_of_getElem? hr)
  rw [← hg] at hdated
  have hstep := mem_retries_of_run
    (Nat.le_trans hdated (lastGeneration_le_step backoff s _)) hr'
  have hrest : r ∈ s.retries.eraseIdx place := by simpa only [step, hr] using hstep
  exact h.generation_ne hr hrest hg

/-! ### Whether a retry is the current one -/

/-- The queue is open and keeps the generation for the key. -/
def Current (s : System α) (key : String) (generation : Nat) : Prop :=
  s.queue.closed = false ∧ s.queue.scheduled.get? key = some generation

/-- A retry that is still to come back is the current one after an action exactly if it was before
and the action does not end it. -/
theorem current_step_iff (h : s.InTurn) (ht : timer ∈ s.retries) {a : Action α}
    (ht' : timer ∈ (s.step backoff a).retries) :
    (s.step backoff a).Current timer.key timer.generation ↔
      s.Current timer.key timer.generation ∧ ¬ a.Ends timer.key := by
  cases a with
  | add key payload =>
    cases hc : s.queue.closed with
    | true => simp [Current, step, add_of_closed hc, hc]
    | false =>
      by_cases hk : key = timer.key <;>
        simp [Current, step, add_of_open hc, hc, Action.Ends, Table.get?_erase, hk]
  | get =>
    rw [show (Action.get : Action α).Ends timer.key = False from rfl, not_false_eq_true, and_true]
    cases hg : s.queue.get.1.item? with
    | none => rw [Current, step, get_eq_none hg, Current]
    | some item =>
      obtain ⟨-, -, rest, hq⟩ := get_eq_item hg
      rw [Current, step, hq, Current]
  | done key => simp [Current, step, done, Action.Ends]
  | forget key =>
    by_cases hk : key = timer.key <;>
      simp [Current, step, forget, Action.Ends, Table.get?_erase, hk]
  | retry key payload =>
    cases hc : s.queue.closed with
    | true => simp [Current, step, retry_of_closed hc, hc]
    | false =>
      -- the generation of the new retry is not that of an older one
      have hg : s.queue.lastGeneration + 1 ≠ timer.generation :=
        (Nat.ne_of_lt (Nat.lt_succ_of_le (h.dated timer ht))).symm
      by_cases hk : key = timer.key <;>
        simp [Current, step, retry_of_open hc, hc, Action.Ends, Table.get?_insert, hk, hg]
  | fire place =>
    rw [show (Action.fire place : Action α).Ends timer.key = False from rfl, not_false_eq_true,
      and_true]
    cases hr : s.retries[place]? with
    | none => simp only [Current, step, hr]
    | some r =>
      simp only [step, hr] at ht' ⊢
      have hne := h.generation_ne hr ht'
      obtain ⟨he, -⟩ | ⟨hc, hg, hfire⟩ := fire_cases s.queue r.key r.payload r.generation
      · rw [Current, he, Current]
      · -- the retry that falls due is the current one of its own key
        have he : (s.queue.fire r.key r.payload r.generation).scheduled =
              s.queue.scheduled.erase r.key ∧
            (s.queue.fire r.key r.payload r.generation).closed = s.queue.closed := by
          obtain ⟨-, he⟩ | ⟨-, he⟩ := hfire <;> rw [he] <;> exact ⟨rfl, rfl⟩
        rw [Current, Current, he.1, he.2, Table.get?_erase]
        refine and_congr_right fun _ => ?_
        by_cases hk : r.key = timer.key
        · rw [if_pos hk, ← hk, hg, Option.some.injEq]
          exact iff_of_false (by simp) hne.symm
        · rw [if_neg hk]
  | close => simp [Current, step, close, Action.Ends]

/-- It is the current one after a run exactly if it was before and nothing has ended it. -/
theorem current_run_iff (h : s.InTurn) {later : List (Action α)}
    (ht : timer ∈ (s.run backoff later).retries) (hs : timer ∈ s.retries) :
    (s.run backoff later).Current timer.key timer.generation ↔
      s.Current timer.key timer.generation ∧ ∀ a ∈ later, ¬ a.Ends timer.key := by
  induction later generalizing s with
  | nil => simp
  | cons a later ih =>
    have hmid : timer ∈ (s.step backoff a).retries :=
      mem_retries_of_run (Nat.le_trans (h.dated timer hs) (lastGeneration_le_step backoff s a)) ht
    rw [run_cons, ih (inTurn_step h a) ht hmid, current_step_iff h hs hmid, and_assoc,
      List.forall_mem_cons]

/-- **A retry returns exactly if nothing has ended it.**  A failure that an open queue is told of
schedules one retry, and this is still to come back until it falls due, whatever happens meanwhile.
When it falls due its payload is inserted, exactly if no action since has ended it and no payload
of the key is pending; otherwise the line, the pending payloads, the keys in hand and the failures
stay as they are.  It does not fall due a second time. -/
theorem retry_returns_iff_not_ended {before : List (Action α)} (hb : ∀ a ∈ before, a ≠ .close)
    (key : String) (payload : α) (later : List (Action α)) :
    let called := (start : System α).run backoff before
    let timer : Retry α := ⟨key, payload, called.queue.lastGeneration + 1⟩
    let scheduled := called.step backoff (.retry key payload)
    let s := scheduled.run backoff later
    scheduled.retries = called.retries ++ [timer] ∧
    (∀ r ∈ called.retries, r.generation < timer.generation) ∧
    (timer ∈ s.retries ∨ ∃ mid after place, later = mid ++ .fire place :: after ∧
      (scheduled.run backoff mid).retries[place]? = some timer) ∧
    ∀ place, s.retries[place]? = some timer →
      let due := s.step backoff (.fire place)
      (Inserts s.queue due.queue key payload ↔
        (∀ a ∈ later, ¬ a.Ends key) ∧ s.queue.pending.get? key = none) ∧
      (¬ Inserts s.queue due.queue key payload → Keeps s.queue due.queue) ∧
      ∀ more, ∀ r ∈ (due.run backoff more).retries, r.generation ≠ timer.generation := by
  intro called timer scheduled s
  have hcalled : called.InTurn := inTurn_run inTurn_start before
  have hopen : called.queue.closed = false := run_closed hb
  have hretries : scheduled.retries = called.retries ++ [timer] := by
    simp only [scheduled, step, retry_of_open hopen, timer]
  have hmem : timer ∈ scheduled.retries := by simp [hretries]
  have hcurrent : scheduled.Current timer.key timer.generation := by
    simp [scheduled, Current, step, retry_of_open hopen, hopen, timer]
  have hscheduled : scheduled.InTurn := inTurn_step hcalled _
  refine ⟨hretries, fun r hr => Nat.lt_succ_of_le (hcalled.dated r hr),
    mem_retries_run_or_fired backoff hmem later, fun place hplace => ?_⟩
  have hiff : s.Current timer.key timer.generation ↔ ∀ a ∈ later, ¬ a.Ends key :=
    (current_run_iff hscheduled (List.mem_of_getElem? hplace) hmem).trans (and_iff_right hcurrent)
  have hdue : (s.step backoff (.fire place)).queue =
      s.queue.fire key payload timer.generation := by
    simp only [step, hplace, timer]
  refine ⟨?_, ?_, fun more r hr => (inTurn_run hscheduled later).generation_ne_run hplace hr⟩
  · rw [hdue, ← hiff]
    obtain ⟨hc, hg, hp, hins⟩ | ⟨hnot, hkeeps⟩ :=
      fire_inserts_or_keeps s.queue key payload timer.generation
    · exact iff_of_true hins ⟨⟨hc, hg⟩, hp⟩
    · refine iff_of_false (fun hins => hins.not_keeps hkeeps) ?_
      rintro ⟨⟨hc, hg⟩, hp⟩
      exact hnot ⟨hc, hg, hp⟩
  · rw [hdue]
    obtain ⟨-, -, -, hins⟩ | ⟨-, hkeeps⟩ :=
      fire_inserts_or_keeps s.queue key payload timer.generation
    · exact fun hnot => absurd hins hnot
    · exact fun _ => hkeeps

/-- A retry that was forgotten falls due and does nothing; the next one of the key, for the same
payload, returns while other keys go on, though its own key is in hand. -/
theorem second_retry_returns :
    let before : List (Action Nat) := [.add "a" 1, .get, .retry "a" 1, .forget "a"]
    let later : List (Action Nat) := [.fire 0, .add "b" 2, .get, .done "b"]
    let s := ((start.run .standard before).step .standard (.retry "a" 1)).run .standard later
    (∀ a ∈ before, a ≠ .close) ∧ (∀ a ∈ later, ¬ a.Ends "a") ∧
      s.retries[0]? = some ⟨"a", 1, 2⟩ ∧ s.queue.inHand.contains "a" = true ∧
      Inserts s.queue (s.step .standard (.fire 0)).queue "a" 1 := by
  intro before later s
  have hb : ∀ a ∈ before, a ≠ .close := by simp [before]
  have hl : ∀ a ∈ later, ¬ a.Ends "a" := by decide
  have hplace : s.retries[0]? = some ⟨"a", 1, 2⟩ := rfl
  have hvacant : s.queue.pending.get? "a" = none := by rfl
  obtain ⟨hiff, -⟩ := (retry_returns_iff_not_ended hb "a" 1 later).2.2.2 0 hplace
  exact ⟨hb, hl, hplace, by rfl, hiff.2 ⟨hl, hvacant⟩⟩

end System

end Queue

end ClusterHerald
