import ClusterHerald.Proofs.Queue.Timer

/-!
# Failures and retries of a key

A queue remembers two things of the failures of a key: their number, and the generation of its
scheduled retry.  The number outlives the retry, since a newer payload drops the retry alone.

* `System.failures_step_cases` : only a failure in an open queue is counted, and only forgetting a
  key clears its count;
* `System.scheduled_of_step_generation` : only a failure gives a key a generation;
* `System.Waits.step` : a key with a pending payload or a scheduled retry keeps one of the two until
  it is handed out or forgotten;
* `System.live_step` : while the queue is open, every generation that it keeps is that of a retry
  which is still to come back.
-/

namespace ClusterHerald

universe u

namespace Queue

namespace System

variable {α : Type u} {backoff : Backoff} {s : System α} {key : String}

/-- Only a failure in an open queue is counted, and only forgetting a key clears its count. -/
theorem failures_step_cases (backoff : Backoff) (s : System α) (a : Action α) :
    (s.step backoff a).queue.failures = s.queue.failures ∨
      (∃ key payload, a = .retry key payload ∧ s.queue.closed = false ∧
        (s.step backoff a).queue.failures =
          s.queue.failures.insert key (s.queue.failureCount key + 1)) ∨
      ∃ key, a = .forget key ∧
        (s.step backoff a).queue.failures = s.queue.failures.erase key := by
  cases move backoff s a with
  | fails key payload opened queue => exact .inr (.inl ⟨key, payload, rfl, opened, by rw [queue]⟩)
  | forgets key queue => exact .inr (.inr ⟨key, rfl, rfl⟩)
  | settles key queue => exact .inl rfl
  | closes queue => exact .inl rfl
  | stays _ ready hands queue => exact .inl (by rw [queue])
  | adds key payload opened queue => exact .inl (by rw [queue])
  | takes key payload ready hands queue => exact .inl (by rw [queue])
  | yields place r there current pending queue => exact .inl (by rw [queue])
  | returns place r there current free queue => exact .inl (by rw [queue, push])

/-- A generation is kept from before, or it was given out for a failure. -/
theorem scheduled_of_step_generation {a : Action α} {generation : Nat}
    (h : (s.step backoff a).queue.scheduled.get? key = some generation) :
    s.queue.scheduled.get? key = some generation ∨
      ∃ payload, a = .retry key payload ∧ s.queue.closed = false ∧
        generation = s.queue.lastGeneration + 1 := by
  have of_erase {k : String}
      (h : (s.queue.scheduled.erase k).get? key = some generation) :
      s.queue.scheduled.get? key = some generation := by
    rw [Table.get?_erase] at h
    split at h
    · cases h
    · exact h
  cases move backoff s a with
  | fails k payload opened queue =>
    rw [queue, Table.get?_insert] at h
    split at h
    · next hk => exact .inr ⟨payload, by rw [hk], opened, (Option.some.inj h).symm⟩
    · exact .inl h
  | settles k queue => exact .inl h
  | closes queue => exact .inl h
  | forgets k queue => exact .inl (of_erase h)
  | stays _ ready hands queue =>
    rw [queue] at h
    exact .inl h
  | takes k payload ready hands queue =>
    rw [queue] at h
    exact .inl h
  | adds k payload opened queue =>
    rw [queue] at h
    exact .inl (of_erase h)
  | yields place r there current pending queue =>
    rw [queue] at h
    exact .inl (of_erase h)
  | returns place r there current free queue =>
    rw [queue] at h
    exact .inl (of_erase h)

/-- Only a failure schedules a retry. -/
theorem unscheduled_step {a : Action α} (h : s.queue.scheduled.get? key = none)
    (ha : ∀ payload, a ≠ .retry key payload) :
    (s.step backoff a).queue.scheduled.get? key = none := by
  refine Option.eq_none_iff_forall_ne_some.2 fun generation hg => ?_
  obtain hold | ⟨payload, rfl, -⟩ := scheduled_of_step_generation hg
  · rw [h] at hold
    cases hold
  · exact ha payload rfl

/-! ### Keys that wait -/

/-- A payload of the key is pending, or a retry of it is scheduled. -/
def Waits (s : System α) (key : String) : Prop :=
  s.queue.pending.has key = true ∨ s.queue.scheduled.has key = true

/-- A key waits until it is handed out or forgotten.  Adding to a key drops its retry for a pending
payload, and so does the retry when it falls due. -/
theorem Waits.step (h : s.Waits key) {a : Action α}
    (hh : (s.hands a).map Prod.fst ≠ some key) (hf : a ≠ .forget key) :
    (s.step backoff a).Waits key := by
  unfold Waits at h ⊢
  cases move backoff s a with
  | settles k queue => exact h
  | closes queue => exact h
  | stays _ ready hands queue => rwa [queue]
  | adds k payload opened queue =>
    rw [queue, Table.has_insert, Table.has_erase]
    by_cases hk : k = key
    · simp [hk]
    · simpa [hk] using h
  | takes k payload ready hands queue =>
    have hk : k ≠ key := by simpa [hands] using hh
    rw [queue]
    simpa [Table.has_erase, hk] using h
  | forgets k queue =>
    have hk : k ≠ key := fun hk => hf (hk ▸ rfl)
    rw [queue]
    simpa [forget, Table.has_erase, hk] using h
  | fails k payload opened queue =>
    rw [queue, Table.has_insert, Bool.or_eq_true, decide_eq_true_eq]
    exact h.imp_right .inr
  | yields place r there current pending queue =>
    rw [queue]
    by_cases hk : r.key = key
    · exact .inl (hk ▸ pending)
    · simpa [Table.has_erase, hk] using h
  | returns place r there current free queue =>
    rw [queue]
    by_cases hk : r.key = key
    · exact .inl (by simp [push, Table.has_insert, hk])
    · simpa [push, Table.has_insert, Table.has_erase, hk] using h

/-- A failure in an open queue makes its key wait. -/
theorem waits_retry (hc : s.queue.closed = false) (payload : α) :
    (s.step backoff (.retry key payload)).Waits key :=
  .inr (by simp [step, retry_of_open hc, Table.has_insert])

/-- If a key with failures waits, or is just told of, then it waits afterwards as long as it has
failures and is not handed out. -/
theorem waits_step_of_failures (hc : s.queue.closed = false) {a : Action α}
    (hw : s.queue.failures.has key = true →
      s.Waits key ∨ (∃ payload, a = .retry key payload) ∨ a = .forget key)
    (hh : (s.hands a).map Prod.fst ≠ some key)
    (hf : (s.step backoff a).queue.failures.has key = true) : (s.step backoff a).Waits key := by
  by_cases hforget : a = .forget key
  · subst hforget
    simp [step, forget, Table.has_erase] at hf
  by_cases hretry : ∃ payload, a = .retry key payload
  · obtain ⟨payload, rfl⟩ := hretry
    exact waits_retry hc payload
  have hbefore : s.queue.failures.has key = true := by
    obtain he | ⟨k, payload, rfl, -, he⟩ | ⟨k, rfl, he⟩ := failures_step_cases backoff s a
    · rwa [he] at hf
    · have hk : k ≠ key := fun hk => hretry ⟨payload, hk ▸ rfl⟩
      simpa [he, Table.has_insert, hk] using hf
    · have hk : k ≠ key := fun hk => hforget (hk ▸ rfl)
      simpa [he, Table.has_erase, hk] using hf
  obtain hwaits | h | h := hw hbefore
  · exact hwaits.step hh hforget
  · exact absurd h hretry
  · exact absurd h hforget

/-- The keys in hand are those that were in hand and those that are handed out, but for the one that
is done with. -/
theorem contains_inHand_step_iff {a : Action α} :
    (s.step backoff a).queue.inHand.contains key = true ↔
      (s.queue.inHand.contains key = true ∨ (s.hands a).map Prod.fst = some key) ∧
        a ≠ .done key := by
  by_cases hd : a = .done key
  · subst hd
    simp [step, done, NameSet.contains_erase]
  rw [and_iff_left hd]
  cases move backoff s a with
  | takes k payload ready hands queue =>
    rw [queue, NameSet.contains_add, Bool.or_eq_true, decide_eq_true_eq, hands, Option.map_some,
      Option.some.injEq, or_comm]
  | settles k queue =>
    have hk : k ≠ key := fun hk => hd (hk ▸ rfl)
    simp [queue, done, NameSet.contains_erase, hk, System.hands]
  | stays _ ready hands queue => simp [queue, hands]
  | forgets k queue | closes queue => rw [queue]; simp [forget, close, hands]
  | adds k payload opened queue | fails k payload opened queue => simp [queue, hands]
  | yields place r there current pending queue => simp [queue, hands]
  | returns place r there current free queue => simp [queue, push, hands]

/-! ### Retries that are kept track of -/

/-- Every generation that the queue keeps for a key is that of a retry of the key which is still to
come back. -/
def Live (s : System α) : Prop :=
  ∀ key generation, s.queue.scheduled.get? key = some generation →
    ∃ r ∈ s.retries, r.key = key ∧ r.generation = generation

theorem live_start : (start : System α).Live := nofun

/-- The retry whose generation is kept takes it away when it falls due. -/
theorem scheduled_fire_of_current {r : Retry α} {place : Nat} (hr : s.retries[place]? = some r)
    (hc : s.queue.closed = false) (hg : s.queue.scheduled.get? r.key = some r.generation) :
    (s.step backoff (.fire place)).queue.scheduled.get? r.key = none := by
  simp only [step, hr]
  obtain ⟨-, hclosed | hstale⟩ | ⟨-, -, ⟨-, he⟩ | ⟨-, he⟩⟩ :=
    fire_cases s.queue r.key r.payload r.generation
  · rw [hc] at hclosed
    cases hclosed
  · exact absurd hg hstale
  · rw [he, Table.get?_erase_self]
  · rw [he, push, Table.get?_erase_self]

theorem live_step (h : s.Live) (hc : s.queue.closed = false) (a : Action α) :
    (s.step backoff a).Live := by
  intro key generation hg
  obtain hold | ⟨payload, rfl, -, rfl⟩ := scheduled_of_step_generation hg
  · obtain ⟨r, hr, rfl, rfl⟩ := h key generation hold
    obtain hstays | ⟨place, rfl, hplace⟩ := mem_retries_step_or_fired backoff hr a
    · exact ⟨r, hstays, rfl, rfl⟩
    · -- a current retry does not go away without its generation
      rw [scheduled_fire_of_current hplace hc hold] at hg
      cases hg
  · refine ⟨⟨key, payload, s.queue.lastGeneration + 1⟩, ?_, rfl, rfl⟩
    simp only [step, retry_of_open hc]
    exact List.mem_append_right _ List.mem_cons_self

end System

end Queue

end ClusterHerald
