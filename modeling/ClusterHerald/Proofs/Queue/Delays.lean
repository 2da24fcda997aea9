import ClusterHerald.Proofs.Backoff
import ClusterHerald.Proofs.Queue.Failures

/-!
# Delays of a key

The delay of a retry depends on the count of the failures of its key alone.  Every failure raises
the count by one and only forgetting the key clears it, so the delays of a key that is not forgotten
are those of consecutive counts, whatever else happens to the queue meanwhile.

A count is a word of 32 bits and a generation one of 64.  `Queue.retryInWords` is a failure with a
look at both.  They only grow as long as the key is not forgotten, so if they are words after a run,
no failure of the key has left its words in the run (`System.failsInWords_run`).

* `System.delay?_step_cases` : what an action schedules for a key, and what it does to the count;
* `System.delays_run` : the delays of a key in a run that does not forget it;
* `System.delays_never_shrink` : they never shrink, and never exceed the greatest delay.
-/

namespace ClusterHerald

universe u

namespace Queue

variable {α : Type u} {backoff : Backoff} {key : String}

/-! ### The steps in words -/

/-- `Queue.retry`, step by step.  There is no result if the count of failures or the generation
leaves its word. -/
def retryInWords (q : Queue α) (backoff : Backoff) (key : String) :
    Option (Option (Span × Nat) × Queue α) :=
  if q.closed then some (none, q)
  else
    (inWord UInt32.size (q.failureCount key + 1)).bind fun failures =>
    (backoff.delayInWords (.ofNat failures)).bind fun delay =>
    (inWord UInt64.size (q.lastGeneration + 1)).bind fun generation =>
      some (some (delay, generation),
        { q with
          failures := q.failures.insert key failures
          scheduled := q.scheduled.insert key generation
          lastGeneration := generation })

/-- The count of the failures of a key and the latest generation are words. -/
structure InWords (q : Queue α) (key : String) : Prop where
  failures : q.failureCount key < UInt32.size
  generation : q.lastGeneration < UInt64.size

/-- A failure does not leave its words if the count and the generation are words afterwards. -/
theorem retryInWords_eq {q : Queue α} (h : (q.retry backoff key).2.InWords key) :
    q.retryInWords backoff key = some (q.retry backoff key) := by
  cases hc : q.closed with
  | true => simp [retryInWords, retry_of_closed hc, hc]
  | false =>
    rw [retry_of_open hc] at h ⊢
    have hfailures : q.failureCount key + 1 < UInt32.size := by
      simpa [failureCount] using h.failures
    have hdelay : backoff.delayInWords (.ofNat (q.failureCount key + 1)) =
        some (backoff.delay (q.failureCount key + 1)) := by
      rw [backoff.delayInWords_eq, UInt32.toNat_ofNat_of_lt' hfailures]
    rw [retryInWords, if_neg (by simp [hc]), inWord_of_lt hfailures, Option.bind_some, hdelay,
      Option.bind_some, inWord_of_lt h.generation, Option.bind_some]

namespace System

variable {s : System α} {actions : List (Action α)}

/-! ### The delays of a run -/

/-- The delay that an action schedules for a key. -/
def delay? (backoff : Backoff) (s : System α) (key : String) : Action α → Option Span
  | .retry k _ => if k = key then (s.queue.retry backoff k).1.map Prod.fst else none
  | .add _ _ | .get | .done _ | .forget _ | .fire _ | .close => none

/-- The delays that a run schedules for a key, in order. -/
def delays (backoff : Backoff) (s : System α) (key : String) : List (Action α) → List Span
  | [] => []
  | a :: actions =>
    (s.delay? backoff key a).toList ++ (s.step backoff a).delays backoff key actions

/-- An action schedules the delay of the next count for a key, or none.  Then the count stays as it
is, unless the key is forgotten. -/
theorem delay?_step_cases (backoff : Backoff) (s : System α) (key : String) (a : Action α) :
    s.delay? backoff key a = none ∧
        (a = .forget key ∨
          (s.step backoff a).queue.failureCount key = s.queue.failureCount key) ∨
      s.delay? backoff key a = some (backoff.delay (s.queue.failureCount key + 1)) ∧
        (s.step backoff a).queue.failureCount key = s.queue.failureCount key + 1 := by
  by_cases hr : ∃ payload, a = .retry key payload
  · obtain ⟨payload, rfl⟩ := hr
    cases hc : s.queue.closed with
    | true =>
      exact .inl ⟨by simp [delay?, retry_of_closed hc], .inr (by simp [step, retry_of_closed hc])⟩
    | false =>
      exact .inr ⟨by simp [delay?, retry_of_open hc],
        by simp [step, retry_of_open hc, failureCount]⟩
  · refine .inl ⟨?_, ?_⟩
    · cases a with
      | retry k payload =>
        have hk : k ≠ key := fun hk => hr ⟨payload, hk ▸ rfl⟩
        exact if_neg hk
      | _ => rfl
    · obtain he | ⟨k, payload, rfl, -, he⟩ | ⟨k, rfl, he⟩ := failures_step_cases backoff s a
      · exact .inr (by rw [failureCount, he, failureCount])
      · have hk : k ≠ key := fun hk => hr ⟨payload, hk ▸ rfl⟩
        exact .inr (by rw [failureCount, he, Table.get?_insert_ne _ hk, failureCount])
      · by_cases hk : k = key
        · exact .inl (hk ▸ rfl)
        · exact .inr (by rw [failureCount, he, Table.get?_erase_ne _ hk, failureCount])

theorem exists_of_mem_delays {d : Span} (hd : d ∈ s.delays backoff key actions) :
    ∃ failures, d = backoff.delay failures := by
  induction actions generalizing s with
  | nil => cases hd
  | cons a actions ih =>
    obtain hd | hd := List.mem_append.1 hd
    · obtain ⟨hnone, -⟩ | ⟨hsome, -⟩ := delay?_step_cases backoff s key a
      · simp [hnone] at hd
      · exact ⟨_, by simpa [hsome] using hd⟩
    · exact ih hd

/-- As long as a key is not forgotten, its failures are counted on, and its delays are those of the
counts. -/
theorem delays_run (backoff : Backoff) (s : System α) (hf : ∀ a ∈ actions, a ≠ .forget key) :
    ∃ n, (s.run backoff actions).queue.failureCount key = s.queue.failureCount key + n ∧
      s.delays backoff key actions =
        (List.range' (s.queue.failureCount key + 1) n).map backoff.delay := by
  induction actions generalizing s with
  | nil => exact ⟨0, rfl, rfl⟩
  | cons a actions ih =>
    obtain ⟨n, hcount, hdelays⟩ :=
      ih (s.step backoff a) fun b hb => hf b (List.mem_cons_of_mem a hb)
    rw [run_cons, delays, hcount, hdelays]
    obtain ⟨hnone, hforgotten | hstays⟩ | ⟨hsome, hnext⟩ := delay?_step_cases backoff s key a
    · exact absurd hforgotten (hf a List.mem_cons_self)
    · exact ⟨n, by rw [hstays], by simp [hnone, hstays]⟩
    · exact ⟨n + 1, by omega, by simp [hsome, hnext, List.range'_succ]⟩

theorem delays_pairwise (hf : ∀ a ∈ actions, a ≠ .forget key) :
    (s.delays backoff key actions).Pairwise (· ≤ ·) := by
  obtain ⟨n, -, hdelays⟩ := delays_run backoff s hf
  rw [hdelays]
  exact (List.pairwise_le_range' 1).map _ fun _ _ h => backoff.delay_mono h

/-! ### The words of a run -/

/-- The count and the generation are words all along, if they are words at the end. -/
theorem inWords_of_run (hf : ∀ a ∈ actions, a ≠ .forget key)
    (hw : (s.run backoff actions).queue.InWords key) : s.queue.InWords key := by
  obtain ⟨n, hcount, -⟩ := delays_run backoff s hf
  have hle : s.queue.failureCount key ≤ (s.run backoff actions).queue.failureCount key := by
    rw [hcount]
    exact Nat.le_add_right ..
  exact ⟨Nat.lt_of_le_of_lt hle hw.failures,
    Nat.lt_of_le_of_lt (lastGeneration_le_run backoff s actions) hw.generation⟩

/-- If the queue is told of a failure of the key next, no step leaves its word. -/
def FailsInWords (backoff : Backoff) (key : String) (s : System α) (a : Action α) : Prop :=
  ∀ payload, a = .retry key payload →
    s.queue.retryInWords backoff key = some (s.queue.retry backoff key)

theorem queue_step_retry (payload : α) :
    (s.step backoff (.retry key payload)).queue = (s.queue.retry backoff key).2 := by
  cases hc : s.queue.closed with
  | true => simp only [step, retry_of_closed hc]
  | false => simp only [step, retry_of_open hc]

theorem failsInWords_run (hf : ∀ a ∈ actions, a ≠ .forget key)
    (hw : (s.run backoff actions).queue.InWords key) :
    Obeys (step backoff) (FailsInWords backoff key) s actions := by
  induction actions generalizing s with
  | nil => trivial
  | cons a actions ih =>
    have hrest : ∀ b ∈ actions, b ≠ .forget key := fun b hb => hf b (List.mem_cons_of_mem a hb)
    refine ⟨?_, ih hrest hw⟩
    rintro payload rfl
    have hnext := inWords_of_run hrest hw
    rw [queue_step_retry] at hnext
    exact retryInWords_eq hnext

/-! ### How delays follow one another -/

/-- **Delays never shrink and never exceed the greatest one.**  More failures do not make a delay
shorter, and none is longer than the greatest one, for every base and greatest delay and all counts
of 32 bits; no step of a delay leaves its word.

No delay that a run schedules for a key is longer than the greatest one.  As long as the key is not
forgotten these delays never shrink, whatever else happens to the queue meanwhile: its failures are
counted on, and the delays are those of the counts.  If the count and the generation are words after
such a run, no failure of the key has left its words. -/
theorem delays_never_shrink (backoff : Backoff) :
    (∀ m n : UInt32, m ≤ n → ∃ d e : Span,
      backoff.delayInWords m = some d ∧ backoff.delayInWords n = some e ∧
        d ≤ e ∧ e ≤ backoff.max) ∧
    ∀ (s : System α) (key : String) (actions : List (Action α)),
      let delays := s.delays backoff key actions
      let after := s.run backoff actions
      (∀ d ∈ delays, d ≤ backoff.max) ∧
      ((∀ a ∈ actions, a ≠ .forget key) →
        delays.Pairwise (· ≤ ·) ∧
        (∃ n, after.queue.failureCount key = s.queue.failureCount key + n ∧
          delays = (List.range' (s.queue.failureCount key + 1) n).map backoff.delay) ∧
        (after.queue.InWords key → Obeys (step backoff) (FailsInWords backoff key) s actions)) := by
  refine ⟨fun m n hmn => ?_, fun s key actions => ⟨fun d hd => ?_, fun hf => ?_⟩⟩
  · exact ⟨_, _, backoff.delayInWords_eq m, backoff.delayInWords_eq n,
      backoff.delay_mono (UInt32.le_iff_toNat_le.1 hmn), backoff.delay_le_max _⟩
  · obtain ⟨failures, rfl⟩ := exists_of_mem_delays hd
    exact backoff.delay_le_max failures
  · exact ⟨delays_pairwise hf, delays_run backoff s hf, failsInWords_run hf⟩

/-- A key fails thirty-four times, from a delay of one nanosecond on, while another key fails and a
newer payload drops a retry.  The last doubling that is counted gives two seconds, and then comes
the greatest delay of a hundred. -/
theorem short_base_delays_grow :
    let backoff : Backoff := ⟨⟨0, 1, by decide, by decide⟩, ⟨100, 0, by decide, by decide⟩⟩
    let actions : List (Action Nat) :=
      [.add "a" 1, .get, .retry "a" 1, .retry "b" 2, .add "a" 3, .fire 0, .done "a"] ++
        List.replicate 33 (.retry "a" 3)
    let delays := start.delays backoff "a" actions
    (32 : UInt32) ≤ 33 ∧ (∀ a ∈ actions, a ≠ .forget "a") ∧
      (start.run backoff actions).queue.InWords "a" ∧
      (∃ d e : Span, backoff.delayInWords 32 = some d ∧ backoff.delayInWords 33 = some e ∧
        d ≤ e ∧ e ≤ backoff.max) ∧
      delays.Pairwise (· ≤ ·) ∧ Obeys (step backoff) (FailsInWords backoff "a") start actions ∧
      (delays.map Span.total).drop 30 = [1073741824, 2147483648, 100000000000, 100000000000] := by
  intro backoff actions delays
  have hf : ∀ a ∈ actions, a ≠ .forget "a" := by simp [actions]
  have hw : (start.run backoff actions).queue.InWords "a" :=
    ⟨by decide +kernel, by decide +kernel⟩
  obtain ⟨hdelay, hrun⟩ := delays_never_shrink (α := Nat) backoff
  obtain ⟨-, hdelays⟩ := hrun start "a" actions
  obtain ⟨hgrow, -, hwords⟩ := hdelays hf
  exact ⟨by decide, hf, hw, hdelay 32 33 (by decide), hgrow, hwords hw, by decide +kernel⟩

end System

end Queue

end ClusterHerald
