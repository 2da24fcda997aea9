import ClusterHerald.Proofs.Queue.Run

/-!
# Scheduled retries

A retry is scheduled as long as it is still to come back and its generation is the one that the
queue keeps for its key (`System.Scheduled`).  Generations are given out once
(`System.Dated`), so scheduling another retry of the key, or dropping the generation, ends it.

* `System.fire_step_cases` : what a retry does when it falls due;
* `System.retries_step_cases` : how the retries that are still to come back change;
* `System.scheduled_retry_iff` : which retries are scheduled after a failure;
* `System.pending_of_step`, `System.scheduled_of_step` : where a payload comes from that is pending
  or scheduled.
-/

namespace ClusterHerald

universe u

namespace Queue

namespace System

variable {α : Type u} {backoff : Backoff} {s : System α}

/-- A retry of `key` with the given payload is still to come back and not superseded. -/
def Scheduled (s : System α) (key : String) (payload : α) : Prop :=
  ∃ r ∈ s.retries, r.key = key ∧ r.payload = payload ∧
    s.queue.scheduled.get? key = some r.generation

theorem Scheduled.of_retries {s' : System α} {key : String} {payload : α}
    (h : s'.Scheduled key payload) (hr : ∀ r ∈ s'.retries, r ∈ s.retries)
    (hg : s'.queue.scheduled.get? key = s.queue.scheduled.get? key) : s.Scheduled key payload :=
  let ⟨r, hmem, hk, hx, hs⟩ := h
  ⟨r, hr r hmem, hk, hx, hg ▸ hs⟩

/-- Without a generation no retry of the key is scheduled. -/
theorem not_scheduled {key : String} {payload : α} (h : s.queue.scheduled.get? key = none) :
    ¬ s.Scheduled key payload := by
  rintro ⟨r, -, -, -, hg⟩
  rw [h] at hg
  cases hg

/-- Taking away the generation of a key ends its retries, and no other ones. -/
theorem Scheduled.of_erase {s' : System α} {k key : String} {payload : α}
    (h : s'.Scheduled key payload) (hr : ∀ r ∈ s'.retries, r ∈ s.retries)
    (hg : s'.queue.scheduled = s.queue.scheduled.erase k) : k ≠ key ∧ s.Scheduled key payload := by
  have hk : k ≠ key := by
    rintro rfl
    exact not_scheduled (by rw [hg, Table.get?_erase_self]) h
  exact ⟨hk, h.of_retries hr (by rw [hg, Table.get?_erase_ne _ hk])⟩

/-- No retry has a generation that was not given out yet. -/
def Dated (s : System α) : Prop :=
  ∀ r ∈ s.retries, r.generation ≤ s.queue.lastGeneration

theorem dated_start : (start : System α).Dated := nofun

/-- The key that becomes pending when the retry at a place falls due. -/
def comesBack (s : System α) (place : Nat) : Option String :=
  match s.retries[place]? with
  | some r =>
    let q := s.queue.fire r.key r.payload r.generation
    if !s.queue.pending.has r.key && q.pending.has r.key then some r.key else none
  | none => none

/-- A retry that falls due makes its payload pending, or the pending payloads stay as they are
and no retry becomes scheduled. -/
theorem fire_step_cases (backoff : Backoff) (s : System α) (place : Nat) :
    (∃ r ∈ s.retries, s.comesBack place = some r.key ∧ s.Scheduled r.key r.payload ∧
      s.queue.pending.get? r.key = none ∧
      (s.step backoff (.fire place)).queue.pending = s.queue.pending.insert r.key r.payload ∧
      (s.step backoff (.fire place)).queue.scheduled = s.queue.scheduled.erase r.key ∧
      (s.step backoff (.fire place)).retries = s.retries.eraseIdx place) ∨
    s.comesBack place = none ∧
      (s.step backoff (.fire place)).queue.pending = s.queue.pending ∧
      ∀ key payload, (s.step backoff (.fire place)).Scheduled key payload →
        s.Scheduled key payload := by
  simp only [step, comesBack]
  cases hr : s.retries[place]? with
  | none => exact .inr ⟨rfl, rfl, fun _ _ h => h⟩
  | some r =>
    have hmem : r ∈ s.retries := List.mem_of_getElem? hr
    obtain ⟨he, -⟩ | ⟨-, hs, ⟨hp, he⟩ | ⟨hp, he⟩⟩ :=
      fire_cases s.queue r.key r.payload r.generation
    · refine .inr ⟨by simp [he], by simp [he], ?_⟩
      rintro key payload ⟨r', hr', hk, hx, hg⟩
      exact ⟨r', List.mem_of_mem_eraseIdx hr', hk, hx, by simpa [he] using hg⟩
    · refine .inr ⟨by simp [he, hp], by simp [he], ?_⟩
      rintro key payload ⟨r', hr', hk, hx, hg⟩
      refine ⟨r', List.mem_of_mem_eraseIdx hr', hk, hx, ?_⟩
      simp only [he, Table.get?_erase] at hg
      split at hg
      · cases hg
      · exact hg
    · refine .inl ⟨r, hmem, by simp [he, hp, push, Table.has_insert], ⟨r, hmem, rfl, rfl, hs⟩,
        Table.has_eq_false_iff.1 hp, by simp [he, push], by simp [he, push], rfl⟩

/-- Only a failure in an open queue schedules a retry, under a new generation, and a retry that
falls due is gone. -/
theorem retries_step_cases (backoff : Backoff) (s : System α) (a : Action α) :
    (s.step backoff a).retries = s.retries ∧
        (s.step backoff a).queue.lastGeneration = s.queue.lastGeneration ∨
      (∃ key payload, a = .retry key payload ∧ s.queue.closed = false ∧
        (s.step backoff a).retries =
          s.retries ++ [⟨key, payload, s.queue.lastGeneration + 1⟩] ∧
        (s.step backoff a).queue.lastGeneration = s.queue.lastGeneration + 1) ∨
      ∃ place r, a = .fire place ∧ s.retries[place]? = some r ∧
        (s.step backoff a).retries = s.retries.eraseIdx place ∧
        (s.step backoff a).queue.lastGeneration = s.queue.lastGeneration := by
  cases a with
  | add key payload =>
    cases hc : s.queue.closed with
    | true => exact .inl ⟨rfl, by rw [step, add_of_closed hc]⟩
    | false => exact .inl ⟨rfl, by rw [step, add_of_open hc]⟩
  | get =>
    cases hg : s.queue.get.1.item? with
    | none => exact .inl ⟨rfl, by rw [step, get_eq_none hg]⟩
    | some item =>
      obtain ⟨-, -, rest, hq⟩ := get_eq_item hg
      exact .inl ⟨rfl, by rw [step, hq]⟩
  | done key | forget key | close => exact .inl ⟨rfl, rfl⟩
  | retry key payload =>
    cases hc : s.queue.closed with
    | true => exact .inl (by simp only [step, retry_of_closed hc, and_self])
    | false =>
      exact .inr (.inl ⟨key, payload, rfl, rfl, by simp only [step, retry_of_open hc],
        by simp only [step, retry_of_open hc]⟩)
  | fire place =>
    cases hr : s.retries[place]? with
    | none => exact .inl (by simp only [step, hr, and_self])
    | some r =>
      refine .inr (.inr ⟨place, r, rfl, hr, by simp only [step, hr], ?_⟩)
      simp only [step, hr]
      obtain ⟨he, -⟩ | ⟨-, -, ⟨-, he⟩ | ⟨-, he⟩⟩ :=
        fire_cases s.queue r.key r.payload r.generation <;> rw [he]
      rfl

theorem dated_step (h : s.Dated) (a : Action α) : (s.step backoff a).Dated := by
  obtain ⟨hr, hg⟩ | ⟨key, payload, -, -, hr, hg⟩ | ⟨place, r, -, -, hr, hg⟩ :=
    retries_step_cases backoff s a <;> intro timer ht <;> rw [hg]
  · exact h timer (hr ▸ ht)
  · rw [hr, List.mem_append, List.mem_singleton] at ht
    rcases ht with ht | rfl
    · exact Nat.le_succ_of_le (h timer ht)
    · exact Nat.le_refl _
  · exact h timer (List.mem_of_mem_eraseIdx (hr ▸ ht))

/-- A retry that was just scheduled is the scheduled one of its key, and other keys keep theirs. -/
theorem scheduled_retry_iff (h : s.Dated) (hc : s.queue.closed = false) {key other : String}
    {payload x : α} :
    (s.step backoff (.retry key payload)).Scheduled other x ↔
      key = other ∧ payload = x ∨ key ≠ other ∧ s.Scheduled other x := by
  simp only [Scheduled, step, retry_of_open hc, Table.get?_insert, List.mem_append,
    List.mem_singleton]
  constructor
  · rintro ⟨r, hr | rfl, rfl, rfl, hg⟩
    · split at hg
      · -- a retry from before has an older generation
        have := h r hr
        simp only [Option.some.injEq] at hg
        omega
      · next hk => exact .inr ⟨hk, r, hr, rfl, rfl, hg⟩
    · exact .inl ⟨rfl, rfl⟩
  · rintro (⟨rfl, rfl⟩ | ⟨hk, r, hr, hrk, hrx, hg⟩)
    · exact ⟨_, .inr rfl, rfl, rfl, by simp⟩
    · exact ⟨r, .inl hr, hrk, hrx, by simpa [hk] using hg⟩

/-- A pending payload was added just now, or was pending before and is not handed out, or its retry
came back. -/
theorem pending_of_step {a : Action α} {key : String} {payload : α}
    (hp : (s.step backoff a).queue.pending.get? key = some payload) :
    a = .add key payload ∨
      s.queue.pending.get? key = some payload ∧ s.hands a ≠ some (key, payload) ∨
      ∃ place, a = .fire place ∧ s.comesBack place = some key ∧ s.Scheduled key payload := by
  cases a with
  | add k x =>
    cases hc : s.queue.closed with
    | true => exact .inr (.inl ⟨by simpa [step, add_of_closed hc] using hp, by simp [hands]⟩)
    | false =>
      simp only [step, add_of_open hc, Table.get?_insert] at hp
      split at hp
      · next hk => exact .inl (by rw [hk, Option.some.inj hp])
      · exact .inr (.inl ⟨hp, by simp [hands]⟩)
  | get =>
    refine .inr (.inl ?_)
    cases hg : s.queue.get.1.item? with
    | none =>
      simp only [step] at hp
      rw [get_eq_none hg] at hp
      exact ⟨hp, by simp [hands, hg]⟩
    | some item =>
      obtain ⟨k, x⟩ := item
      obtain ⟨-, -, rest, hq⟩ := get_eq_item hg
      simp only [step] at hp
      rw [hq, Table.get?_erase] at hp
      split at hp
      · cases hp
      · next hk => exact ⟨hp, by simp [hands, hg, hk]⟩
  | done k | forget k | close => exact .inr (.inl ⟨hp, by simp [hands]⟩)
  | retry k x =>
    refine .inr (.inl ⟨?_, by simp [hands]⟩)
    cases hc : s.queue.closed with
    | true => simpa [step, retry_of_closed hc] using hp
    | false => simpa [step, retry_of_open hc] using hp
  | fire place =>
    obtain ⟨r, -, hb, hs, -, hpending, -⟩ | ⟨-, hpending, -⟩ := fire_step_cases backoff s place
    · rw [hpending, Table.get?_insert] at hp
      split at hp
      · next hk =>
        obtain rfl := Option.some.inj hp
        exact .inr (.inr ⟨place, rfl, hk ▸ hb, hk ▸ hs⟩)
      · exact .inr (.inl ⟨hp, by simp [hands]⟩)
    · exact .inr (.inl ⟨hpending ▸ hp, by simp [hands]⟩)

/-- While no retry of a key is scheduled, what is pending of it was so before, or is added. -/
theorem pending_of_unscheduled {a : Action α} {key : String} {payload : α}
    (h : s.queue.scheduled.get? key = none) (ha : a ≠ .add key payload)
    (hp : (s.step backoff a).queue.pending.get? key = some payload) :
    s.queue.pending.get? key = some payload := by
  obtain hadd | ⟨hold, -⟩ | ⟨_, -, -, hscheduled⟩ := pending_of_step hp
  · exact absurd hadd ha
  · exact hold
  · exact absurd hscheduled (not_scheduled h)

/-- A scheduled payload failed just now, or was scheduled before and does not come back. -/
theorem scheduled_of_step (h : s.Dated) {a : Action α} {key : String} {payload : α}
    (hs : (s.step backoff a).Scheduled key payload) :
    a = .retry key payload ∨
      s.Scheduled key payload ∧ ∀ place, a = .fire place → s.comesBack place ≠ some key := by
  cases a with
  | add k x =>
    cases hc : s.queue.closed with
    | true => exact .inr ⟨by simpa [step, add_of_closed hc] using hs, by simp⟩
    | false =>
      have hg : (s.step backoff (.add k x)).queue.scheduled = s.queue.scheduled.erase k := by
        simp only [step, add_of_open hc]
      exact .inr ⟨(hs.of_erase (s := s) (fun _ hr => hr) hg).2, by simp⟩
  | get =>
    refine .inr ⟨hs.of_retries (fun _ hr => hr) ?_, by simp⟩
    cases hg : s.queue.get.1.item? with
    | none => simp only [step]; rw [get_eq_none hg]
    | some item =>
      obtain ⟨-, -, rest, hq⟩ := get_eq_item hg
      simp only [step]; rw [hq]
  | done k | close => exact .inr ⟨hs, by simp⟩
  | forget k => exact .inr ⟨(hs.of_erase (s := s) (fun _ hr => hr) rfl).2, by simp⟩
  | retry k x =>
    cases hc : s.queue.closed with
    | true => exact .inr ⟨by simpa [step, retry_of_closed hc] using hs, by simp⟩
    | false =>
      obtain ⟨rfl, rfl⟩ | ⟨-, hs⟩ := (scheduled_retry_iff h hc).1 hs
      · exact .inl rfl
      · exact .inr ⟨hs, by simp⟩
  | fire place =>
    obtain ⟨r, -, hb, -, -, -, hg, hr⟩ | ⟨hb, -, hold⟩ := fire_step_cases backoff s place
    · obtain ⟨hk, hold⟩ :=
        hs.of_erase (s := s) (fun _ hmem => List.mem_of_mem_eraseIdx (hr ▸ hmem)) hg
      refine .inr ⟨hold, ?_⟩
      rintro _ ⟨⟩
      simpa [hb] using hk
    · refine .inr ⟨hold key payload hs, ?_⟩
      rintro _ ⟨⟩
      simp [hb]

end System

end Queue

end ClusterHerald
