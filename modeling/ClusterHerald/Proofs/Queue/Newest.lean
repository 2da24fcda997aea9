import ClusterHerald.Proofs.Queue.Run

/-!
# The newest payload

A pending payload stays pending until it is handed out or a newer one is added: no other action
takes it away or puts another in its place (`System.pending_step`).  So the newest payload of a
key is never lost, whatever the parties do and whenever retries come back
(`System.newest_pending_or_handed`).
-/

namespace ClusterHerald

universe u

namespace Queue

namespace System

variable {α : Type u} {backoff : Backoff} {s : System α} {key : String} {payload : α}

/-- An action that does not add to `key` leaves its pending payload alone, or hands it out. -/
theorem pending_step (backoff : Backoff) {a : Action α}
    (hp : s.queue.pending.get? key = some payload)
    (ha : ∀ newer, a ≠ .add key newer) :
    (s.step backoff a).queue.pending.get? key = some payload ∧
        (s.hands a).map Prod.fst ≠ some key ∨
      s.hands a = some (key, payload) := by
  cases a with
  | add k x =>
    have hk : k ≠ key := fun h => ha x (h ▸ rfl)
    refine .inl ⟨?_, by simp [hands]⟩
    cases hc : s.queue.closed with
    | true => simpa [step, add_of_closed hc] using hp
    | false => simpa [step, add_of_open hc, Table.get?_insert_ne _ hk] using hp
  | get =>
    cases hg : s.queue.get.1.item? with
    | none =>
      refine .inl ⟨?_, by simp [hands, hg]⟩
      simp only [step]
      rw [get_eq_none hg]
      exact hp
    | some item =>
      obtain ⟨k, x⟩ := item
      obtain ⟨-, hx, rest, hq⟩ := get_eq_item hg
      by_cases hk : k = key
      · subst hk
        rw [hp] at hx
        cases hx
        exact .inr hg
      · refine .inl ⟨?_, by simpa [hands, hg] using hk⟩
        simp only [step]
        rw [hq]
        exact (Table.get?_erase_ne _ hk).trans hp
  | done k => exact .inl ⟨hp, by simp [hands]⟩
  | forget k => exact .inl ⟨hp, by simp [hands]⟩
  | retry k x =>
    refine .inl ⟨?_, by simp [hands]⟩
    cases hc : s.queue.closed with
    | true => simpa [step, retry_of_closed hc] using hp
    | false => simpa [step, retry_of_open hc] using hp
  | fire place =>
    refine .inl ⟨?_, by simp [hands]⟩
    simp only [step]
    split
    · next r _ =>
      obtain ⟨he, -⟩ | ⟨-, -, ⟨-, he⟩ | ⟨hn, he⟩⟩ :=
        fire_cases s.queue r.key r.payload r.generation
      · rwa [he]
      · rwa [he]
      · -- the retry of another key: this one has a pending payload
        have hk : r.key ≠ key := by
          intro h
          rw [h, Table.has_of_get? hp] at hn
          cases hn
        rw [he]
        exact (Table.get?_insert_ne _ hk _).trans hp
    · exact hp
  | close => exact .inl ⟨hp, by simp [hands]⟩

/-- A pending payload that no newer one replaces is still pending after a run, or the first get
of the run that hands out its key has handed it out. -/
theorem pending_or_handed {later : List (Action α)}
    (hp : s.queue.pending.get? key = some payload) (hl : ∀ newer, .add key newer ∉ later) :
    (s.run backoff later).queue.pending.get? key = some payload ∨
      ∃ before after, later = before ++ .get :: after ∧
        (∀ item ∈ s.handed backoff before, item.1 ≠ key) ∧
        (s.run backoff before).hands .get = some (key, payload) := by
  induction later generalizing s with
  | nil => exact .inl hp
  | cons a later ih =>
    have ha : ∀ newer, a ≠ .add key newer := fun x h => hl x (h ▸ List.mem_cons_self)
    have hl' : ∀ newer, .add key newer ∉ later := fun x h => hl x (List.mem_cons_of_mem a h)
    obtain ⟨hp', hn⟩ | hh := pending_step backoff hp ha
    · refine (ih hp' hl').imp_right ?_
      rintro ⟨before, after, rfl, hb, hg⟩
      refine ⟨a :: before, after, rfl, fun item hi => ?_, hg⟩
      rw [handed_cons, List.mem_append, Option.mem_toList] at hi
      rcases hi with hi | hi
      · intro hk
        exact hn (by rw [hi, Option.map_some, hk])
      · exact hb item hi
    · cases a with
      | get => exact .inr ⟨[], later, rfl, nofun, hh⟩
      | _ => cases hh

/-- What is added to an open queue is pending. -/
theorem pending_add (hc : s.queue.closed = false) :
    (s.step backoff (.add key payload)).queue.pending.get? key = some payload := by
  simp [step, add_of_open hc]

/-- **The newest change is never lost.**  The payload that was added last for a key, before the
queue was closed, is pending, or the first get that handed out the key since has handed it out.
As long as it is pending, it stays so through every action but a newer add for the key and a get
that hands out the key. -/
theorem newest_pending_or_handed {before later : List (Action α)}
    (hb : ∀ a ∈ before, a ≠ .close) (hl : ∀ newer, .add key newer ∉ later) :
    let added := (start : System α).run backoff (before ++ [.add key payload])
    let s := added.run backoff later
    (s.queue.pending.get? key = some payload ∨
      ∃ mid after, later = mid ++ .get :: after ∧
        (∀ item ∈ added.handed backoff mid, item.1 ≠ key) ∧
        (added.run backoff mid).hands .get = some (key, payload)) ∧
    ∀ a, s.queue.pending.get? key = some payload → (∀ newer, a ≠ .add key newer) →
      (s.hands a).map Prod.fst ≠ some key →
        (s.step backoff a).queue.pending.get? key = some payload := by
  intro added s
  have hp : added.queue.pending.get? key = some payload := by
    simp only [added, run_append, run_cons, run_nil]
    exact pending_add (run_closed hb)
  refine ⟨pending_or_handed hp hl, fun a hs ha hn => ?_⟩
  obtain ⟨h, -⟩ | h := pending_step backoff hs ha
  · exact h
  · exact absurd (by rw [h, Option.map_some]) hn

/-- A retry that was scheduled before the newest payload came, and falls due after it, changes
nothing. -/
theorem newest_pending_or_handed_retried :
    let before : List (Action Nat) := [.add "a" 1, .get, .retry "a" 1]
    let later : List (Action Nat) := [.fire 0, .forget "a", .done "a", .get, .done "a"]
    let added := (start : System Nat).run .standard (before ++ [.add "a" 2])
    (∀ a ∈ before, a ≠ .close) ∧ (∀ newer, .add "a" newer ∉ later) ∧
      ((added.run .standard later).queue.pending.get? "a" = some 2 ∨
        ∃ mid after, later = mid ++ .get :: after ∧
          (∀ item ∈ added.handed .standard mid, item.1 ≠ "a") ∧
          (added.run .standard mid).hands .get = some ("a", 2)) := by
  intro before later added
  have hb : ∀ a ∈ before, a ≠ .close := by simp [before]
  have hl : ∀ newer, .add "a" newer ∉ later := by simp [later]
  exact ⟨hb, hl, (newest_pending_or_handed hb hl).1⟩

end System

end Queue

end ClusterHerald
