import ClusterHerald.Pipeline
import ClusterHerald.Proofs.Difference
import ClusterHerald.Proofs.Key
import ClusterHerald.Proofs.Queue.Run

/-!
# What processing a change comes to

Once a key is well formed and the cache has answered, processing a change ends in one of three
ways (`Worker.process_cases`), whatever the receivers answer: it is passed over as a replay, it is
passed over as irrelevant, or every sink is given its notice.

`Worker.process_create`, `Worker.process_update` and `Worker.process_delete` say which of them it
is, by the object that stands for the current one.

What the queue is told afterwards are two actions (`Queue.System.queue_settle`).
-/

namespace ClusterHerald

universe u

/-- The two objects are the same but for what the tree ignores. -/
def Object.AlikeBut (ignored : IgnoredFields) (a b : Object) : Prop :=
  Json.same (a.toJson.prune ignored) (b.toJson.prune ignored) = true

instance (ignored : IgnoredFields) (a b : Object) : Decidable (a.AlikeBut ignored b) :=
  inferInstanceAs (Decidable (_ = true))

theorem Object.AlikeBut.refl (ignored : IgnoredFields) (o : Object) : o.AlikeBut ignored o :=
  Json.same_refl _

/-- The notice that the sinks were given. -/
def Outcome.notice? : Outcome → Option Notice
  | .announced notice _ => some notice
  | .failed _ | .replayed | .irrelevant => none

instance decidableEqIrrelevant : ∀ outcome : Outcome, Decidable (outcome = .irrelevant)
  | .irrelevant => isTrue rfl
  | .failed _ | .replayed | .announced _ _ => isFalse nofun

/-- The world of a worker whose cache is the store. -/
def Store.serving {σ : Type u} (store : Store) (outside : World σ) : World σ :=
  { outside with lookup := fun key s => (store.lookup key, s) }

/-- Receivers are not asked through the cache. -/
theorem dispatch_serving {σ : Type u} (store : Store) (outside : World σ) (notice : Notice)
    (sinks : List Sink) (s : σ) :
    dispatch (store.serving outside) notice sinks s = dispatch outside notice sinks s := by
  induction sinks generalizing s with
  | nil => rfl
  | cons sink sinks ih =>
    simp only [dispatch, ih]
    rfl

/-- A pipeline without a cache in memory processes changes as a worker does whose cache is the
store. -/
theorem Pipeline.outcome_attempt (p : Pipeline) (hp : p.memory = none) (c : Change) :
    (p.attempt c).outcome =
      (p.worker.process (p.store.serving (world p.store)) c none).1 := by
  have hc : c.current (world p.store).lookup none =
      c.current (p.store.serving (world p.store)).lookup none := by
    cases ht : c.type <;> simp [Change.current, ht, world, Store.serving]
  have hr : c.resolve p.worker.anchor (world p.store).lookup none =
      c.resolve p.worker.anchor (p.store.serving (world p.store)).lookup none := by
    simp only [Change.resolve, hc]
  simp only [attempt, hp, Worker.process, hr, dispatch_serving]

/-- A key is settled by two actions: it is retried or forgotten, and then it is done. -/
theorem Queue.System.queue_settle {α : Type u} (backoff : Backoff) (s : System α) (key : String)
    (payload : α) (failed : Bool) :
    (s.run backoff [if failed && s.queue.failureCount key < maxRetries then .retry key payload
      else .forget key, .done key]).queue = (s.queue.settle backoff key failed).2 := by
  unfold settle
  split
  · simp only [run_cons, run_nil, step]
    rcases s.queue.retry backoff key with ⟨_ | _, q⟩ <;> rfl
  · rfl

/-- The retry of a key that is settled. -/
theorem Queue.System.retries_settle {α : Type u} (backoff : Backoff) (s : System α) (key : String)
    (payload : α) (failed : Bool) :
    (s.run backoff [if failed && s.queue.failureCount key < maxRetries then .retry key payload
      else .forget key, .done key]).retries = s.retries ++
        (s.queue.settle backoff key failed).1.toList.map fun scheduled =>
          ⟨key, payload, scheduled.2⟩ := by
  unfold settle
  split
  · simp only [run_cons, run_nil, step]
    rcases s.queue.retry backoff key with ⟨_ | _, q⟩
    · exact (List.append_nil _).symm
    · rfl
  · exact (List.append_nil _).symm

namespace Worker

variable {σ : Type u} {w : Worker} {world : World σ} {c : Change} {s : σ}
  {ns : Option String} {name : String} {current : Option Object}

/-- Processing a change fails, and no sink is asked, only if the key or the cache does. -/
theorem process_cases (hk : Key.parse c.key = .ok (ns, name))
    (hc : (c.current world.lookup s).1 = .ok current) :
    (w.process world c s).1 = .replayed ∧ c.isReplay w.anchor current = true ∨
    c.isReplay w.anchor current = false ∧
      ((w.process world c s).1 = .irrelevant ∧
          w.isIrrelevant (c.resolved ns name current) = true ∨
        (w.process world c s).1.notice? = some (c.resolved ns name current).notice ∧
          w.isIrrelevant (c.resolved ns name current) = false) := by
  unfold process Change.resolve
  rw [hk]
  cases hp : c.current world.lookup s with
  | mk found s' =>
    obtain rfl : found = .ok current := by rw [← hc, hp]
    cases hr : c.isReplay w.anchor current with
    | true => simp [Except.map, hr]
    | false =>
      cases hi : w.isIrrelevant (c.resolved ns name current) with
      | true => simp [Except.map, hr, hi]
      | false => simp [Except.map, hr, hi, Outcome.notice?]

theorem current_of_lookup {found : Option Object} (ht : c.type ≠ .delete)
    (hl : (world.lookup c.key s).1 = .ok found) :
    (c.current world.lookup s).1 = .ok (found.or c.object) := by
  cases hc : c.type with
  | delete => exact absurd hc ht
  | create | update => simp [Change.current, hc, hl, Except.map]

/-- Processing a change does not fail once its key is taken apart and its current object known. -/
theorem isFailed_of_current (hk : Key.parse c.key = .ok (ns, name))
    (hc : (c.current world.lookup s).1 = .ok current) :
    (w.process world c s).1.isFailed = false := by
  obtain ⟨hp, -⟩ | ⟨-, ⟨hp, -⟩ | ⟨hp, -⟩⟩ := process_cases (w := w) hk hc
  · rw [hp]
    rfl
  · rw [hp]
    rfl
  · cases ho : (w.process world c s).1 <;> simp [ho, Outcome.notice?, Outcome.isFailed] at hp ⊢

/-- Processing a change of a well formed key does not fail if the cache answers. -/
theorem isFailed_process {found : Option Object} (hk : Key.parse c.key = .ok (ns, name))
    (hl : (world.lookup c.key s).1 = .ok found) : (w.process world c s).1.isFailed = false := by
  by_cases ht : c.type = .delete
  · have hc : (c.current world.lookup s).1 = .ok none := by simp [Change.current, ht]
    exact isFailed_of_current hk hc
  · exact isFailed_of_current hk (current_of_lookup ht hl)

/-- A create is announced if its current object is not older than the anchor. -/
theorem process_create {found : Option Object} (ht : c.type = .create)
    (hk : Key.parse c.key = .ok (ns, name)) (hl : (world.lookup c.key s).1 = .ok found) :
    (w.process world c s).1.notice?.isSome = true ↔
      Change.createdSince w.anchor (found.or c.object) = true := by
  have hc := current_of_lookup (by simp [ht]) hl
  obtain ⟨hp, hr⟩ | ⟨hr, ⟨hp, hi⟩ | ⟨hp, hi⟩⟩ := process_cases (w := w) hk hc
  · simp only [Change.isReplay, ht, decide_true, Bool.true_and, Bool.not_eq_true'] at hr
    simp [hp, hr, Outcome.notice?]
  · simp [isIrrelevant, Change.resolved, ht] at hi
  · simp only [Change.isReplay, ht, decide_true, Bool.true_and, Bool.not_eq_false'] at hr
    simp [hp, hr]

/-- An update is passed over if some field is ignored and its current object is like the previous
one otherwise; else it is announced with these two. -/
theorem process_update {old o : Object} {found : Option Object} (ht : c.type = .update)
    (hk : Key.parse c.key = .ok (ns, name)) (hl : (world.lookup c.key s).1 = .ok found)
    (hcur : found.or c.object = some o) (hold : c.previous = some old)
    (ho : o.toJson.Ordered) (hold' : old.toJson.Ordered) :
    (w.process world c s).1 = .irrelevant ∧
        w.kind.ignored.isEmpty = false ∧ old.AlikeBut w.kind.ignored o ∨
      (∃ notice, (w.process world c s).1.notice? = some notice ∧
        notice.object = some o.toJson ∧ notice.previous = some old.toJson) ∧
        ¬ (w.kind.ignored.isEmpty = false ∧ old.AlikeBut w.kind.ignored o) := by
  have hc := current_of_lookup (by simp [ht]) hl
  rw [hcur] at hc
  have hi : w.isIrrelevant (c.resolved ns name (some o)) = true ↔
      w.kind.ignored.isEmpty = false ∧ old.AlikeBut w.kind.ignored o := by
    simp [isIrrelevant, Change.resolved, ht, hold, isNoise_iff hold' ho, Object.AlikeBut]
  obtain ⟨-, hr⟩ | ⟨-, ⟨hp, hirr⟩ | ⟨hp, hirr⟩⟩ := process_cases (w := w) hk hc
  · simp [Change.isReplay, ht] at hr
  · exact .inl ⟨hp, hi.1 hirr⟩
  · refine .inr ⟨⟨_, hp, ?_, ?_⟩, fun h => ?_⟩
    · simp [Resolved.notice, Change.resolved]
    · simp [Resolved.notice, Change.resolved, ht, hold]
    · rw [hi.2 h] at hirr
      cases hirr

/-- A delete is announced. -/
theorem process_delete (ht : c.type = .delete) (hk : Key.parse c.key = .ok (ns, name)) :
    (w.process world c s).1.notice?.isSome = true := by
  have hc : (c.current world.lookup s).1 = .ok none := by simp [Change.current, ht]
  obtain ⟨-, hr⟩ | ⟨-, ⟨-, hi⟩ | ⟨hp, -⟩⟩ := process_cases (w := w) hk hc
  · simp [Change.isReplay, ht] at hr
  · simp [isIrrelevant, Change.resolved, ht] at hi
  · simp [hp]

end Worker

end ClusterHerald
