import ClusterHerald.Proofs.Queue.Failures
import ClusterHerald.Proofs.Queue.Line
import ClusterHerald.Proofs.Queue.Newest
import ClusterHerald.Proofs.Shift.Turn

/-!
# A worker that goes on

Until its queue is closed a worker has its key in hand and no other, and the line of the queue is in
order (`Shift.Steady`).  So a whole turn takes the first key off the line (`Shift.Steady.turn`), and
the worker comes to every key that is pending (`Shift.Steady.exists_turns`).

Changes that are added one after the other do not disturb it: of each key the last one is pending
afterwards (`Shift.pending_adds`).
-/

namespace ClusterHerald

open Queue

universe u

namespace Shift

variable {f : Shift} {s : State} {key : String} {changes : List Change}

/-- The queue is open and its line is in order, and the key in hand is that of the worker. -/
structure Steady (s : State) : Prop where
  isOpen : s.system.queue.closed = false
  inLine : s.system.queue.InLine
  inHand : ∀ key, s.system.queue.inHand.contains key = true ↔ s.stage.key? = some key

theorem steady_start : Steady start :=
  ⟨rfl, inLine_empty, fun _ => iff_of_false nofun nofun⟩

namespace Steady

/-- The worker keeps to the rules of the queue. -/
theorem of_command (h : Steady s) {a : Action.{u}} {b : Queue.Action (Numbered Change)}
    (hb : s.command? a = some b) (horderly : s.system.Orderly b)
    (hkey : ∀ key, (f.step s a).stage.key? = some key ↔
      (s.stage.key? = some key ∨ (s.system.hands b).map Prod.fst = some key) ∧ b ≠ .done key) :
    Steady (f.step s a) where
  isOpen := by
    rw [system_step_of_command hb, System.step_closed horderly.ne_close, h.isOpen]
  inLine := by
    rw [system_step_of_command hb]
    exact System.inLine_step h.inLine h.isOpen horderly
  inHand key := by
    rw [system_step_of_command hb, System.contains_inHand_step_iff, h.inHand key, hkey key]

theorem of_system_eq {s' : State} (h : Steady s) (hsystem : s'.system = s.system)
    (hkey : s'.stage.key? = s.stage.key?) : Steady s' := by
  refine ⟨?_, ?_, fun key => ?_⟩ <;> rw [hsystem]
  · exact h.isOpen
  · exact h.inLine
  · rw [hkey]
    exact h.inHand key

theorem step (h : Steady s) {a : Action.{u}} (ha : a ≠ .close) : Steady (f.step s a) := by
  cases turn f s a with
  | stays stage attempts others =>
    cases hb : s.command? a with
    | none => exact h.of_system_eq (system_step_of_none hb) (by rw [stage])
    | some b =>
      obtain ⟨k, x, rfl⟩ | ⟨place, rfl⟩ | ⟨hclose, -⟩ := others b hb
      · exact h.of_command hb trivial fun key => by simp [stage, System.hands]
      · exact h.of_command hb trivial fun key => by simp [stage, System.hands]
      · exact absurd hclose ha
  | takes before command after attempts =>
    refine h.of_command command trivial fun key => ?_
    rw [after, before]
    cases s.system.hands .get <;> simp [Stage.key?]
  | processes attempt before command after attempts =>
    exact h.of_system_eq (system_step_of_none command) (by rw [before, after]; rfl)
  | reports k x failed action before command after attempts =>
    obtain ⟨he, -⟩ | he := ending_cases s k x failed <;> rw [he] at command <;>
      exact h.of_command command trivial fun key => by simp [before, after, Stage.key?, System.hands]
  | finishes k before command after attempts =>
    refine h.of_command command ?_ fun key => ?_
    · exact (h.inHand k).2 (by rw [before]; rfl)
    · simp [before, after, Stage.key?, System.hands]

theorem run (h : Steady s) {actions : List Action.{u}} (ha : ∀ a ∈ actions, a ≠ .close) :
    Steady (f.run s actions) := by
  have hopen : Obeys f.step (fun _ a => a ≠ .close) s actions := .of_forall fun a h _ => ha a h
  exact hopen.foldl h fun _ _ hs hne => hs.step hne

end Steady

/-! ### Changes that are added -/

/-- Changes are added one after the other. -/
def adds (changes : List Change) : List Action.{u} :=
  changes.map fun c => .add c.key c

/-- The last one of several changes that has a key. -/
def reported (changes : List Change) (key : String) : Option Change :=
  (changes.filter fun c => c.key = key).getLast?

theorem reported_mem {c : Change} (h : reported changes key = some c) :
    c ∈ changes ∧ c.key = key := by
  have hmem := List.mem_filter.1 (List.mem_of_getLast? h)
  exact ⟨hmem.1, of_decide_eq_true hmem.2⟩

theorem reported_eq_none_iff : reported changes key = none ↔ ∀ c ∈ changes, c.key ≠ key := by
  simp only [reported, List.getLast?_eq_none_iff, List.filter_eq_nil_iff, decide_eq_true_eq]

/-- The change of the key that is pending. -/
def State.pending? (s : State) (key : String) : Option Change :=
  (s.system.queue.pending.get? key).map Numbered.payload

/-- A key that is pending and not in hand is in line. -/
theorem Steady.mem_ready_of_pending? (h : Steady s) {c : Change} (hp : s.pending? key = some c)
    (hk : s.stage.key? ≠ some key) : key ∈ s.system.queue.ready := by
  obtain ⟨x, hx, -⟩ := Option.map_eq_some_iff.1 hp
  refine (h.inLine.mem_ready key).2 ⟨Table.has_of_get? hx, ?_⟩
  rw [← Bool.not_eq_true, h.inHand key]
  exact hk

/-- Of several changes of a key the last one is pending afterwards, and nothing else happens that
the worker would notice. -/
theorem run_adds (f : Shift) (hc : s.system.queue.closed = false) (changes : List Change)
    (key : String) :
    (f.run s (adds.{u} changes)).pending? key = (reported changes key).or (s.pending? key) ∧
      (f.run s (adds.{u} changes)).stage = s.stage ∧
      (s.system.queue.scheduled.get? key = none →
        (f.run s (adds.{u} changes)).system.queue.scheduled.get? key = none) := by
  induction changes generalizing s with
  | nil => exact ⟨rfl, rfl, id⟩
  | cons c changes ih =>
    have hc' : (f.step s (.add.{u} c.key c)).system.queue.closed = false :=
      (System.step_closed (by simp)).trans hc
    obtain ⟨hpending, hstage, hscheduled⟩ := ih hc'
    refine ⟨hpending.trans ?_, hstage, fun hs => hscheduled ?_⟩
    · simp only [State.pending?, reported, step, System.step, Queue.add_of_open hc,
        Table.get?_insert, List.filter_cons, decide_eq_true_eq]
      split
      · rw [List.getLast?_cons]
        cases ((changes.filter fun c => c.key = key).getLast?) <;> rfl
      · rfl
    · exact System.unscheduled_step hs (by simp)

/-! ### The next change of a key -/

/-- The change is the next one of its key: it is pending while the key is not in hand, or the worker
has just taken it. -/
def State.Next (s : State) (key : String) (c : Change) : Prop :=
  s.pending? key = some c ∧ s.stage.key? ≠ some key ∨
    ∃ x : Numbered Change, s.stage = .taken key x ∧ x.payload = c

/-- Only changes that are added are told to the queue as such. -/
theorem command?_ne_add {a : Action.{u}} (ha : ∀ k c, a ≠ .add k c)
    {b : Queue.Action (Numbered Change)} (hb : s.command? a = some b) (k : String)
    (x : Numbered Change) : b ≠ .add k x := by
  rintro rfl
  cases a with
  | add k c => exact ha k c rfl
  | process world t => cases hb
  | fire place | close => cases hb
  | take | report | finish =>
    simp only [State.command?] at hb
    split at hb
    · next hs =>
      first
      | cases hb
      | obtain ⟨he, -⟩ | he := ending_cases s _ _ _ <;> rw [he] at hb <;> cases hb
    · cases hb

/-- Only a worker without a key asks for one. -/
theorem idle_of_get {a : Action.{u}} (h : s.command? a = some .get) :
    s.stage = .idle ∧ a = .take := by
  cases hs : s.stage with
  | idle => cases a <;> simp [State.command?, hs] at h ⊢
  | processed key x failed =>
    obtain ⟨he, -⟩ | he := ending_cases s key x failed <;>
      cases a <;> simp [State.command?, hs, he] at h
  | taken | told => cases a <;> simp [State.command?, hs] at h

/-- A change stays pending until a newer one is added, or the worker takes it. -/
theorem pending?_step {c : Change} (hp : s.pending? key = some c) {a : Action.{u}}
    (ha : ∀ k d, a ≠ .add k d) :
    (f.step s a).pending? key = some c ∧
        (s.command? a = some .get → (s.system.hands .get).map Prod.fst ≠ some key) ∨
      s.command? a = some .get ∧ ∃ x, s.system.hands .get = some (key, x) ∧ x.payload = c := by
  obtain ⟨x, hx, rfl⟩ := Option.map_eq_some_iff.1 hp
  cases hb : s.command? a with
  | none =>
    refine .inl ⟨?_, nofun⟩
    rw [State.pending?, system_step_of_none hb]
    exact hp
  | some b =>
    obtain ⟨hkept, hnot⟩ | hh :=
      System.pending_step f.backoff hx fun newer => command?_ne_add ha hb key newer
    · refine .inl ⟨?_, ?_⟩
      · rw [State.pending?, system_step_of_command hb, hkept]
        rfl
      · rintro ⟨⟩
        exact hnot
    · obtain ⟨rfl, -⟩ := System.hands_some hh
      exact .inr ⟨rfl, x, hh, rfl⟩

/-- With a key in hand the worker takes no other, and it takes none but by asking. -/
theorem pending?_step_of_quiet {c : Change} (hp : s.pending? key = some c) {a : Action.{u}}
    (hs : s.stage ≠ .idle ∨ a ≠ .take) (ha : ∀ k d, a ≠ .add k d) :
    (f.step s a).pending? key = some c := by
  obtain ⟨hkept, -⟩ | ⟨hget, -⟩ := pending?_step (f := f) hp ha
  · exact hkept
  · obtain ⟨hidle, htake⟩ := idle_of_get hget
    rcases hs with hs | hs
    · exact absurd hidle hs
    · exact absurd htake hs

/-- The next change of a key stays so until the worker processes it or a newer one is added. -/
theorem State.Next.step {c : Change} (h : s.Next key c) {a : Action.{u}}
    (ha : ∀ k d, a ≠ .add k d) :
    (f.step s a).Next key c ∨
      a.isProcess = true ∧ ∃ x, s.stage = .taken key x ∧ x.payload = c := by
  cases turn f s a with
  | stays stage attempts others =>
    refine .inl ?_
    obtain ⟨hp, hk⟩ | ⟨x, hx, rfl⟩ := h
    · obtain ⟨hkept, -⟩ | ⟨hget, -⟩ := pending?_step (f := f) hp ha
      · exact .inl ⟨hkept, by rwa [stage]⟩
      · obtain ⟨_, _, h⟩ | ⟨_, h⟩ | ⟨-, h⟩ := others _ hget <;> cases h
    · exact .inr ⟨x, stage.trans hx, rfl⟩
  | takes before command after attempts =>
    obtain ⟨hp, -⟩ | ⟨x, hx, -⟩ := h
    · obtain ⟨hkept, hnot⟩ | ⟨-, x, hh, rfl⟩ := pending?_step (f := f) hp ha
      · refine .inl (.inl ⟨hkept, ?_⟩)
        have hne := hnot command
        rw [after]
        cases hh : s.system.hands .get with
        | none => simp [Stage.key?]
        | some item => simpa [hh, Stage.key?] using hne
      · exact .inl (.inr ⟨x, by rw [after, hh]; rfl, rfl⟩)
    · rw [before] at hx
      cases hx
  | processes attempt before command after attempts =>
    obtain ⟨hp, hk⟩ | ⟨x, hx, rfl⟩ := h
    · rw [before] at hk
      have hkept := pending?_step_of_quiet (f := f) hp (.inl (by simp [before])) ha
      exact .inl (.inl ⟨hkept, by rw [after]; exact hk⟩)
    · refine .inr ⟨?_, x, hx, rfl⟩
      cases a with
      | process world t => rfl
      | _ => simp [Shift.step, hx] at after
  | reports k x failed action before command after attempts =>
    obtain ⟨hp, hk⟩ | ⟨x, hx, -⟩ := h
    · rw [before] at hk
      have hkept := pending?_step_of_quiet (f := f) hp (.inl (by simp [before])) ha
      exact .inl (.inl ⟨hkept, by rw [after]; exact hk⟩)
    · rw [before] at hx
      cases hx
  | finishes k before command after attempts =>
    obtain ⟨hp, -⟩ | ⟨x, hx, -⟩ := h
    · have hkept := pending?_step_of_quiet (f := f) hp (.inl (by simp [before])) ha
      exact .inl (.inl ⟨hkept, by simp [after, Stage.key?]⟩)
    · rw [before] at hx
      cases hx

/-! ### A key that does not fail -/

/-- No attempt at the key has failed, and the changes of it that are pending or taken have a
property. -/
structure Smooth (key : String) (p : Change → Prop) (s : State) : Prop where
  steady : Steady s
  unscheduled : s.system.queue.scheduled.get? key = none
  pending : ∀ c, s.pending? key = some c → p c
  taken : ∀ x : Numbered Change, s.stage = .taken key x → p x.payload
  succeeded : ∀ x failed, s.stage = .processed key x failed → failed = false

variable {p : Change → Prop}

/-- While no key is in hand only what is pending counts. -/
theorem smooth_of_free (hsteady : Steady s) (hfree : s.stage.key? = none)
    (hunscheduled : s.system.queue.scheduled.get? key = none)
    (hpending : ∀ c, s.pending? key = some c → p c) : Smooth key p s where
  steady := hsteady
  unscheduled := hunscheduled
  pending := hpending
  taken x hx := by
    rw [hx] at hfree
    cases hfree
  succeeded x failed hx := by
    rw [hx] at hfree
    cases hfree

theorem smooth_start (key : String) (p : Change → Prop) : Smooth key p start := by
  refine smooth_of_free steady_start rfl rfl fun c hc => ?_
  rw [State.pending?, show start.system.queue.pending = .empty from rfl, Table.get?_empty] at hc
  cases hc

/-- Of such a key no retry is scheduled, and so nothing comes back. -/
theorem Smooth.unscheduled_step (h : Smooth key p s) (a : Action.{u}) :
    (f.step s a).system.queue.scheduled.get? key = none := by
  cases hb : s.command? a with
  | none =>
    rw [system_step_of_none hb]
    exact h.unscheduled
  | some b =>
    rw [system_step_of_command hb]
    refine System.unscheduled_step h.unscheduled ?_
    rintro x rfl
    cases turn f s a with
    | stays stage attempts others => obtain ⟨_, _, h⟩ | ⟨_, h⟩ | ⟨-, h⟩ := others _ hb <;> cases h
    | takes before command after attempts => cases hb.symm.trans command
    | processes attempt before command after attempts => cases hb.symm.trans command
    | finishes k before command after attempts => cases hb.symm.trans command
    | reports k y failed action before command after attempts =>
      obtain ⟨he, hfailed⟩ | he := ending_cases s k y failed
      · rw [he] at command
        cases hb.symm.trans command
        cases (h.succeeded _ failed before).symm.trans hfailed
      · rw [he] at command
        cases hb.symm.trans command

theorem Smooth.step (h : Smooth key p s) {a : Action.{u}} (hadd : ∀ k c, a ≠ .add k c)
    (hclose : a ≠ .close)
    (hsucceeds : ∀ x failed, s.stage = .taken key x →
      (f.step s a).stage = .processed key x failed → failed = false) :
    Smooth key p (f.step s a) where
  steady := h.steady.step hclose
  unscheduled := h.unscheduled_step a
  pending c hc := by
    obtain ⟨x, hx, rfl⟩ := Option.map_eq_some_iff.1 hc
    refine h.pending _ ?_
    cases hb : s.command? a with
    | none => rwa [State.pending?, system_step_of_none hb] at hc
    | some b =>
      rw [system_step_of_command hb] at hx
      have hold := System.pending_of_unscheduled h.unscheduled
        (command?_ne_add hadd hb key x) hx
      rw [State.pending?, hold]
      rfl
  taken x hx := by
    cases turn f s a with
    | stays stage attempts others => exact h.taken x (stage.symm.trans hx)
    | takes before command after attempts =>
      rw [after] at hx
      cases hh : s.system.hands .get with
      | none =>
        rw [hh] at hx
        cases hx
      | some item =>
        rw [hh] at hx
        cases hx
        have hp := (System.hands_some hh).2.2
        exact h.pending _ (by rw [State.pending?, hp]; rfl)
    | processes attempt before command after attempts => cases after.symm.trans hx
    | reports k y failed action before command after attempts => cases after.symm.trans hx
    | finishes k before command after attempts => cases after.symm.trans hx
  succeeded x failed hx := by
    cases turn f s a with
    | stays stage attempts others => exact h.succeeded x failed (stage.symm.trans hx)
    | takes before command after attempts =>
      rw [after] at hx
      cases hh : s.system.hands .get <;> rw [hh] at hx <;> cases hx
    | processes attempt before command after attempts =>
      refine hsucceeds x failed ?_ hx
      cases after.symm.trans hx
      exact before
    | reports k y failed action before command after attempts => cases after.symm.trans hx
    | finishes k before command after attempts => cases after.symm.trans hx

theorem Smooth.quiet (h : Smooth key p s) {a : Action.{u}} (hadd : ∀ k c, a ≠ .add k c)
    (hclose : a ≠ .close) (hquiet : a.isProcess = false) : Smooth key p (f.step s a) := by
  refine h.step hadd hclose fun x failed hx hy => ?_
  cases a with
  | process world t => cases hquiet
  | _ => simp [Shift.step, hx] at hy

/-! ### Whole turns -/

/-- A key of which nothing is pending does not join the line when it is settled. -/
theorem ready_settle {q : Queue (Numbered Change)} (hc : q.closed = false)
    (hp : q.pending.has key = false) (backoff : Backoff) (failed : Bool) :
    (q.settle backoff key failed).2.ready = q.ready := by
  unfold settle
  split <;> simp [retry_of_open hc, done, forget, hp]

/-- A whole turn of the worker. -/
def turnIn {σ : Type u} (world : World σ) (t : σ) : List Action.{u} :=
  [.take, .process world t, .report, .finish]

theorem step_take_of_ne_idle (hs : s.stage ≠ .idle) : f.step s .take.{u} = s := by
  cases hstage : s.stage with
  | idle => exact absurd hstage hs
  | _ => simp only [step, hstage]

/-- A worker that has a key ends its turn, and what is pending stays so. -/
theorem run_turnIn_of_ne_idle (hs : s.stage ≠ .idle) {σ : Type u} (world : World σ) (t : σ) :
    (f.run s (turnIn world t)).stage = .idle ∧
      ∀ key c, s.pending? key = some c → (f.run s (turnIn world t)).pending? key = some c := by
  have hrun : f.run s (turnIn world t) = f.run s [.process world t, .report, .finish] := by
    rw [turnIn, run, List.foldl_cons, step_take_of_ne_idle hs]
    rfl
  rw [hrun]
  refine ⟨(idle_of_steps f s world t).1, fun key c hp => ?_⟩
  have hprocess : (f.step s (.process world t)).pending? key = some c :=
    pending?_step_of_quiet hp (.inr (by simp)) (by simp)
  have hreport : (f.step (f.step s (.process world t)) .report.{u}).pending? key = some c :=
    pending?_step_of_quiet hprocess (.inr (by simp)) (by simp)
  exact pending?_step_of_quiet (a := .finish.{u}) hreport (.inr (by simp)) (by simp)

/-- A whole turn takes the first key of the line. -/
theorem Steady.turn (h : Steady s) (hidle : s.stage = .idle) {keys : List String}
    (hr : s.system.queue.ready = key :: keys) {σ : Type u} (world : World σ) (t : σ) :
    (∃ x, (f.step s .take.{u}).stage = .taken key x) ∧
      (f.run s (turnIn world t)).stage = .idle ∧
      (f.run s (turnIn world t)).system.queue.ready = keys := by
  obtain ⟨x, hp⟩ := h.inLine.pending_head hr
  have hg := Queue.get_of_ready h.isOpen hr hp
  have htake : f.step s .take.{u} = { s with
      system := s.system.step f.backoff .get
      stage := .taken key x } := by
    simp only [Shift.step, hidle, System.hands, hg, Taken.item?, Option.map_some, Option.getD_some]
  have hstage : (f.step s .take.{u}).stage = .taken key x := by rw [htake]
  obtain ⟨posted, -, hprocess⟩ := exists_step_process f hstage world t
  refine ⟨⟨x, hstage⟩, ?_⟩
  rw [show f.run s (turnIn world t) =
    f.run (f.step (f.step s .take) (.process world t)) [.report, .finish] from rfl, hprocess, htake]
  refine ⟨rfl, ?_⟩
  rw [queue_settled rfl]
  simp only [System.step, hg]
  refine ready_settle ?_ ?_ _ _
  · exact h.isOpen
  · simp [Table.has_erase]

end Shift

end ClusterHerald
