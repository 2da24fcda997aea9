import ClusterHerald.Proofs.Queue.Closing
import ClusterHerald.Queue.Shared

/-!
# Getters of a queue

What the operations of a shared queue do to each getter.  While others act, a getter stays where it
is, but it may get a signal (`SharedQueue.Nudges`).  Who has asked for a wake-up and has none is in
line (`SharedQueue.Lined`), so closing the queue reaches every getter that waits.  From then on
nobody waits without a signal (`SharedQueue.Dismissed`), and every getter comes to its end.

* `SharedQueue.Lined.step`, `SharedQueue.Lined.update`, `SharedQueue.Lined.cancel` : no getter that
  is still to be woken gets out of line;
* `SharedQueue.Lined.dismissed_close` : closing the queue wakes everybody;
* `SharedQueue.Dismissed.step` : a step brings a getter of a closed queue nearer to its end.
-/

namespace ClusterHerald

universe u

variable {α : Type u}

namespace Stage

/-- What a getter has been told that has not finished asking. -/
def signal? : Stage α → Option Signal
  | .registered signal | .waiting signal => some signal
  | .entering | .finished _ => none

/-- The stage with another signal. -/
def told (signal : Signal) : Stage α → Stage α
  | .registered _ => .registered signal
  | .waiting _ => .waiting signal
  | .entering => .entering
  | .finished item => .finished item

/-- How many steps a getter of a closed queue takes until it is finished. -/
def turns : Stage α → Nat
  | .waiting _ => 3
  | .entering => 2
  | .registered _ => 1
  | .finished _ => 0

@[simp] theorem turns_told (signal : Signal) (stage : Stage α) :
    (stage.told signal).turns = stage.turns := by
  cases stage <;> rfl

@[simp] theorem told_told (signal signal' : Signal) (stage : Stage α) :
    (stage.told signal).told signal' = stage.told signal' := by
  cases stage <;> rfl

theorem signal?_told (signal : Signal) (stage : Stage α) :
    (stage.told signal).signal? = stage.signal?.map fun _ => signal := by
  cases stage <;> rfl

theorem told_eq_finished_iff {signal : Signal} {stage : Stage α} {item : Option (String × α)} :
    stage.told signal = .finished item ↔ stage = .finished item := by
  cases stage <;> simp [told]

end Stage

namespace SharedQueue

variable {s : SharedQueue α} {g h : Nat}

/-! ### What the operations do -/

theorem lookup_map_replace {β : Type u} (es : List (Nat × β)) (g h : Nat) (v : β) :
    (es.map fun e => if e.1 = g then (g, v) else e).lookup h =
      if g = h then (es.lookup g).map fun _ => v else es.lookup h := by
  induction es with
  | nil => simp
  | cons e es ih =>
    obtain ⟨k, w⟩ := e
    rw [List.map_cons]
    by_cases hk : k = g
    · subst hk
      by_cases hh : k = h
      · subst hh; simp
      · have : (h == k) = false := by simp [Ne.symm hh]
        simp [List.lookup_cons, this, ih, hh]
    · have hkg : (g == k) = false := by simp [Ne.symm hk]
      rw [if_neg hk, List.lookup_cons, ih, List.lookup_cons, List.lookup_cons, hkg]
      by_cases hh : g = h
      · subst hh; simp [hkg]
      · cases hhk : h == k <;> simp [hh]

theorem stage?_setStage (s : SharedQueue α) (g h : Nat) (stage : Stage α) :
    (s.setStage g stage).stage? h =
      if g = h then (s.stage? g).map fun _ => stage else s.stage? h :=
  lookup_map_replace s.getters g h stage

theorem stage?_tell (s : SharedQueue α) (g h : Nat) (signal : Signal) :
    (s.tell g signal).stage? h =
      if g = h then (s.stage? g).map (Stage.told signal) else s.stage? h := by
  unfold tell
  split
  · next hg => rw [stage?_setStage, hg]; rfl
  · next hg => rw [stage?_setStage, hg]; rfl
  · next hr hw =>
    split
    · next hgh =>
      subst hgh
      rcases hg : s.stage? g with _ | (_ | signal | signal | item)
      · rfl
      · rfl
      · exact absurd hg (hr signal)
      · exact absurd hg (hw signal)
      · rfl
    · rfl

@[simp] theorem queue_setStage (s : SharedQueue α) (g : Nat) (stage : Stage α) :
    (s.setStage g stage).queue = s.queue := rfl

@[simp] theorem queue_tell (s : SharedQueue α) (g : Nat) (signal : Signal) :
    (s.tell g signal).queue = s.queue := by
  unfold tell
  split <;> rfl

@[simp] theorem line_tell (s : SharedQueue α) (g : Nat) (signal : Signal) :
    (s.tell g signal).line = s.line := by
  unfold tell
  split <;> rfl

theorem stage?_wakeOne (s : SharedQueue α) (h : Nat) :
    s.wakeOne.stage? h =
      if s.line.head? = some h then (s.stage? h).map (Stage.told .one) else s.stage? h := by
  unfold wakeOne
  cases hl : s.line with
  | nil => rfl
  | cons g rest =>
    rw [stage?_tell]
    by_cases hg : g = h
    · subst hg; simp [stage?]
    · simp [hg, stage?]

@[simp] theorem queue_wakeOne (s : SharedQueue α) : s.wakeOne.queue = s.queue := by
  unfold wakeOne
  cases s.line <;> simp

@[simp] theorem line_wakeOne (s : SharedQueue α) : s.wakeOne.line = s.line.tail := by
  unfold wakeOne
  cases s.line <;> simp

theorem stage?_foldl_tell (signal : Signal) (gs : List Nat) (s : SharedQueue α) (h : Nat) :
    (gs.foldl (fun s g => s.tell g signal) s).stage? h =
      if h ∈ gs then (s.stage? h).map (Stage.told signal) else s.stage? h := by
  induction gs generalizing s with
  | nil => rfl
  | cons g gs ih =>
    rw [List.foldl_cons, ih, stage?_tell]
    by_cases hg : g = h
    · subst hg
      cases s.stage? g <;> simp
    · simp [hg, Ne.symm hg]

theorem stage?_wakeAll (s : SharedQueue α) (h : Nat) :
    s.wakeAll.stage? h =
      if h ∈ s.line then (s.stage? h).map (Stage.told .all) else s.stage? h :=
  stage?_foldl_tell .all s.line _ h

@[simp] theorem queue_wakeAll (s : SharedQueue α) : s.wakeAll.queue = s.queue := by
  have hfold (gs : List Nat) (t : SharedQueue α) :
      (gs.foldl (fun s g => s.tell g .all) t).queue = t.queue := by
    induction gs generalizing t with
    | nil => rfl
    | cons g gs ih => rw [List.foldl_cons, ih, queue_tell]
  exact hfold s.line _

@[simp] theorem queue_update (s : SharedQueue α) (f : Queue α → Queue α) :
    (s.update f).queue = f s.queue := by
  simp only [update]
  split <;> simp

@[simp] theorem queue_close (s : SharedQueue α) : s.close.queue = s.queue.close := by
  simp [close]

@[simp] theorem queue_unregister (s : SharedQueue α) (g : Nat) (signal : Signal) :
    (s.unregister g signal).queue = s.queue := by
  cases signal <;> simp [unregister]

@[simp] theorem queue_register (s : SharedQueue α) (g : Nat) : (s.register g).queue = s.queue := by
  unfold register
  split <;> rfl

@[simp] theorem queue_ask (s : SharedQueue α) (g : Nat) (signal : Signal) :
    (s.ask g signal).queue = s.queue.get.2 := by
  unfold ask
  split <;> simp [*]

@[simp] theorem queue_cancel (s : SharedQueue α) (g : Nat) : (s.cancel g).queue = s.queue := by
  unfold cancel
  simp only
  split <;> simp

theorem stage?_enter (s : SharedQueue α) (g h : Nat) :
    (s.enter g).stage? h = (s.stage? h).or (if g = h then some .entering else none) := by
  simp only [enter, stage?, List.lookup_append, List.lookup_cons, List.lookup_nil]
  by_cases hg : g = h
  · simp [hg]
  · have : (h == g) = false := by simp [Ne.symm hg]
    simp [hg, this]

/-! ### Getters while others act -/

/-- A getter stays where it is, but may get a signal. -/
def Nudges (s s' : SharedQueue α) (h : Nat) : Prop :=
  s'.stage? h = s.stage? h ∨
    ∃ signal, signal ≠ .none ∧ s'.stage? h = (s.stage? h).map (Stage.told signal)

theorem nudges_wakeOne (s : SharedQueue α) (h : Nat) : s.Nudges s.wakeOne h := by
  unfold Nudges
  rw [stage?_wakeOne]
  split
  · exact .inr ⟨.one, nofun, rfl⟩
  · exact .inl rfl

theorem nudges_update (s : SharedQueue α) (f : Queue α → Queue α) (h : Nat) :
    s.Nudges (s.update f) h := by
  simp only [update]
  split
  · exact nudges_wakeOne { s with queue := f s.queue } h
  · exact .inl rfl

theorem nudges_close (s : SharedQueue α) (h : Nat) : s.Nudges s.close h := by
  unfold Nudges
  rw [close, stage?_wakeAll]
  split
  · exact .inr ⟨.all, nofun, rfl⟩
  · exact .inl rfl

theorem nudges_unregister (s : SharedQueue α) (g h : Nat) (signal : Signal) :
    s.Nudges (s.unregister g signal) h := by
  cases signal with
  | one => exact nudges_wakeOne s h
  | _ => exact .inl rfl

/-! ### Who is still to be woken -/

/-- A getter that has asked for a wake-up and got none is in line. -/
def Lined (s : SharedQueue α) : Prop :=
  ∀ g stage, s.stage? g = some stage → stage.signal? = some .none → g ∈ s.line

theorem lined_empty : (empty : SharedQueue α).Lined := nofun

theorem Lined.setStage (hl : s.Lined) {stage : Stage α}
    (hs : stage.signal? = some .none → g ∈ s.line) : (s.setStage g stage).Lined := by
  intro h st hst hsignal
  rw [stage?_setStage] at hst
  split at hst
  · next hgh =>
    obtain ⟨_, -, rfl⟩ := Option.map_eq_some_iff.1 hst
    exact hgh ▸ hs hsignal
  · exact hl h st hst hsignal

theorem Lined.wakeOne (hl : s.Lined) : s.wakeOne.Lined := by
  intro h st hst hsignal
  rw [stage?_wakeOne] at hst
  rw [line_wakeOne]
  split at hst
  · obtain ⟨st', -, rfl⟩ := Option.map_eq_some_iff.1 hst
    rw [Stage.signal?_told] at hsignal
    cases hs : st'.signal? <;> simp [hs] at hsignal
  · next hne =>
    have hmem := hl h st hst hsignal
    cases hline : s.line with
    | nil =>
      rw [hline] at hmem
      cases hmem
    | cons g rest =>
      rw [hline] at hmem hne
      exact (List.mem_cons.1 hmem).resolve_left fun he => hne (by rw [he]; rfl)

theorem Lined.update (hl : s.Lined) (f : Queue α → Queue α) : (s.update f).Lined := by
  simp only [SharedQueue.update]
  split
  · exact wakeOne (s := { s with queue := f s.queue }) hl
  · exact hl

/-- Closing the queue gives a signal to everybody who waits for one. -/
theorem Lined.signal_ne_none_of_close (hl : s.Lined) {stage : Stage α}
    (hg : s.close.stage? g = some stage) : stage.signal? ≠ some .none := by
  intro hsignal
  rw [close, stage?_wakeAll] at hg
  split at hg
  · obtain ⟨st, -, rfl⟩ := Option.map_eq_some_iff.1 hg
    rw [Stage.signal?_told] at hsignal
    cases hs : st.signal? <;> simp [hs] at hsignal
  · next hout => exact hout (hl g stage hg hsignal)

theorem Lined.close (hl : s.Lined) : s.close.Lined :=
  fun _ _ hg hsignal => absurd hsignal (hl.signal_ne_none_of_close hg)

theorem Lined.enter (hl : s.Lined) (g : Nat) : (s.enter g).Lined := by
  intro h st hst hsignal
  rw [stage?_enter, Option.or_eq_some_iff] at hst
  obtain hold | ⟨-, hnew⟩ := hst
  · exact hl h st hold hsignal
  · split at hnew
    · cases hnew
      cases hsignal
    · cases hnew

theorem Lined.unregister (hl : s.Lined) (signal : Signal)
    (hg : ∀ stage, s.stage? g = some stage → stage.signal? ≠ some .none) :
    (s.unregister g signal).Lined := by
  cases signal with
  | none =>
    intro h st hst hsignal
    have hne : h ≠ g := by
      rintro rfl
      exact hg st hst hsignal
    exact (List.mem_erase_of_ne hne).2 (hl h st hst hsignal)
  | one => exact hl.wakeOne
  | permit | all => exact hl

theorem Lined.register (hl : s.Lined) (g : Nat) : (s.register g).Lined := by
  unfold SharedQueue.register
  split
  · exact setStage (s := { s with permit := false }) hl nofun
  · refine setStage (s := { s with line := s.line ++ [g] }) (fun h st hst hsignal => ?_) fun _ => ?_
    · exact List.mem_append_left _ (hl h st hst hsignal)
    · exact List.mem_append_right _ List.mem_cons_self

theorem Lined.ask (hl : s.Lined) {signal : Signal}
    (hg : s.stage? g = some (.registered signal)) : (s.ask g signal).Lined := by
  have finish (q : Queue α) (item : Option (String × α)) :
      (({ s with queue := q }.setStage g (.finished item)).unregister g signal).Lined := by
    have hover : (Stage.finished item).signal? ≠ some .none := nofun
    have hset : ({ s with queue := q }.setStage g (.finished item)).Lined :=
      setStage (s := { s with queue := q }) hl fun h => absurd h hover
    refine hset.unregister signal fun stage hst => ?_
    rw [stage?_setStage, if_pos rfl] at hst
    obtain ⟨_, -, rfl⟩ := Option.map_eq_some_iff.1 hst
    exact hover
  unfold SharedQueue.ask
  split
  · exact finish _ _
  · exact finish _ _
  · next q _ =>
    refine setStage (s := { s with queue := q }) hl fun hsignal => hl g _ hg hsignal

theorem Lined.step (hl : s.Lined) {s' : SharedQueue α} (hs : s.step g = some s') : s'.Lined := by
  unfold SharedQueue.step at hs
  split at hs
  · cases hs
    exact hl.register g
  · next hg =>
    cases hs
    exact hl.ask hg
  · cases hs
  · cases hs
    exact hl.setStage nofun
  · cases hs
  · cases hs

/-- The queue without a getter. -/
def without (s : SharedQueue α) (g : Nat) : SharedQueue α :=
  { s with getters := s.getters.filter fun e => e.1 ≠ g }

theorem stage?_without (s : SharedQueue α) (g h : Nat) :
    (s.without g).stage? h = if g = h then none else s.stage? h := by
  rw [stage?, without, lookup_filter_key (· ≠ g)]
  simp [stage?, ite_not, @eq_comm _ h]

theorem cancel_cases (s : SharedQueue α) (g : Nat) :
    s.cancel g = s.without g ∨ ∃ signal, s.cancel g = (s.without g).unregister g signal := by
  simp only [cancel]
  split
  · exact .inr ⟨_, rfl⟩
  · exact .inr ⟨_, rfl⟩
  · exact .inl rfl

theorem Lined.without (hl : s.Lined) (g : Nat) : (s.without g).Lined := by
  intro h st hst hsignal
  rw [stage?_without] at hst
  split at hst
  · cases hst
  · exact hl h st hst hsignal

theorem Lined.cancel (hl : s.Lined) (g : Nat) : (s.cancel g).Lined := by
  obtain he | ⟨signal, he⟩ := s.cancel_cases g <;> rw [he]
  · exact hl.without g
  · refine (hl.without g).unregister signal fun stage hst => ?_
    rw [stage?_without, if_pos rfl] at hst
    cases hst

/-! ### Getters of a closed queue -/

/-- The queue is closed, and nobody waits without a signal. -/
structure Dismissed (s : SharedQueue α) : Prop where
  closed : s.queue.closed = true
  awake : ∀ g, s.stage? g ≠ some (.waiting .none)

theorem Lined.dismissed_close (hl : s.Lined) : s.close.Dismissed :=
  ⟨by rw [queue_close]; rfl, fun _ hg => hl.signal_ne_none_of_close hg rfl⟩

theorem Nudges.awake {s' : SharedQueue α} (hn : s.Nudges s' g)
    (hs : s.stage? g ≠ some (.waiting .none)) : s'.stage? g ≠ some (.waiting .none) := by
  obtain he | ⟨signal, hsignal, he⟩ := hn
  · rwa [he]
  · rw [he]
    intro hw
    obtain ⟨stage, -, htold⟩ := Option.map_eq_some_iff.1 hw
    cases stage <;> simp [Stage.told] at htold
    exact hsignal htold

theorem Nudges.of_eq {s' s'' : SharedQueue α} (he : s'.stage? h = s.stage? h)
    (hn : s'.Nudges s'' h) : s.Nudges s'' h := by
  unfold Nudges at hn ⊢
  rwa [he] at hn

/-- A signal does not bring a getter nearer to its end. -/
theorem Nudges.stage {s' : SharedQueue α} (hn : s.Nudges s' h) {stage : Stage α}
    (hs : s.stage? h = some stage) :
    ∃ stage', s'.stage? h = some stage' ∧ stage'.turns = stage.turns ∧
      ∀ item, stage' = .finished item ↔ stage = .finished item := by
  obtain he | ⟨signal, -, he⟩ := hn
  · exact ⟨stage, by rw [he, hs], rfl, fun _ => Iff.rfl⟩
  · refine ⟨stage.told signal, by rw [he, hs]; rfl, stage.turns_told signal, fun item => ?_⟩
    exact Stage.told_eq_finished_iff

theorem stage?_setStage_self (s : SharedQueue α) {stage : Stage α} (hs : s.stage? g = some stage)
    (stage' : Stage α) : (s.setStage g stage').stage? g = some stage' := by
  rw [stage?_setStage, if_pos rfl, hs]
  rfl

theorem stage?_setStage_ne (s : SharedQueue α) (hne : g ≠ h) (stage : Stage α) :
    (s.setStage g stage).stage? h = s.stage? h := by
  rw [stage?_setStage, if_neg hne]

/-- What asking a closed queue comes to. -/
theorem ask_of_closed (hc : s.queue.closed = true) (g : Nat) (signal : Signal) :
    s.ask g signal = (s.setStage g (.finished none)).unregister g signal := by
  simp only [ask, Queue.get_of_closed hc]

theorem turns_ne_zero_of_step {s' : SharedQueue α} (hs : s.step g = some s') :
    ∃ stage, s.stage? g = some stage ∧ stage.turns ≠ 0 := by
  unfold step at hs
  split at hs
  · next hg => exact ⟨_, hg, Nat.succ_ne_zero _⟩
  · next hg => exact ⟨_, hg, Nat.succ_ne_zero _⟩
  · cases hs
  · next hg => exact ⟨_, hg, Nat.succ_ne_zero _⟩
  · cases hs
  · cases hs

/-- A step brings a getter of a closed queue nearer to its end, where it gets nothing. -/
theorem Dismissed.step (hd : s.Dismissed) {stage : Stage α} (hg : s.stage? g = some stage)
    (hopen : stage.turns ≠ 0) :
    ∃ s', s.step g = some s' ∧ (∃ stage', s'.stage? g = some stage' ∧
      stage'.turns + 1 = stage.turns ∧ ∀ item, stage' = .finished item → item = none) ∧
      ∀ h, g ≠ h → s.Nudges s' h := by
  cases stage with
  | entering =>
    refine ⟨s.register g, by rw [SharedQueue.step, hg], ?_⟩
    unfold register
    split
    · exact ⟨⟨_, stage?_setStage_self _ hg _, rfl, nofun⟩,
        fun h hne => .inl (stage?_setStage_ne _ hne _)⟩
    · exact ⟨⟨_, stage?_setStage_self _ hg _, rfl, nofun⟩,
        fun h hne => .inl (stage?_setStage_ne _ hne _)⟩
  | registered signal =>
    refine ⟨s.ask g signal, by rw [SharedQueue.step, hg], ?_⟩
    rw [ask_of_closed hd.closed]
    have hself := stage?_setStage_self s hg (.finished none)
    constructor
    · obtain ⟨stage', hstage, hturns, hiff⟩ := (nudges_unregister _ g g signal).stage hself
      refine ⟨stage', hstage, by rw [hturns]; rfl, fun item hitem => ?_⟩
      cases (hiff item).1 hitem
      rfl
    · intro h hne
      exact (nudges_unregister _ g h signal).of_eq (stage?_setStage_ne s hne _)
  | waiting signal =>
    have hsignal : signal ≠ .none := fun he => hd.awake g (he ▸ hg)
    refine ⟨s.setStage g .entering, ?_, ⟨_, stage?_setStage_self _ hg _, rfl, nofun⟩,
      fun h hne => .inl (stage?_setStage_ne _ hne _)⟩
    rw [SharedQueue.step, hg]
    cases signal with
    | none => exact absurd rfl hsignal
    | _ => rfl
  | finished item => exact absurd rfl hopen

theorem nudges_cancel (s : SharedQueue α) (hne : g ≠ h) : s.Nudges (s.cancel g) h := by
  have hleft : (s.without g).stage? h = s.stage? h := by rw [stage?_without, if_neg hne]
  obtain he | ⟨signal, he⟩ := s.cancel_cases g <;> rw [he]
  · exact .inl hleft
  · exact (nudges_unregister _ g h signal).of_eq hleft

theorem stage?_cancel_self (s : SharedQueue α) (g : Nat) : (s.cancel g).stage? g = none := by
  have hleft : (s.without g).stage? g = none := by rw [stage?_without, if_pos rfl]
  obtain he | ⟨signal, he⟩ := s.cancel_cases g <;> rw [he]
  · exact hleft
  · obtain he | ⟨_, -, he⟩ := nudges_unregister (s.without g) g g signal <;> rw [he, hleft]
    rfl

end SharedQueue

end ClusterHerald
