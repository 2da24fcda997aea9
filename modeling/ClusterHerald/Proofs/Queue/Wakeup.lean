import ClusterHerald.Proofs.Queue.Standing

/-!
# No wake-up is lost

A key that becomes ready wakes one getter, and a permit is all that is kept of any number of
wake-ups for which nobody was in line.  Still no key is left ready while a getter waits for one.

What carries this is a count.  A getter that is still going to ask stands for one ready key, and a
wake-up of its own, which it hands on when it leaves, for one more (`Stage.worth`).  As long as
somebody waits for a wake-up, the getters together stand for every ready key
(`SharedQueue.Covered`): a key that becomes ready then wakes somebody, a getter that leaves with a
key takes that key with it, and a getter that is left waiting has found no key.  The permit needs no
account, since it is taken before anybody joins the line.

* `SharedQueue.Covered.step`, `SharedQueue.Covered.update`, `SharedQueue.Covered.cancel` : what the
  operations do to the count;
* `SharedQueue.effort_step` : getters do not go round for ever;
* `Crowd.waits_only_for_nothing` : what follows for every crowd.
-/

namespace ClusterHerald

open Queue (Retry System)

universe u

variable {α : Type u}

/-- How many wake-ups a getter hands on when it leaves. -/
def Signal.handedOn : Signal → Nat
  | .one => 1
  | .none | .permit | .all => 0

namespace Stage

/-- How many ready keys a getter stands for. -/
def worth : Stage α → Nat
  | .entering => 1
  | .registered .one => 2
  | .registered _ => 1
  | .waiting .one => 1
  | .waiting _ => 0
  | .finished _ => 0

/-- A bound for the steps that a getter may take until it waits or is finished. -/
def effort : Stage α → Nat
  | .entering => 2
  | .registered .none => 1
  | .registered _ => 4
  | .waiting .none => 0
  | .waiting _ => 3
  | .finished _ => 0

/-- The getter waits. -/
def isWaiting : Stage α → Bool
  | .waiting _ => true
  | _ => false

theorem worth_registered (signal : Signal) :
    (registered signal : Stage α).worth = signal.handedOn + 1 := by
  cases signal <;> rfl

theorem worth_waiting (signal : Signal) : (waiting signal : Stage α).worth = signal.handedOn := by
  cases signal <;> rfl

theorem worth_told_one {stage : Stage α} (h : stage.signal? = some .none) :
    (stage.told .one).worth = stage.worth + 1 := by
  cases stage <;> cases h <;> rfl

theorem effort_told_one {stage : Stage α} (h : stage.signal? = some .none) :
    (stage.told .one).effort = stage.effort + 3 := by
  cases stage <;> cases h <;> rfl

end Stage

/-! ### Keys that become ready -/

namespace Queue

variable {q : Queue α}

theorem length_ready_push (q : Queue α) (key : String) (payload : α) :
    (q.push key payload).ready.length ≤ q.ready.length + 1 := by
  simp only [push]
  split <;> simp

theorem length_ready_add (q : Queue α) (key : String) (payload : α) :
    (q.add key payload).ready.length ≤ q.ready.length + 1 := by
  cases hc : q.closed with
  | true => simp [add_of_closed hc]
  | false =>
    rw [add_of_open hc]
    simp only
    split <;> simp

theorem length_ready_fire (q : Queue α) (key : String) (payload : α) (generation : Nat) :
    (q.fire key payload generation).ready.length ≤ q.ready.length + 1 := by
  obtain ⟨he, -⟩ | ⟨-, -, ⟨-, he⟩ | ⟨-, he⟩⟩ := fire_cases q key payload generation <;> rw [he]
  · exact Nat.le_succ _
  · exact Nat.le_succ _
  · exact length_ready_push _ key payload

theorem length_ready_done (q : Queue α) (key : String) :
    (q.done key).ready.length ≤ q.ready.length + 1 := by
  simp only [done]
  split <;> simp

theorem length_ready_firstPending {pending : Table α} {keys rest : List String}
    {item : String × α} (h : firstPending pending keys = some (item, rest)) :
    rest.length < keys.length := by
  induction keys with
  | nil => cases h
  | cons key keys ih =>
    unfold firstPending at h
    split at h
    · cases h
      exact Nat.lt_succ_self _
    · exact Nat.lt_succ_of_lt (ih h)

/-- What is found when the queue is asked, and what is left of the line. -/
theorem get_cases (q : Queue α) :
    q.closed = true ∧ q.get = (.closed, q) ∨
      (∃ key payload q', q.get = (.item key payload, q') ∧ q'.closed = q.closed ∧
        q'.ready.length < q.ready.length) ∨
      ∃ q', q.get = (.nothing, q') ∧ q'.ready = [] := by
  cases hc : q.closed with
  | true => exact .inl ⟨rfl, get_of_closed hc⟩
  | false =>
    cases hf : firstPending q.pending q.ready with
    | none =>
      refine .inr (.inr ⟨{ q with ready := [] }, ?_, rfl⟩)
      simp [get, hc, hf]
    | some found =>
      obtain ⟨⟨key, payload⟩, rest⟩ := found
      refine .inr (.inl ⟨key, payload, { q with
        ready := rest, pending := q.pending.erase key, inHand := q.inHand.add key }, ?_, hc,
        length_ready_firstPending hf⟩)
      simp [get, hc, hf]

/-- At most one key becomes ready at a time. -/
theorem System.length_ready_step (backoff : Backoff) (s : System α) (a : Action α) :
    (s.step backoff a).queue.ready.length ≤ s.queue.ready.length + 1 := by
  cases a with
  | add key payload => exact length_ready_add s.queue key payload
  | done key => exact length_ready_done s.queue key
  | forget key | close => exact Nat.le_succ _
  | get =>
    obtain ⟨-, hget⟩ | ⟨_, _, q, hget, -, hlen⟩ | ⟨q, hget, hready⟩ := s.queue.get_cases <;>
      simp only [step, hget]
    · exact Nat.le_succ _
    · exact Nat.le_succ_of_le (Nat.le_of_lt hlen)
    · simp [hready]
  | retry key payload =>
    cases hc : s.queue.closed with
    | true => simp only [step, retry_of_closed hc]; exact Nat.le_succ _
    | false => simp only [step, retry_of_open hc]; exact Nat.le_succ _
  | fire place =>
    simp only [step]
    split
    · exact length_ready_fire _ _ _ _
    · exact Nat.le_succ _

end Queue

namespace SharedQueue

variable {s s' : SharedQueue α} {g h : Nat} {stage : Stage α}

/-! ### Ready keys and getters -/

/-- How many ready keys the getters stand for. -/
def worth (s : SharedQueue α) : Nat := s.total Stage.worth

/-- While an open queue has a getter that waits for a wake-up, the getters stand for every ready
key. -/
def Covered (s : SharedQueue α) : Prop :=
  s.queue.closed = false → (∃ g, s.stage? g = some (.waiting .none)) →
    s.queue.ready.length ≤ s.worth

theorem covered_empty : (empty : SharedQueue α).Covered := by
  rintro - ⟨g, hg⟩
  cases hg

/-- Who waits for a wake-up after one was given waited for it before, and it went to somebody
else. -/
theorem worth_wakeOne (hl : s.Lined) (hw : s.WellLined)
    (hg : s.wakeOne.stage? g = some (.waiting .none)) :
    s.stage? g = some (.waiting .none) ∧ s.wakeOne.worth = s.worth + 1 := by
  have hbefore : s.stage? g = some (.waiting .none) :=
    Classical.byContradiction fun h => (s.nudges_wakeOne g).awake h hg
  refine ⟨hbefore, hw.total_wakeOne (fun _ => Stage.worth_told_one) fun hnil => ?_⟩
  have hmem := hl g _ hbefore rfl
  rw [hnil] at hmem
  cases hmem

namespace Covered

theorem update (hc : s.Covered) (hl : s.Lined) (hw : s.WellLined) {f : Queue α → Queue α}
    (hlen : (f s.queue).ready.length ≤ s.queue.ready.length + 1)
    (hopen : (f s.queue).closed = false → s.queue.closed = false) : (s.update f).Covered := by
  simp only [SharedQueue.update]
  split
  · rintro ho ⟨g, hg⟩
    rw [queue_wakeOne] at ho ⊢
    obtain ⟨hbefore, hworth⟩ := worth_wakeOne (s := { s with queue := f s.queue }) hl
      (hw.withQueue _) hg
    have hcount := hc (hopen ho) ⟨g, hbefore⟩
    rw [hworth]
    exact Nat.le_trans hlen (Nat.succ_le_succ hcount)
  · next hgrew =>
    -- no key became ready
    rintro ho ⟨g, hg⟩
    have hcount := hc (hopen ho) ⟨g, hg⟩
    have hready : (f s.queue).ready.length ≤ s.queue.ready.length := by
      simpa [Queue.grew] using hgrew
    exact Nat.le_trans hready hcount

theorem close (s : SharedQueue α) : s.close.Covered := by
  intro ho
  rw [queue_close] at ho
  cases ho

theorem enter (hc : s.Covered) (g : Nat) : (s.enter g).Covered := by
  rintro ho ⟨h, hh⟩
  have hbefore : s.stage? h = some (.waiting .none) := by
    rw [stage?_enter, Option.or_eq_some_iff] at hh
    obtain hold | ⟨-, hnew⟩ := hh
    · exact hold
    · split at hnew <;> cases hnew
  have hcount := hc ho ⟨h, hbefore⟩
  rw [worth, total_enter]
  exact Nat.le_trans hcount (Nat.le_add_right _ _)

/-- A getter that goes on and does not come to wait for a wake-up. -/
theorem setStage (hc : s.Covered) (hd : (s.getters.map Prod.fst).Nodup) {stage stage' : Stage α}
    (hg : s.stage? g = some stage) (hwaits : stage' ≠ .waiting .none)
    (hle : stage.worth ≤ stage'.worth) : (s.setStage g stage').Covered := by
  rintro ho ⟨h, hh⟩
  have hcount := hc ho ⟨h, by
    rw [stage?_setStage] at hh
    split at hh
    · obtain ⟨_, -, he⟩ := Option.map_eq_some_iff.1 hh
      exact absurd he hwaits
    · exact hh⟩
  have hworth := total_setStage (m := Stage.worth) hd hg stage'
  simp only [queue_setStage, worth] at hcount ⊢
  omega

theorem register (hc : s.Covered) (hw : s.WellLined) (hg : s.stage? g = some .entering) :
    (s.register g).Covered := by
  unfold SharedQueue.register
  split
  · exact setStage (s := { s with permit := false }) hc hw.distinct hg nofun (Nat.le_refl 1)
  · exact setStage (s := { s with line := s.line ++ [g] }) hc hw.distinct hg nofun (Nat.le_refl 1)

/-- Whoever leaves hands on a wake-up of its own, which then counts for somebody else. -/
theorem unregister (hl : s.Lined) {signal : Signal} (hw : signal ≠ .none → s.WellLined) (g : Nat)
    (hcount : s.queue.closed = false → (∃ h, s.stage? h = some (.waiting .none)) →
      s.queue.ready.length ≤ s.worth + signal.handedOn) : (s.unregister g signal).Covered := by
  rintro ho ⟨h, hh⟩
  rw [queue_unregister] at ho ⊢
  cases signal with
  | none | permit | all => exact hcount ho ⟨h, hh⟩
  | one =>
    obtain ⟨hbefore, hwake⟩ := worth_wakeOne hl (hw nofun) hh
    exact Nat.le_trans (hcount ho ⟨h, hbefore⟩) (Nat.le_of_eq hwake.symm)

/-- A getter that leaves with a key takes the key with it. -/
theorem finish (hc : s.Covered) (hl : s.Lined) (hw : s.WellLined) {signal : Signal}
    (hg : s.stage? g = some (.registered signal)) (item : Option (String × α)) {q : Queue α}
    (hq : q.closed = s.queue.closed) (hlen : q.ready.length < s.queue.ready.length) :
    (({ s with queue := q }.setStage g (.finished item)).unregister g signal).Covered := by
  let t := { s with queue := q }.setStage g (.finished item)
  have hworth : t.worth + (Stage.registered signal : Stage α).worth = s.worth :=
    total_setStage (s := { s with queue := q }) (m := Stage.worth) hw.distinct hg _
  rw [Stage.worth_registered] at hworth
  have hover : t.Lined := Lined.setStage (s := { s with queue := q }) hl nofun
  have hwt (hsignal : signal ≠ .none) : t.WellLined :=
    (hw.withQueue q).setStage (hw.not_mem_line hg (by simpa [Stage.signal?] using hsignal)) _
  refine unregister hover hwt g fun ho hwait => ?_
  obtain ⟨h, hh⟩ := hwait
  have hwaits : s.stage? h = some (.waiting .none) := by
    rw [stage?_setStage] at hh
    split at hh
    · obtain ⟨_, -, he⟩ := Option.map_eq_some_iff.1 hh
      cases he
    · exact hh
  have hcount := hc (hq ▸ ho) ⟨h, hwaits⟩
  rw [← hworth, ← Nat.add_assoc] at hcount
  exact Nat.le_of_lt_succ (Nat.lt_of_lt_of_le hlen hcount)

theorem ask (hc : s.Covered) (hl : s.Lined) (hw : s.WellLined) {signal : Signal}
    (hg : s.stage? g = some (.registered signal)) : (s.ask g signal).Covered := by
  obtain ⟨hclosed, hget⟩ | ⟨key, payload, q, hget, hq, hlen⟩ | ⟨q, hget, hready⟩ :=
    s.queue.get_cases
  · -- nobody waits at a closed queue for a wake-up that matters
    intro ho
    rw [queue_ask, hget, hclosed] at ho
    cases ho
  · simp only [SharedQueue.ask, hget]
    exact hc.finish hl hw hg _ hq hlen
  · intro _ _
    rw [queue_ask, hget, hready]
    exact Nat.zero_le _

theorem step (hc : s.Covered) (hl : s.Lined) (hw : s.WellLined) (hs : s.step g = some s') :
    s'.Covered := by
  unfold SharedQueue.step at hs
  split at hs
  · next hg =>
    cases hs
    exact hc.register hw hg
  · next hg =>
    cases hs
    exact hc.ask hl hw hg
  · cases hs
  · next signal hsignal hg =>
    cases hs
    exact hc.setStage hw.distinct hg nofun (by cases signal <;> simp [Stage.worth])
  · cases hs
  · cases hs

/-- A getter that gives up while it waits leaves every ready key to the others. -/
theorem cancel (hc : s.Covered) (hl : s.Lined) (hw : s.WellLined)
    (hg : (s.stage? g).any Stage.isWaiting = true) : (s.cancel g).Covered := by
  simp only [SharedQueue.cancel]
  split
  · next signal hs => simp [hs, Stage.isWaiting] at hg
  · next signal hs =>
    have hworth : (s.without g).worth + (Stage.waiting signal : Stage α).worth = s.worth :=
      total_without hw.distinct hs
    rw [Stage.worth_waiting] at hworth
    have hout (hsignal : signal ≠ .none) : (s.without g).WellLined :=
      hw.without (hw.not_mem_line hs (by simpa [Stage.signal?] using hsignal))
    refine unregister (hl.without g) hout g fun ho hwait => ?_
    obtain ⟨h, hh⟩ := hwait
    have hwaits : s.stage? h = some (.waiting .none) := by
      rw [stage?_without] at hh
      split at hh
      · cases hh
      · exact hh
    exact Nat.le_trans (hc ho ⟨h, hwaits⟩) (Nat.le_of_eq hworth.symm)
  · next hr hwt =>
    exfalso
    rcases hs : s.stage? g with _ | (_ | signal | signal | item)
    · simp [hs] at hg
    · simp [hs, Stage.isWaiting] at hg
    · exact hr signal hs
    · exact hwt signal hs
    · simp [hs, Stage.isWaiting] at hg

end Covered

/-! ### Getters come to rest -/

/-- A bound for the steps that the getters may take while nothing else happens. -/
def effort (s : SharedQueue α) : Nat :=
  s.total Stage.effort + if s.permit then 3 else 0

theorem effort_wakeOne (hw : s.WellLined) : s.wakeOne.effort ≤ s.effort + 3 := by
  by_cases hl : s.line = []
  · have hpermit : s.wakeOne = { s with permit := true } := by simp only [wakeOne, hl]
    rw [hpermit]
    simp only [effort, total, if_true]
    omega
  · have htotal := hw.total_wakeOne (m := Stage.effort) (fun _ => Stage.effort_told_one) hl
    have hpermit : s.wakeOne.permit = s.permit := by
      obtain ⟨g, rest, hline⟩ := List.exists_cons_of_ne_nil hl
      simp only [wakeOne, hline, tell]
      split <;> rfl
    rw [effort, effort, htotal, hpermit]
    omega

theorem effort_setStage (hw : s.WellLined) (hg : s.stage? g = some stage) (stage' : Stage α) :
    (s.setStage g stage').effort + stage.effort = s.effort + stage'.effort := by
  have htotal := total_setStage (m := Stage.effort) hw.distinct hg stage'
  have hpermit : (s.setStage g stage').permit = s.permit := rfl
  simp only [effort, hpermit]
  omega

theorem effort_finish (hw : s.WellLined) {signal : Signal}
    (hg : s.stage? g = some (.registered signal)) (item : Option (String × α)) :
    ((s.setStage g (.finished item)).unregister g signal).effort < s.effort := by
  have hset := effort_setStage hw hg (.finished item)
  cases signal with
  | none => exact Nat.lt_of_succ_le (Nat.le_of_eq hset)
  | permit | all =>
    show (s.setStage g (.finished item)).effort < s.effort
    simp only [Stage.effort] at hset
    omega
  | one =>
    have hout := hw.setStage (hw.not_mem_line hg (by simp [Stage.signal?])) (.finished item)
    have hwake := effort_wakeOne hout
    simp only [Stage.effort] at hset
    simp only [unregister]
    omega

theorem effort_register (hw : s.WellLined) (hg : s.stage? g = some .entering) :
    (s.register g).effort < s.effort := by
  unfold register
  split
  · next hp =>
    have hset := effort_setStage (s := { s with permit := false })
      ⟨hw.distinct, hw.once, hw.unsignalled⟩ hg (.registered .permit)
    have hpermit : ({ s with permit := false } : SharedQueue α).effort + 3 = s.effort := by
      simp [effort, total, hp]
    simp only [Stage.effort] at hset
    omega
  · have htotal := total_setStage (s := { s with line := s.line ++ [g] }) (m := Stage.effort)
      hw.distinct hg (.registered .none)
    have hsame : ({ s with line := s.line ++ [g] } : SharedQueue α).total Stage.effort =
      s.total Stage.effort := rfl
    have hpermit : ({ s with line := s.line ++ [g] }.setStage g (.registered .none)).permit =
      s.permit := rfl
    simp only [Stage.effort, hsame] at htotal
    simp only [effort, hpermit]
    omega

/-- A step of a getter brings all of them nearer to rest. -/
theorem effort_step (hw : s.WellLined) (hs : s.step g = some s') : s'.effort < s.effort := by
  unfold step at hs
  split at hs
  · next hg =>
    cases hs
    exact effort_register hw hg
  · next signal hg =>
    cases hs
    unfold ask
    split
    · next q _ => exact effort_finish (s := { s with queue := q }) (hw.withQueue q) hg _
    · next q _ => exact effort_finish (s := { s with queue := q }) (hw.withQueue q) hg _
    · next q _ =>
      have hset := effort_setStage (s := { s with queue := q }) (hw.withQueue q) hg
        (.waiting signal)
      have hsame : ({ s with queue := q } : SharedQueue α).effort = s.effort := rfl
      cases signal <;> simp only [Stage.effort, hsame] at hset <;> omega
  · cases hs
  · next signal hsignal hg =>
    cases hs
    have hset := effort_setStage hw hg .entering
    cases signal with
    | none => exact absurd rfl hsignal
    | permit | one | all =>
      simp only [Stage.effort] at hset
      omega
  · cases hs
  · cases hs

theorem length_le_effort (hw : s.WellLined) {gs : List Nat} (hs : gs.foldlM step s = some s') :
    gs.length ≤ s.effort := by
  induction gs generalizing s with
  | nil => exact Nat.zero_le _
  | cons g gs ih =>
    rw [List.foldlM_cons, Option.bind_eq_bind, Option.bind_eq_some_iff] at hs
    obtain ⟨t, hstep, hrest⟩ := hs
    exact Nat.lt_of_le_of_lt (ih (hw.step hstep) hrest) (effort_step hw hstep)

/-- Nobody can take a step. -/
def AtRest (s : SharedQueue α) : Prop := ∀ g, s.step g = none

theorem atRest_iff : s.AtRest ↔ ∀ e ∈ s.getters, (s.step e.1).isNone = true := by
  refine ⟨fun h e _ => by rw [h e.1]; rfl, fun h g => ?_⟩
  cases hg : s.stage? g with
  | none => simp only [step, hg]
  | some stage =>
    obtain ⟨e, he, rfl⟩ := List.mem_map.1 (mem_keys_of_stage? hg)
    exact Option.isNone_iff_eq_none.1 (h e he)

instance (s : SharedQueue α) : Decidable s.AtRest := decidable_of_iff' _ atRest_iff

/-- At rest a getter waits without a signal or is finished. -/
theorem AtRest.stage_cases (h : s.AtRest) (hg : s.stage? g = some stage) :
    stage = .waiting .none ∨ ∃ item, stage = .finished item := by
  have hstep := h g
  rcases stage with _ | signal | signal | item
  · simp [step, hg] at hstep
  · simp [step, hg] at hstep
  · cases signal with
    | none => exact .inl rfl
    | permit | one | all => simp [step, hg] at hstep
  · exact .inr ⟨item, rfl⟩

/-- Getters at rest stand for no ready key. -/
theorem AtRest.worth_eq_zero (h : s.AtRest) (hw : s.WellLined) : s.worth = 0 := by
  refine total_eq_zero fun e he => ?_
  obtain hstage | ⟨item, hstage⟩ := h.stage_cases (stage?_of_mem hw.distinct he) <;> rw [hstage] <;>
    rfl

end SharedQueue

namespace Crowd

variable {backoff : Backoff} {s : Crowd α}

/-- Only closing closes the queue of a crowd. -/
theorem closed_step (backoff : Backoff) {a : Action α} (ha : a ≠ .close) :
    (s.step backoff a).shared.queue.closed = s.shared.queue.closed := by
  show (s.step backoff a).system.queue.closed = _
  rw [system_step]
  cases hb : s.command? a with
  | none => rfl
  | some b =>
    refine System.step_closed fun hclose => ha ?_
    subst hclose
    cases a with
    | close => rfl
    | go g =>
      simp only [command?] at hb
      split at hb <;> cases hb
    | _ => cases hb

theorem closed_run (backoff : Backoff) {actions : List (Action α)} (ha : .close ∉ actions) :
    (s.run backoff actions).shared.queue.closed = s.shared.queue.closed := by
  induction actions generalizing s with
  | nil => rfl
  | cons a actions ih =>
    rw [List.mem_cons, not_or] at ha
    exact (ih ha.2).trans (closed_step backoff (Ne.symm ha.1))

/-- A getter gives up only where it waits. -/
def Permitted (s : Crowd α) : Action α → Prop
  | .leave g => (s.shared.stage? g).any Stage.isWaiting = true
  | _ => True

instance (s : Crowd α) : ∀ a : Action α, Decidable (s.Permitted a)
  | .leave _ => inferInstanceAs (Decidable (_ = true))
  | .add _ _ | .done _ | .forget _ | .retry _ _ | .fire _ | .close | .enter | .go _ => isTrue trivial

/-- What a crowd keeps to: who is to be woken is in line, getters have numbers of their own, and
they stand for the ready keys as long as one of them waits. -/
structure Attended (s : Crowd α) : Prop where
  lined : s.shared.Lined
  wellLined : s.shared.WellLined
  covered : s.shared.Covered
  came : ∀ g ∈ s.shared.getters.map Prod.fst, g < s.came

theorem attended_start : (start : Crowd α).Attended :=
  ⟨SharedQueue.lined_empty, SharedQueue.wellLined_empty, SharedQueue.covered_empty,
    fun _ h => absurd h List.not_mem_nil⟩

theorem Attended.update (backoff : Backoff) (h : s.Attended) {f : Queue α → Queue α} {a : Queue.Action α}
    (hf : f s.shared.queue = (s.system.step backoff a).queue) (ha : a ≠ .close)
    (retries : List (Retry α)) : Attended ⟨s.shared.update f, retries, s.came⟩ := by
  refine ⟨h.lined.update f, h.wellLined.update f, h.covered.update h.lined h.wellLined ?_ ?_, ?_⟩
  · rw [hf]
    exact System.length_ready_step backoff s.system a
  · rw [hf, System.step_closed ha]
    exact id
  · rw [SharedQueue.keys_update]
    exact h.came

theorem attended_step (h : s.Attended) {a : Action α} (ha : s.Permitted a) :
    (s.step backoff a).Attended := by
  cases a with
  | add key payload => exact h.update backoff (a := .add key payload) rfl nofun _
  | done key => exact h.update backoff (a := .done key) rfl nofun _
  | forget key => exact h.update backoff (a := .forget key) rfl nofun _
  | retry key payload => exact h.update backoff (a := .retry key payload) rfl nofun _
  | fire place => exact h.update backoff (a := .fire place) rfl nofun _
  | close =>
    refine ⟨h.lined.close, h.wellLined.close, .close _, ?_⟩
    simp only [step, SharedQueue.keys_close]
    exact h.came
  | enter =>
    have hnew : s.came ∉ s.shared.getters.map Prod.fst :=
      fun hmem => absurd (h.came _ hmem) (Nat.lt_irrefl _)
    refine ⟨h.lined.enter _, h.wellLined.enter hnew, h.covered.enter _, fun g hg => ?_⟩
    simp only [step, SharedQueue.enter, List.map_append, List.mem_append, List.map_cons,
      List.map_nil, List.mem_singleton] at hg ⊢
    obtain hold | rfl := hg
    · exact Nat.lt_succ_of_lt (h.came g hold)
    · exact Nat.lt_succ_self _
  | go g =>
    simp only [step]
    cases hs : s.shared.step g with
    | none => exact h
    | some s' =>
      refine ⟨h.lined.step hs, h.wellLined.step hs, h.covered.step h.lined h.wellLined hs, ?_⟩
      simp only [Option.getD_some, SharedQueue.keys_step hs]
      exact h.came
  | leave g =>
    refine ⟨h.lined.cancel g, h.wellLined.cancel g, h.covered.cancel h.lined h.wellLined ha,
      fun k hk => h.came k ((SharedQueue.keys_cancel _ g).subset hk)⟩

/-- **No wake-up is lost.**  Any number of getters take their steps in any order, while keys are
added, done with, forgotten and retried, retries come back, getters that wait give up, and the queue
may be closed.  Whenever no getter can take a step, one is left waiting only if no key is ready and
the queue is not closed.  And getters do come to rest: between two things that others do, they take
no more steps than they have effort for. -/
theorem waits_only_for_nothing (backoff : Backoff) {actions : List (Action α)}
    (ha : Obeys (step backoff) Permitted start actions) :
    let s := (start : Crowd α).run backoff actions
    (s.shared.AtRest → ∀ g signal, s.shared.stage? g = some (.waiting signal) →
      s.shared.queue.ready = [] ∧ s.shared.queue.closed = false) ∧
    ∀ (gs : List Nat) (t : SharedQueue α), gs.foldlM SharedQueue.step s.shared = some t →
      gs.length ≤ s.shared.effort := by
  intro s
  have hs : s.Attended :=
    ha.foldl attended_start fun _ _ h hpermitted => attended_step h hpermitted
  refine ⟨fun hrest g signal hg => ?_, fun gs t => SharedQueue.length_le_effort hs.wellLined⟩
  obtain hstage | ⟨item, hstage⟩ := hrest.stage_cases hg
  · rw [hstage] at hg
    have hopen : s.shared.queue.closed = false := by
      by_cases hclose : .close ∈ actions
      · -- closing has woken everybody
        have hd := dismissed_of_close_mem backoff (s := (start : Crowd α))
          SharedQueue.lined_empty hclose
        exact absurd hg (hd.awake g)
      · exact closed_run backoff hclose
    have hcount := hs.covered hopen ⟨g, hg⟩
    rw [hrest.worth_eq_zero hs.wellLined] at hcount
    exact ⟨List.eq_nil_of_length_eq_zero (Nat.le_zero.1 hcount), hopen⟩
  · cases hstage

/-- Two getters wait, and a third one is about to ask, when a key becomes ready.  The third one is
handed the key, and the getter that was woken for it waits again, now behind the other one.  The
wake-up for the second key goes to the other one, which gives up and so hands it on.  A getter that
comes later waits, and nothing is ready. -/
theorem handed_on_wake_up :
    let actions : List (Action Nat) :=
      [.enter, .go 0, .go 0, .enter, .go 1, .go 1, .enter, .go 2, .add "a" 1, .go 2, .go 0, .go 0,
        .go 0, .add "b" 2, .leave 1, .go 0, .go 0, .go 0, .enter, .go 3, .go 3]
    let s := (start : Crowd Nat).run .standard actions
    Obeys (step .standard) Permitted start actions ∧ s.shared.AtRest ∧
      s.shared.stage? 3 = some (.waiting .none) ∧
      (s.shared.queue.ready = [] ∧ s.shared.queue.closed = false) ∧
      s.shared.outcome? 0 = some (some ("b", 2)) ∧ s.shared.outcome? 2 = some (some ("a", 1)) := by
  intro actions s
  have hrun : Obeys (step .standard) Permitted start actions := by decide
  have hrest : s.shared.AtRest := by decide
  have hwaits : s.shared.stage? 3 = some (.waiting .none) := by rfl
  exact ⟨hrun, hrest, hwaits, (waits_only_for_nothing .standard hrun).1 hrest 3 .none hwaits,
    by rfl, by rfl⟩

end Crowd

end ClusterHerald
