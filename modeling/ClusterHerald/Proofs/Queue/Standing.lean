import ClusterHerald.Proofs.Queue.Crowd
import Mathlib.Algebra.Ring.Nat

/-!
# Getters in line

Getters have numbers of their own, and the line holds, once each, only getters that are still to be
woken (`SharedQueue.WellLined`); with `SharedQueue.Lined` it holds exactly these.  So a wake-up is
never spent on somebody who has one already.

`SharedQueue.total` sums a measure of their stages over all getters.

* `SharedQueue.total_setStage`, `SharedQueue.total_without` : what becomes of a sum when one getter
  goes on or leaves;
* `SharedQueue.WellLined.step`, `SharedQueue.WellLined.update`, `SharedQueue.WellLined.cancel` : the
  line stays as it should be;
* `SharedQueue.WellLined.total_wakeOne` : a wake-up reaches whoever is first in line.
-/

namespace ClusterHerald

universe u

variable {α : Type u}

namespace SharedQueue

variable {s s' : SharedQueue α} {g h : Nat}

/-! ### Counting getters -/

/-- The sum of a measure of their stages over all getters. -/
def total (m : Stage α → Nat) (s : SharedQueue α) : Nat :=
  (s.getters.map fun e => m e.2).sum

/-- The getters, each with its stage. -/
theorem perm_of_lookup {β : Type u} {es : List (Nat × β)} {v : β}
    (hd : (es.map Prod.fst).Nodup) (hv : es.lookup g = some v) :
    es.Perm ((g, v) :: es.filter fun e => e.1 ≠ g) := by
  induction es with
  | nil => cases hv
  | cons e es ih =>
    obtain ⟨k, w⟩ := e
    obtain ⟨hk, hes⟩ := List.nodup_cons.1 hd
    rw [List.lookup_cons] at hv
    by_cases hkg : g = k
    · subst hkg
      obtain rfl : w = v := by simpa using hv
      have hall : ∀ e ∈ es, decide (e.1 ≠ g) = true := fun e he =>
        decide_eq_true fun heq => hk (List.mem_map.2 ⟨e, he, heq⟩)
      rw [List.filter_cons_of_neg (by simp), List.filter_eq_self.2 hall]
    · rw [beq_eq_false_iff_ne.2 hkg] at hv
      rw [List.filter_cons_of_pos (by simpa using Ne.symm hkg)]
      exact ((ih hes hv).cons _).trans (.swap _ _ _)

variable {m : Stage α → Nat} {stage : Stage α}

theorem total_without (hd : (s.getters.map Prod.fst).Nodup) (hg : s.stage? g = some stage) :
    (s.without g).total m + m stage = s.total m := by
  have hperm := ((perm_of_lookup hd hg).map fun e => m e.2).sum_nat
  rw [List.map_cons, List.sum_cons] at hperm
  rw [total, total, hperm, Nat.add_comm]
  rfl

theorem total_setStage (hd : (s.getters.map Prod.fst).Nodup) (hg : s.stage? g = some stage)
    (stage' : Stage α) :
    (s.setStage g stage').total m + m stage = s.total m + m stage' := by
  have hrest : ((s.getters.filter fun e => e.1 ≠ g).map fun e =>
      if e.1 = g then (g, stage') else e) = s.getters.filter fun e => e.1 ≠ g := by
    refine (List.map_congr_left fun e he => ?_).trans (List.map_id _)
    exact if_neg (by simpa using (List.mem_filter.1 he).2)
  have hperm := (((perm_of_lookup hd hg).map fun e => if e.1 = g then (g, stage') else e).map
    fun e => m e.2).sum_nat
  rw [List.map_cons, if_pos rfl, hrest, List.map_cons, List.sum_cons] at hperm
  have hset : (s.setStage g stage').total m = m stage' + (s.without g).total m := hperm
  rw [hset, ← total_without hd hg]
  omega

theorem total_eq_zero (h : ∀ e ∈ s.getters, m e.2 = 0) : s.total m = 0 := by
  have hzero (es : List (Nat × Stage α)) (hes : ∀ e ∈ es, m e.2 = 0) :
      (es.map fun e => m e.2).sum = 0 := by
    induction es with
    | nil => rfl
    | cons e es ih =>
      rw [List.map_cons, List.sum_cons, hes e List.mem_cons_self,
        ih fun e' he' => hes e' (List.mem_cons_of_mem e he')]
  exact hzero s.getters h

theorem total_enter (s : SharedQueue α) (g : Nat) :
    (s.enter g).total m = s.total m + m .entering := by
  simp [total, enter]

/-! ### The line -/

/-- Getters are told apart, and the line holds, once each, only getters that are still to be
woken. -/
structure WellLined (s : SharedQueue α) : Prop where
  distinct : (s.getters.map Prod.fst).Nodup
  once : s.line.Nodup
  unsignalled : ∀ g ∈ s.line, ∃ stage, s.stage? g = some stage ∧ stage.signal? = some .none

theorem wellLined_empty : (empty : SharedQueue α).WellLined :=
  ⟨List.nodup_nil, List.nodup_nil, fun _ h => absurd h List.not_mem_nil⟩

@[simp] theorem keys_setStage (s : SharedQueue α) (g : Nat) (stage : Stage α) :
    (s.setStage g stage).getters.map Prod.fst = s.getters.map Prod.fst := by
  simp only [setStage, List.map_map]
  refine List.map_congr_left fun e _ => ?_
  simp only [Function.comp]
  split
  · next he => exact he.symm
  · rfl

@[simp] theorem keys_tell (s : SharedQueue α) (g : Nat) (signal : Signal) :
    (s.tell g signal).getters.map Prod.fst = s.getters.map Prod.fst := by
  unfold tell
  split
  · exact keys_setStage s g _
  · exact keys_setStage s g _
  · rfl

theorem keys_foldl_tell (signal : Signal) (gs : List Nat) (s : SharedQueue α) :
    (gs.foldl (fun s g => s.tell g signal) s).getters.map Prod.fst = s.getters.map Prod.fst := by
  induction gs generalizing s with
  | nil => rfl
  | cons g gs ih => rw [List.foldl_cons, ih, keys_tell]

theorem line_foldl_tell (signal : Signal) (gs : List Nat) (s : SharedQueue α) :
    (gs.foldl (fun s g => s.tell g signal) s).line = s.line := by
  induction gs generalizing s with
  | nil => rfl
  | cons g gs ih => rw [List.foldl_cons, ih, line_tell]

@[simp] theorem keys_wakeOne (s : SharedQueue α) :
    s.wakeOne.getters.map Prod.fst = s.getters.map Prod.fst := by
  unfold wakeOne
  cases s.line <;> simp

@[simp] theorem keys_update (s : SharedQueue α) (f : Queue α → Queue α) :
    (s.update f).getters.map Prod.fst = s.getters.map Prod.fst := by
  simp only [update]
  split <;> simp

@[simp] theorem keys_close (s : SharedQueue α) :
    s.close.getters.map Prod.fst = s.getters.map Prod.fst := by
  rw [close, wakeAll, keys_foldl_tell]

@[simp] theorem keys_unregister (s : SharedQueue α) (g : Nat) (signal : Signal) :
    (s.unregister g signal).getters.map Prod.fst = s.getters.map Prod.fst := by
  cases signal <;> simp [unregister]

theorem keys_step (hs : s.step g = some s') :
    s'.getters.map Prod.fst = s.getters.map Prod.fst := by
  unfold step at hs
  split at hs
  · cases hs
    unfold register
    split <;> simp
  · cases hs
    unfold ask
    split <;> simp
  · cases hs
  · cases hs
    simp
  · cases hs
  · cases hs

theorem keys_cancel (s : SharedQueue α) (g : Nat) :
    ((s.cancel g).getters.map Prod.fst).Sublist (s.getters.map Prod.fst) := by
  have hleft : ((s.without g).getters.map Prod.fst).Sublist (s.getters.map Prod.fst) :=
    List.filter_sublist.map Prod.fst
  obtain he | ⟨signal, he⟩ := s.cancel_cases g <;> rw [he]
  · exact hleft
  · rwa [keys_unregister]

theorem stage?_of_mem (hd : (s.getters.map Prod.fst).Nodup) {e : Nat × Stage α}
    (he : e ∈ s.getters) : s.stage? e.1 = some e.2 :=
  lookup_of_mem hd he

theorem mem_keys_of_stage? (hg : s.stage? g = some stage) : g ∈ s.getters.map Prod.fst := by
  obtain ⟨e, he, hkey⟩ := List.lookup_isSome_iff.1 (Option.isSome_of_eq_some hg)
  exact List.mem_map.2 ⟨e, he, (beq_iff_eq.1 hkey).symm⟩

namespace WellLined

/-- A getter that has a signal, or asks for none, is not in line. -/
theorem not_mem_line (hw : s.WellLined) (hg : s.stage? g = some stage)
    (hs : stage.signal? ≠ some .none) : g ∉ s.line := by
  intro hmem
  obtain ⟨stage', hg', hs'⟩ := hw.unsignalled g hmem
  rw [hg] at hg'
  cases hg'
  exact hs hs'

/-- Other getters stay in line if one of them is left out. -/
theorem unsignalled_of_erase (hw : s.WellLined) (hs : ∀ h, g ≠ h → s'.stage? h = s.stage? h) :
    ∀ h ∈ s.line.erase g, ∃ stage, s'.stage? h = some stage ∧ stage.signal? = some .none := by
  intro h hmem
  obtain ⟨hne, hline⟩ := hw.once.mem_erase_iff.1 hmem
  rw [hs h (Ne.symm hne)]
  exact hw.unsignalled h hline

/-- A getter that goes on is taken out of the line. -/
theorem setStage_erase (hw : s.WellLined) (g : Nat) (stage : Stage α) :
    ({ s with line := s.line.erase g }.setStage g stage).WellLined :=
  ⟨by rw [keys_setStage]; exact hw.distinct, hw.once.erase g,
    hw.unsignalled_of_erase fun _ hne => stage?_setStage_ne _ hne stage⟩

theorem setStage (hw : s.WellLined) (hg : g ∉ s.line) (stage : Stage α) :
    (s.setStage g stage).WellLined := by
  have h := hw.setStage_erase g stage
  rwa [List.erase_of_not_mem hg] at h

theorem without_erase (hw : s.WellLined) (g : Nat) :
    ({ s with line := s.line.erase g }.without g).WellLined :=
  ⟨(List.filter_sublist.map Prod.fst).nodup hw.distinct, hw.once.erase g,
    hw.unsignalled_of_erase fun h hne => by rw [stage?_without, if_neg hne]; rfl⟩

theorem without (hw : s.WellLined) (hg : g ∉ s.line) : (s.without g).WellLined := by
  have h := hw.without_erase g
  rwa [List.erase_of_not_mem hg] at h

theorem wakeOne (hw : s.WellLined) : s.wakeOne.WellLined := by
  unfold SharedQueue.wakeOne
  cases hl : s.line with
  | nil => exact ⟨hw.distinct, by simp, by simp⟩
  | cons g rest =>
    refine ⟨by rw [keys_tell]; exact hw.distinct, ?_, fun h hh => ?_⟩
    · have hnodup := hw.once
      rw [hl] at hnodup
      simpa using (List.nodup_cons.1 hnodup).2
    · have hrest : h ∈ rest := by simpa using hh
      have hne : g ≠ h := by
        rintro rfl
        have hnodup := hw.once
        rw [hl] at hnodup
        exact (List.nodup_cons.1 hnodup).1 hrest
      rw [stage?_tell, if_neg hne]
      exact hw.unsignalled h (hl ▸ List.mem_cons_of_mem g hrest)

theorem withQueue (hw : s.WellLined) (q : Queue α) : ({ s with queue := q }).WellLined :=
  ⟨hw.distinct, hw.once, hw.unsignalled⟩

theorem update (hw : s.WellLined) (f : Queue α → Queue α) : (s.update f).WellLined := by
  simp only [SharedQueue.update]
  split
  · exact (hw.withQueue _).wakeOne
  · exact hw.withQueue _

theorem close (hw : s.WellLined) : s.close.WellLined := by
  refine ⟨?_, ?_, ?_⟩
  · rw [keys_close]
    exact hw.distinct
  · rw [SharedQueue.close, wakeAll, line_foldl_tell]
    exact List.nodup_nil
  · rw [SharedQueue.close, wakeAll, line_foldl_tell]
    exact fun _ h => absurd h List.not_mem_nil

theorem enter (hw : s.WellLined) (hg : g ∉ s.getters.map Prod.fst) : (s.enter g).WellLined := by
  refine ⟨?_, hw.once, fun h hh => ?_⟩
  · simp only [SharedQueue.enter, List.map_append, List.map_cons, List.map_nil]
    exact List.nodup_append.2 ⟨hw.distinct, List.pairwise_singleton _ _, by
      rintro a ha b hb rfl
      exact hg (List.mem_singleton.1 hb ▸ ha)⟩
  · obtain ⟨stage, hs, hsignal⟩ := hw.unsignalled h hh
    exact ⟨stage, by rw [stage?_enter, hs]; rfl, hsignal⟩

theorem register (hw : s.WellLined) (hg : s.stage? g = some .entering) :
    (s.register g).WellLined := by
  have hout : g ∉ s.line := hw.not_mem_line hg nofun
  unfold SharedQueue.register
  split
  · exact WellLined.setStage (s := { s with permit := false })
      ⟨hw.distinct, hw.once, hw.unsignalled⟩ hout _
  · refine ⟨by rw [keys_setStage]; exact hw.distinct, ?_, fun h hh => ?_⟩
    · exact List.nodup_append.2 ⟨hw.once, List.pairwise_singleton _ _, by
        rintro a ha b hb rfl
        exact hout (List.mem_singleton.1 hb ▸ ha)⟩
    · rw [stage?_setStage]
      split
      · next heq =>
        subst heq
        exact ⟨.registered .none, by simpa [stage?] using ⟨_, hg⟩, rfl⟩
      · next hne =>
        have hline : h ∈ s.line :=
          (List.mem_append.1 hh).resolve_right fun h' => hne (List.mem_singleton.1 h').symm
        exact hw.unsignalled h hline

/-- A getter that finishes leaves the line, and hands a wake-up of its own on. -/
theorem finish (hw : s.WellLined) {signal : Signal}
    (hg : s.stage? g = some (.registered signal)) (item : Option (String × α)) :
    ((s.setStage g (.finished item)).unregister g signal).WellLined := by
  cases signal with
  | none => exact hw.setStage_erase g (.finished item)
  | one => exact (hw.setStage (hw.not_mem_line hg (by simp [Stage.signal?])) _).wakeOne
  | permit | all => exact hw.setStage (hw.not_mem_line hg (by simp [Stage.signal?])) _

theorem ask (hw : s.WellLined) {signal : Signal} (hg : s.stage? g = some (.registered signal)) :
    (s.ask g signal).WellLined := by
  unfold SharedQueue.ask
  split
  · next q _ => exact finish (s := { s with queue := q }) (hw.withQueue q) hg _
  · next q _ => exact finish (s := { s with queue := q }) (hw.withQueue q) hg _
  · next q _ =>
    refine ⟨by rw [keys_setStage]; exact hw.distinct, hw.once, fun h hh => ?_⟩
    rw [stage?_setStage]
    split
    · next heq =>
      subst heq
      -- who is in line has no signal, and goes on without one
      obtain ⟨stage, hs, hsignal⟩ := hw.unsignalled g hh
      rw [hg] at hs
      cases hs
      exact ⟨.waiting signal, by simpa [stage?] using ⟨_, hg⟩, hsignal⟩
    · exact hw.unsignalled h hh

theorem step (hw : s.WellLined) (hs : s.step g = some s') : s'.WellLined := by
  unfold SharedQueue.step at hs
  split at hs
  · next hg =>
    cases hs
    exact hw.register hg
  · next hg =>
    cases hs
    exact hw.ask hg
  · cases hs
  · next signal hsignal hg =>
    cases hs
    exact hw.setStage (hw.not_mem_line hg fun h => hsignal (Option.some.inj h)) _
  · cases hs
  · cases hs

theorem cancel (hw : s.WellLined) (g : Nat) : (s.cancel g).WellLined := by
  have hleft (hg : g ∉ s.line) : (s.without g).WellLined := hw.without hg
  have hout {stage : Stage α} {signal : Signal} (hstage : s.stage? g = some stage)
      (hs : stage.signal? = some signal) (hne : signal ≠ .none) : (s.without g).WellLined :=
    hw.without (hw.not_mem_line hstage fun h => hne (Option.some.inj (hs.symm.trans h)))
  have hunregister {stage : Stage α} (signal : Signal) (hstage : s.stage? g = some stage)
      (hs : stage.signal? = some signal) : ((s.without g).unregister g signal).WellLined := by
    cases signal with
    | none => exact hw.without_erase g
    | one => exact (hout hstage hs (by simp)).wakeOne
    | permit | all => exact hout hstage hs (by simp)
  simp only [SharedQueue.cancel]
  split
  · next signal hg => exact hunregister signal hg rfl
  · next signal hg => exact hunregister signal hg rfl
  · next hr hwt =>
    refine hleft fun hmem => ?_
    obtain ⟨stage, hg, hs⟩ := hw.unsignalled g hmem
    cases stage with
    | registered signal => exact hr signal hg
    | waiting signal => exact hwt signal hg
    | entering | finished item => cases hs

/-- A wake-up reaches whoever is first in line. -/
theorem total_wakeOne (hw : s.WellLined) {m : Stage α → Nat} {n : Nat}
    (hm : ∀ stage : Stage α, stage.signal? = some .none → m (stage.told .one) = m stage + n)
    (hl : s.line ≠ []) : s.wakeOne.total m = s.total m + n := by
  obtain ⟨g, rest, hline⟩ := List.exists_cons_of_ne_nil hl
  obtain ⟨stage, hg, hsignal⟩ := hw.unsignalled g (by simp [hline])
  have htold : s.wakeOne = { s with line := rest }.setStage g (stage.told .one) := by
    have hg' : ({ s with line := rest } : SharedQueue α).stage? g = some stage := hg
    simp only [SharedQueue.wakeOne, hline, tell, hg']
    cases stage <;> first | rfl | cases hsignal
  have hset := total_setStage (s := { s with line := rest }) (m := m) hw.distinct hg
    (stage.told .one)
  have hsame : ({ s with line := rest } : SharedQueue α).total m = s.total m := rfl
  rw [hsame, hm stage hsignal] at hset
  rw [htold]
  omega

end WellLined

end SharedQueue

end ClusterHerald
