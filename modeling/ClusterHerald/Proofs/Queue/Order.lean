import ClusterHerald.Proofs.Queue.Desk

/-!
# One key at a desk

Here payloads carry numbers, which newer payloads have greater ones of.  `View` is what is seen of
one key by these numbers, `View.Move` what a careful action may do to it (`Desk.view_move`).

`View.InOrder` says that nothing older than what was handed out is on its way, unless it is late.
Every move keeps it, as long as what is late is not handed out (`View.InOrder.move`).
-/

namespace ClusterHerald

universe u

namespace Queue

/-- A payload with a number. -/
structure Numbered (α : Type u) where
  number : Nat
  payload : α

/-! ### What is seen of one key -/

/-- What is seen of one key: payloads by their numbers. -/
@[ext] structure View where
  pending : Option Nat
  /-- The pending payload came back while the outcome of another was open. -/
  late : Bool
  /-- The payload in hand whose outcome is open. -/
  processing : Option Nat
  /-- The payload of the scheduled retry. -/
  scheduled : Nat → Prop
  /-- What was handed out, oldest first. -/
  handed : List Nat

namespace View

/-- What one action may do to the view of a key, where `fresh` are the numbers that it may add. -/
inductive Move (fresh : Nat → Prop) (v : View) : View → Prop
  /-- At most the scheduled retry was dropped. -/
  | quiet {scheduled : Nat → Prop} (h : ∀ m, scheduled m → v.scheduled m) :
      Move fresh v { v with scheduled }
  | add {p : Nat} (h : fresh p) :
      Move fresh v { v with pending := some p, late := false, scheduled := fun _ => False }
  | take {p : Nat} (h : v.pending = some p) :
      Move fresh v { v with
        pending := none, late := false, processing := some p, handed := v.handed ++ [p] }
  | forget {m : Nat} (h : v.processing = some m) :
      Move fresh v { v with processing := none, scheduled := fun _ => False }
  | retry {m : Nat} (h : v.processing = some m) :
      Move fresh v { v with processing := none, scheduled := fun x => m = x }
  | comeBack {p : Nat} (h : v.scheduled p) (hp : v.pending = none) :
      Move fresh v { v with
        pending := some p, late := v.processing.isSome, scheduled := fun _ => False }

/-- Nothing is on its way that is older than what was handed out, unless it is late: a pending
payload is newer than the one that is processed and than the scheduled one, and a scheduled one
is the one handed out last, unless a newer one is being processed.  All numbers are below `n`. -/
structure InOrder (v : View) (n : Nat) : Prop where
  pending_lt : ∀ p, v.pending = some p → p < n
  handed_lt : ∀ m ∈ v.handed, m < n
  pending_ge : ∀ p, v.pending = some p → v.late = false → ∀ m ∈ v.handed, m ≤ p
  late_lt : ∀ p, v.pending = some p → v.late = true → ∃ m ∈ v.handed, p < m
  processing_mem : ∀ m, v.processing = some m → m ∈ v.handed
  processing_ge : ∀ m, v.processing = some m → ∀ x ∈ v.handed, x ≤ m
  processing_lt : ∀ m, v.processing = some m → ∀ p, v.pending = some p → v.late = false → m < p
  scheduled_mem : ∀ x, v.scheduled x → x ∈ v.handed
  scheduled_lt_pending : ∀ x, v.scheduled x → ∀ p, v.pending = some p → v.late = false → x < p
  scheduled_lt_processing : ∀ x, v.scheduled x → ∀ m, v.processing = some m → x < m
  scheduled_ge : ∀ x, v.scheduled x → v.processing = none → ∀ m ∈ v.handed, m ≤ x

variable {fresh : Nat → Prop} {v w : View} {n k : Nat}

theorem inOrder_empty {scheduled : Nat → Prop} (h : ∀ x, ¬ scheduled x) :
    InOrder ⟨none, false, none, scheduled, []⟩ n :=
  ⟨nofun, nofun, nofun, nofun, nofun, nofun, nofun, fun x hx => absurd hx (h x),
    fun x hx => absurd hx (h x), fun x hx => absurd hx (h x), fun x hx => absurd hx (h x)⟩

/-- The order is kept until a late payload is handed out. -/
theorem InOrder.move (h : v.InOrder n) (hm : Move fresh v w) (hf : ∀ p, fresh p → n ≤ p ∧ p < k)
    (hn : n ≤ k) (hl : w.handed = v.handed ∨ v.late = false) : w.InOrder k := by
  have hp : ∀ p, v.pending = some p → p < k := fun p hp => Nat.lt_of_lt_of_le (h.pending_lt p hp) hn
  have hh : ∀ m ∈ v.handed, m < k := fun m hm => Nat.lt_of_lt_of_le (h.handed_lt m hm) hn
  cases hm with
  | quiet hs =>
    exact { h with
      pending_lt := hp
      handed_lt := hh
      scheduled_mem := fun x hx => h.scheduled_mem x (hs x hx)
      scheduled_lt_pending := fun x hx => h.scheduled_lt_pending x (hs x hx)
      scheduled_lt_processing := fun x hx => h.scheduled_lt_processing x (hs x hx)
      scheduled_ge := fun x hx => h.scheduled_ge x (hs x hx) }
  | @add p hp' =>
    obtain ⟨hnp, hpk⟩ := hf p hp'
    refine ⟨?_, hh, ?_, nofun, h.processing_mem, h.processing_ge, ?_, nofun, nofun, nofun, nofun⟩
    · rintro _ ⟨⟩
      exact hpk
    · rintro _ ⟨⟩ - m hm
      exact Nat.le_of_lt (Nat.lt_of_lt_of_le (h.handed_lt m hm) hnp)
    · rintro m hm _ ⟨⟩ -
      exact Nat.lt_of_lt_of_le (h.handed_lt m (h.processing_mem m hm)) hnp
  | @take p hp' =>
    have hlate : v.late = false := hl.resolve_left fun he => by simp at he
    have hge := h.pending_ge p hp' hlate
    refine ⟨nofun, ?_, nofun, nofun, ?_, ?_, nofun, ?_, nofun, ?_, nofun⟩
    · intro m hm
      rcases List.mem_append.1 hm with hm | hm
      · exact hh m hm
      · exact List.mem_singleton.1 hm ▸ hp p hp'
    · rintro _ ⟨⟩
      simp
    · rintro _ ⟨⟩ x hx
      rcases List.mem_append.1 hx with hx | hx
      · exact hge x hx
      · exact Nat.le_of_eq (List.mem_singleton.1 hx)
    · exact fun x hx => List.mem_append_left _ (h.scheduled_mem x hx)
    · rintro x hx _ ⟨⟩
      exact h.scheduled_lt_pending x hx p hp' hlate
  | forget hm =>
    exact { h with
      pending_lt := hp
      handed_lt := hh
      processing_mem := nofun
      processing_ge := nofun
      processing_lt := nofun
      scheduled_mem := nofun
      scheduled_lt_pending := nofun
      scheduled_lt_processing := nofun
      scheduled_ge := nofun }
  | @retry m hm =>
    refine ⟨hp, hh, h.pending_ge, h.late_lt, nofun, nofun, nofun, ?_, ?_, nofun, ?_⟩
    · rintro _ rfl
      exact h.processing_mem m hm
    · rintro _ rfl
      exact h.processing_lt m hm
    · rintro _ rfl -
      exact h.processing_ge m hm
  | @comeBack p hs hnone =>
    refine ⟨?_, hh, ?_, ?_, h.processing_mem, h.processing_ge, ?_, nofun, nofun, nofun, nofun⟩
    · rintro _ ⟨⟩
      exact hh p (h.scheduled_mem p hs)
    · rintro _ ⟨⟩ hnot
      exact h.scheduled_ge p hs (by simpa using hnot)
    · rintro _ ⟨⟩ hlate
      obtain ⟨m, hm⟩ := Option.isSome_iff_exists.1 hlate
      exact ⟨m, h.processing_mem m hm, h.scheduled_lt_processing p hs m hm⟩
    · intro m hm _ _ hnot
      have hsome : v.processing.isSome = false := hnot
      rw [show v.processing = some m from hm] at hsome
      cases hsome

end View

namespace Desk

variable {α : Type u} {backoff : Backoff} {d : Desk (Numbered α)} {key : String}

/-- The numbers that were handed out for `key`, oldest first. -/
def numbers (d : Desk (Numbered α)) (key : String) : List Nat :=
  (d.handOuts key).map (·.payload.number)

/-- What is seen of `key`. -/
def view (d : Desk (Numbered α)) (key : String) : View where
  pending := (d.system.queue.pending.get? key).map Numbered.number
  late := d.late.contains key
  processing := (d.processing? key).map Numbered.number
  scheduled := fun m => ∃ x, d.system.Scheduled key x ∧ x.number = m
  handed := d.numbers key

theorem view_unscheduled (h : ∀ x, ¬ d.system.Scheduled key x) :
    (d.view key).scheduled = fun _ => False := by
  refine funext fun m => propext ⟨?_, False.elim⟩
  rintro ⟨x, hx, -⟩
  exact h x hx

/-- The numbers that an action adds. -/
def fresh (a : Action (Numbered α)) (m : Nat) : Prop :=
  ∃ k x, a = .add k x ∧ x.number = m

/-- An action that leaves the pending payload, the task and the record of `key` alone makes a
quiet move. -/
theorem view_quiet {d' : Desk (Numbered α)} {fresh : Nat → Prop}
    (hp : d'.system.queue.pending.get? key = d.system.queue.pending.get? key)
    (hl : d'.late.contains key = d.late.contains key)
    (ht : d'.processing? key = d.processing? key) (hr : d'.numbers key = d.numbers key)
    (hs : ∀ x, d'.system.Scheduled key x → d.system.Scheduled key x) :
    View.Move fresh (d.view key) (d'.view key) := by
  have hv : d'.view key = { d.view key with
      scheduled := fun m => ∃ x, d'.system.Scheduled key x ∧ x.number = m } := by
    simp only [view, hp, hl, ht, hr]
  rw [hv]
  exact .quiet fun m ⟨x, hx, hm⟩ => ⟨x, hs x hx, hm⟩

theorem move_add (hc : d.system.queue.closed = false) (k : String) (x : Numbered α) :
    View.Move (fresh (.add k x)) (d.view key) ((d.step backoff (.add k x)).view key) := by
  have hq := add_of_open hc k x
  by_cases hk : k = key
  · subst hk
    have hs : ∀ y, ¬ (d.system.step backoff (.add k x)).Scheduled k y :=
      fun y => System.not_scheduled (by simp [System.step, hq])
    have hv : (d.step backoff (.add k x)).view k = { d.view k with
        pending := some x.number, late := false, scheduled := fun _ => False } := by
      refine View.ext ?_ ?_ rfl ?_ rfl
      · simp [view, step, System.step, hq]
      · simp [view, step, NameSet.contains_erase]
      · exact view_unscheduled hs
    rw [hv]
    exact .add ⟨k, x, rfl, rfl⟩
  · refine view_quiet ?_ ?_ rfl rfl fun y hy => hy.of_retries (fun r hr => hr) ?_
    · simp [step, System.step, hq, Table.get?_insert_ne _ hk]
    · simp [step, NameSet.contains_erase, hk]
    · simp [system_step, System.step, hq, Table.get?_erase_ne _ hk]

theorem move_get {fresh : Nat → Prop} :
    View.Move fresh (d.view key) ((d.step backoff .get).view key) := by
  cases hg : d.system.hands .get with
  | none =>
    have hq := get_eq_none (q := d.system.queue) hg
    have hd : d.step backoff .get = { d with system := d.system.step backoff .get } := by
      simp only [step, hg]
    rw [hd]
    refine view_quiet ?_ rfl rfl rfl fun y hy => hy.of_retries (fun r hr => hr) ?_
    · simp only [System.step]; rw [hq]
    · simp only [System.step]; rw [hq]
  | some item =>
    obtain ⟨k, x⟩ := item
    obtain ⟨-, hx, rest, hq⟩ := get_eq_item (q := d.system.queue) hg
    have hd : d.step backoff .get = ⟨d.system.step backoff .get,
        d.tasks.insert k (.processing x), d.late.erase k,
        d.record ++ [⟨k, x, d.late.contains k⟩]⟩ := by
      simp only [step, hg]
    have hs : ∀ y, (d.system.step backoff .get).Scheduled key y ↔ d.system.Scheduled key y := by
      simp only [System.Scheduled, System.step]
      rw [hq]
      exact fun y => Iff.rfl
    rw [hd]
    by_cases hk : k = key
    · subst hk
      have hv : Desk.view ⟨d.system.step backoff .get, d.tasks.insert k (.processing x),
          d.late.erase k, d.record ++ [⟨k, x, d.late.contains k⟩]⟩ k = { d.view k with
            pending := none, late := false, processing := some x.number
            handed := (d.view k).handed ++ [x.number] } := by
        refine View.ext ?_ ?_ ?_ ?_ ?_
        · simp only [view, System.step]; rw [hq]; simp
        · simp [view, NameSet.contains_erase]
        · simp [view, processing?, Task.open?]
        · simp only [view, hs]
        · simp [view, numbers, handOuts]
      rw [hv]
      exact .take (by simp [view, hx])
    · refine view_quiet ?_ ?_ ?_ ?_ fun y hy => (hs y).1 hy
      · simp only [System.step]; rw [hq]; exact Table.get?_erase_ne _ hk
      · simp [NameSet.contains_erase, hk]
      · simp [processing?, Table.get?_insert_ne _ hk]
      · simp [numbers, handOuts, hk]

theorem move_done {fresh : Nat → Prop} {k : String} (ht : d.tasks.get? k = some .settled) :
    View.Move fresh (d.view key) ((d.step backoff (.done k)).view key) := by
  refine view_quiet rfl rfl ?_ rfl fun y hy => hy.of_retries (fun r hr => hr) rfl
  by_cases hk : k = key
  · subst hk
    simp [processing?, step, ht, Task.open?]
  · simp [processing?, step, Table.get?_erase_ne _ hk]

theorem move_forget {fresh : Nat → Prop} {k : String} (ht : (d.processing? k).isSome = true) :
    View.Move fresh (d.view key) ((d.step backoff (.forget k)).view key) := by
  obtain ⟨x, hx⟩ := Option.isSome_iff_exists.1 ht
  by_cases hk : k = key
  · subst hk
    have hs : ∀ y, ¬ (d.system.step backoff (.forget k)).Scheduled k y :=
      fun y => System.not_scheduled (by simp [System.step, forget])
    have hv : (d.step backoff (.forget k)).view k =
        { d.view k with processing := none, scheduled := fun _ => False } := by
      refine View.ext rfl rfl ?_ ?_ rfl
      · simp [view, step, processing?, Task.open?]
      · exact view_unscheduled hs
    rw [hv]
    exact .forget (m := x.number) (by simp [view, hx])
  · refine view_quiet rfl rfl ?_ rfl fun y hy => hy.of_retries (fun r hr => hr) ?_
    · simp [processing?, step, Table.get?_insert_ne _ hk]
    · simp [system_step, System.step, forget, Table.get?_erase_ne _ hk]

theorem move_retry {fresh : Nat → Prop} (hd : d.system.Dated)
    (hc : d.system.queue.closed = false) {k : String} {x : Numbered α}
    (ht : d.processing? k = some x) :
    View.Move fresh (d.view key) ((d.step backoff (.retry k x)).view key) := by
  have hs : ∀ y, (d.system.step backoff (.retry k x)).Scheduled key y ↔
      k = key ∧ x = y ∨ k ≠ key ∧ d.system.Scheduled key y :=
    fun y => System.scheduled_retry_iff hd hc
  have hp : (d.step backoff (.retry k x)).system.queue.pending = d.system.queue.pending := by
    simp [step, System.step, retry_of_open hc]
  by_cases hk : k = key
  · subst hk
    have hv : (d.step backoff (.retry k x)).view k =
        { d.view k with processing := none, scheduled := fun m => x.number = m } := by
      refine View.ext ?_ rfl ?_ ?_ rfl
      · simp only [view, hp]
      · simp [view, step, processing?, Task.open?]
      · refine funext fun m => propext ⟨?_, ?_⟩
        · rintro ⟨y, hy, rfl⟩
          obtain ⟨-, rfl⟩ | ⟨hne, -⟩ := (hs y).1 hy
          · rfl
          · exact absurd rfl hne
        · rintro rfl
          exact ⟨x, (hs x).2 (.inl ⟨rfl, rfl⟩), rfl⟩
    rw [hv]
    exact .retry (by simp [view, ht])
  · refine view_quiet (by rw [hp]) rfl ?_ rfl fun y hy => ?_
    · simp [processing?, step, Table.get?_insert_ne _ hk]
    · obtain ⟨rfl, -⟩ | ⟨-, hy⟩ := (hs y).1 hy
      · exact absurd rfl hk
      · exact hy

theorem move_fire {fresh : Nat → Prop} {place : Nat} :
    View.Move fresh (d.view key) ((d.step backoff (.fire place)).view key) := by
  obtain ⟨r, hr, hb, hr', hnone, hp, hg, hrs⟩ | ⟨hb, hp, hs⟩ :=
    System.fire_step_cases backoff d.system place
  · have hd : d.step backoff (.fire place) = { d with
        system := d.system.step backoff (.fire place)
        late := if (d.processing? r.key).isSome then d.late.add r.key
          else d.late.erase r.key } := by
      simp only [step, hb]
    rw [hd]
    by_cases hk : r.key = key
    · subst hk
      have hs : ∀ y, ¬ (d.system.step backoff (.fire place)).Scheduled r.key y :=
        fun y => System.not_scheduled (by simp [hg])
      have hv : Desk.view { d with
          system := d.system.step backoff (.fire place)
          late := if (d.processing? r.key).isSome then d.late.add r.key
            else d.late.erase r.key } r.key =
          { d.view r.key with
            pending := some r.payload.number, late := (d.processing? r.key).isSome
            scheduled := fun _ => False } := by
        refine View.ext ?_ ?_ rfl ?_ rfl
        · simp [view, hp]
        · simp only [view]
          split
          · next h => simp [NameSet.contains_add, h]
          · next h => simp [NameSet.contains_erase, h]
        · exact view_unscheduled hs
      rw [hv]
      have hmove : View.Move fresh (d.view r.key) { d.view r.key with
          pending := some r.payload.number, late := (d.view r.key).processing.isSome
          scheduled := fun _ => False } :=
        .comeBack ⟨r.payload, hr', rfl⟩ (by simp [view, hnone])
      simpa [view] using hmove
    · refine view_quiet ?_ ?_ rfl rfl fun y hy => hy.of_retries ?_ ?_
      · simp [hp, Table.get?_insert_ne _ hk]
      · simp only
        split
        · simp [NameSet.contains_add, hk]
        · simp [NameSet.contains_erase, hk]
      · exact fun t ht => List.mem_of_mem_eraseIdx (by simpa [hrs] using ht)
      · simp [hg, Table.get?_erase_ne _ hk]
  · have hd : d.step backoff (.fire place) =
        { d with system := d.system.step backoff (.fire place) } := by
      simp only [step, hb]
    rw [hd]
    exact view_quiet (by rw [hp]) rfl rfl rfl fun y hy => hs key y hy

/-- Every careful action of an open queue is one of the moves on each key. -/
theorem view_move (hd : d.system.Dated) (hc : d.system.queue.closed = false)
    {a : Action (Numbered α)} (ha : d.Careful a) :
    View.Move (fresh a) (d.view key) ((d.step backoff a).view key) := by
  cases a with
  | add k x => exact move_add hc k x
  | get => exact move_get
  | done k => exact move_done ha
  | forget k => exact move_forget ha
  | retry k x => exact move_retry hd hc ha
  | fire place => exact move_fire
  | close => exact view_quiet rfl rfl rfl rfl fun y hy => hy

end Desk

end Queue

end ClusterHerald
