import ClusterHerald.Proofs.Queue.Order

/-!
# Payloads that come back late

A retry may make its payload pending while a newer payload of the key is in hand: the newer one
was added before the retry was scheduled, and only what happens to the key after that drops a
retry.  The older payload is then handed out after the newer one.

`numbered` gives every payload of a run the place of the add that brought it, and
`numbered_run` follows these numbers: what is handed out for a key is in order up to the first
hand-out that is late, and never again from then on.

* `in_order_iff_none_late` : a careful run hands out the payloads of a key in the order of their
  adds iff it hands out none of them late.
* `older_payload_after_newer` : there are careful runs that do.
-/

namespace ClusterHerald

universe u

namespace Queue

namespace Desk

variable {α : Type u} {backoff : Backoff} {key : String}

/-! ### Numbering a run -/

/-- Gives an action the numbers of its payloads: the number `n` to a payload that is added, and to
one that has to come back the number under which it was handed out. -/
def mark (d : Desk (Numbered α)) (n : Nat) : Action α → Action (Numbered α)
  | .retry key payload => .retry key ((d.processing? key).getD ⟨n, payload⟩)
  | a => a.map (⟨n, ·⟩)

/-- A run with each payload numbered by the place of the add that brought it, where the first
action of the run has place `n`. -/
def numbered (backoff : Backoff) (d : Desk (Numbered α)) (n : Nat) :
    List (Action α) → List (Action (Numbered α))
  | [] => []
  | a :: actions =>
    d.mark n a :: numbered backoff (d.step backoff (d.mark n a)) (n + 1) actions

variable {d : Desk (Numbered α)} {n : Nat}

theorem fresh_mark {a : Action α} {m : Nat} (h : fresh (d.mark n a) m) : m = n := by
  obtain ⟨k, x, he, rfl⟩ := h
  cases a <;> cases he
  rfl

theorem map_mark {a : Action α} (ha : (d.map Numbered.payload).Careful a) :
    (d.mark n a).map Numbered.payload = a := by
  cases a with
  | retry k x =>
    obtain ⟨y, hy, rfl⟩ := Option.map_eq_some_iff.1 ((processing?_map _ d k).symm.trans ha)
    simp [mark, Action.map, hy]
  | _ => rfl

theorem careful_mark {a : Action α} (ha : (d.map Numbered.payload).Careful a) :
    d.Careful (d.mark n a) := by
  cases a with
  | done k =>
    have ht : (d.tasks.get? k).map (Task.map Numbered.payload) = some .settled := by
      simpa [Careful, map] using ha
    obtain ⟨_ | _, ht, he⟩ := Option.map_eq_some_iff.1 ht
    · cases he
    · exact ht
  | forget k =>
    have ht : ((d.map Numbered.payload).processing? k).isSome = true := ha
    rwa [processing?_map, Option.isSome_map] at ht
  | retry k x =>
    obtain ⟨y, hy, -⟩ := Option.map_eq_some_iff.1 ((processing?_map _ d k).symm.trans ha)
    simp [mark, Careful, hy]
  | _ => trivial

/-- Without the numbers the numbered run is the run itself. -/
theorem map_numbered {actions : List (Action α)}
    (ha : Obeys (step backoff) Careful (d.map Numbered.payload) actions) :
    (numbered backoff d n actions).map (Action.map Numbered.payload) = actions := by
  induction actions generalizing d n with
  | nil => rfl
  | cons a actions ih =>
    obtain ⟨ha, hrest⟩ := ha
    have hm := map_mark (n := n) ha
    rw [← hm, ← map_step] at hrest
    simp only [numbered, List.map_cons, hm, ih hrest]

/-! ### Runs in order -/

/-- As long as nothing was handed out late, what was handed out for the key is in order, and the
queue is closed or what is on its way is in order too.  Afterwards it is not in order any more. -/
inductive Tracked (d : Desk (Numbered α)) (key : String) (n : Nat) : Prop
  | inOrder (hl : ∀ h ∈ d.handOuts key, h.late = false) (ho : (d.numbers key).Pairwise (· ≤ ·))
      (hv : d.system.queue.closed = false → (d.view key).InOrder n)
  | late (hl : ∃ h ∈ d.handOuts key, h.late = true) (ho : ¬ (d.numbers key).Pairwise (· ≤ ·))

theorem tracked_start : (start : Desk (Numbered α)).Tracked key n :=
  .inOrder nofun .nil fun _ => View.inOrder_empty fun _ ⟨_, ⟨_, hr, _⟩, _⟩ => nomatch hr

/-- An action moves the view of a key, so what is on its way stays in order unless a late payload
is handed out. -/
theorem view_inOrder_step {a : Action (Numbered α)} (hd : d.system.Dated) (ha : d.Careful a)
    (hf : ∀ m, fresh a m → m = n)
    (hv : d.system.queue.closed = false → (d.view key).InOrder n)
    (hh : (d.step backoff a).numbers key = d.numbers key ∨ d.late.contains key = false)
    (hc : (d.step backoff a).system.queue.closed = false) :
    ((d.step backoff a).view key).InOrder (n + 1) := by
  have hc' := System.open_of_step (system_step a ▸ hc)
  exact (hv hc').move (view_move hd hc' ha)
    (fun m hm => hf m hm ▸ ⟨Nat.le_refl _, Nat.lt_succ_self _⟩) (Nat.le_succ n) hh

/-- What is handed out for the key keeps it in order iff it is not late. -/
theorem tracked_step (backoff : Backoff) {a : Action (Numbered α)} (h : d.Tracked key n)
    (hd : d.system.Dated) (ha : d.Careful a) (hf : ∀ m, fresh a m → m = n) :
    (d.step backoff a).Tracked key (n + 1) := by
  obtain he | ⟨x, hc, hp, he⟩ := handOuts_step_cases backoff d a key
  · have hn : (d.step backoff a).numbers key = d.numbers key := by rw [numbers, he, numbers]
    cases h with
    | inOrder hl ho hv =>
      exact .inOrder (he ▸ hl) (hn ▸ ho) (view_inOrder_step hd ha hf hv (.inl hn))
    | late hl ho => exact .late (he ▸ hl) (hn ▸ ho)
  · have hn : (d.step backoff a).numbers key = d.numbers key ++ [x.number] := by
      simp [numbers, he]
    cases h with
    | inOrder hl ho hv =>
      have hpend : (d.view key).pending = some x.number := by simp [view, hp]
      cases hlate : d.late.contains key with
      | false =>
        refine .inOrder ?_ ?_ (view_inOrder_step hd ha hf hv (.inr hlate))
        · simpa [he, or_imp, forall_and, hlate] using hl
        · rw [hn, List.pairwise_append]
          refine ⟨ho, List.pairwise_singleton _ _, fun m hm p hp' => ?_⟩
          rw [List.mem_singleton.1 hp']
          exact (hv hc).pending_ge x.number hpend hlate m hm
      | true =>
        obtain ⟨m, hm, hlt⟩ := (hv hc).late_lt x.number hpend hlate
        refine .late ⟨⟨key, x, true⟩, by simp [he, hlate], rfl⟩ fun hs => ?_
        rw [hn, List.pairwise_append] at hs
        exact Nat.not_le_of_lt hlt (hs.2.2 m hm x.number List.mem_cons_self)
    | late hl ho =>
      obtain ⟨e, hmem, hlate⟩ := hl
      refine .late ⟨e, by simp [he, hmem], hlate⟩ fun hs => ho ?_
      rw [hn, List.pairwise_append] at hs
      exact hs.1

/-- A numbered run keeps to the rule, and it hands out a key in order as long as nothing is
late. -/
theorem numbered_run {actions : List (Action α)} (h : d.Tracked key n) (hd : d.system.Dated)
    (ha : Obeys (step backoff) Careful (d.map Numbered.payload) actions) :
    Obeys (step backoff) Careful d (numbered backoff d n actions) ∧
      (d.run backoff (numbered backoff d n actions)).Tracked key (n + actions.length) := by
  induction actions generalizing d n with
  | nil => exact ⟨trivial, h⟩
  | cons a actions ih =>
    obtain ⟨ha, hrest⟩ := ha
    have hc := careful_mark (n := n) ha
    have ht := tracked_step backoff h hd hc fun m => fresh_mark
    have hd' : (d.step backoff (d.mark n a)).system.Dated :=
      system_step (d.mark n a) ▸ System.dated_step hd _
    rw [← map_mark (n := n) ha, ← map_step] at hrest
    obtain ⟨ho, htr⟩ := ih ht hd' hrest
    refine ⟨⟨hc, ho⟩, ?_⟩
    rwa [Nat.add_right_comm] at htr

theorem number_of_add {actions : List (Action α)} {i : Nat} {k : String} {x : Numbered α}
    (h : (numbered backoff d n actions)[i]? = some (.add k x)) : x.number = n + i := by
  induction actions generalizing d n i with
  | nil => cases h
  | cons a actions ih =>
    cases i with
    | zero => exact fresh_mark (a := a) ⟨k, x, by simpa [numbered] using h, rfl⟩
    | succ i =>
      have := ih (by simpa [numbered] using h)
      omega

/-- **Payloads are handed out in the order of their adds as long as none is late.**  Let every
payload of a careful run carry the place of the add that brought it.  Then the numbers that are
handed out for a key never fall, exactly if no get hands out a payload that a retry brought back
while another payload of the key was in hand with its outcome open. -/
theorem in_order_iff_none_late {actions : List (Action α)}
    (ha : Obeys (step backoff) Careful (start : Desk α) actions) :
    let marked := numbered backoff (start : Desk (Numbered α)) 0 actions
    marked.map (Action.map Numbered.payload) = actions ∧
    (∀ (i : Nat) key payload, marked[i]? = some (.add key payload) → payload.number = i) ∧
    Obeys (step backoff) Careful start marked ∧
    ((start.run backoff marked).record.map fun h => (h.key, h.payload)) =
      System.start.handed backoff marked ∧
    ∀ key, ((start.run backoff marked).numbers key).Pairwise (· ≤ ·) ↔
      ∀ h ∈ ((start : Desk α).run backoff actions).handOuts key, h.late = false := by
  intro marked
  have hmap : (start.run backoff marked).map Numbered.payload = start.run backoff actions := by
    rw [map_run, map_start, map_numbered ha]
  have hrun (key : String) :=
    numbered_run (n := 0) (tracked_start : Tracked _ key 0) System.dated_start ha
  refine ⟨map_numbered ha, fun i key payload hi => ?_, (hrun "").1, ?_, fun key => ?_⟩
  · simpa using number_of_add hi
  · simpa [start] using record_run backoff start marked
  · rw [← hmap, handOuts_map]
    simp only [List.forall_mem_map, HandOut.map]
    rcases (hrun key).2 with ⟨hl, ho, -⟩ | ⟨⟨h, hmem, hlate⟩, ho⟩
    · exact iff_of_true ho hl
    · exact iff_of_false ho fun hl => by simp [hl h hmem] at hlate

/-- The older payload comes back while the newer one is in hand, but a third one replaces it. -/
theorem replaced_late_payload_in_order :
    let actions : List (Action Nat) :=
      [.add "a" 1, .get, .add "a" 2, .retry "a" 1, .done "a", .get, .fire 0, .add "a" 3,
        .forget "a", .done "a", .get]
    Obeys (step .standard) Careful (start : Desk Nat) actions ∧
      ((start.run .standard (numbered .standard start 0 actions)).numbers "a").Pairwise
        (· ≤ ·) := by
  intro actions
  have ha : Obeys (step .standard) Careful (start : Desk Nat) actions :=
    ⟨trivial, trivial, trivial, rfl, rfl, trivial, trivial, trivial, rfl, rfl, trivial, trivial⟩
  exact ⟨ha, ((in_order_iff_none_late ha).2.2.2.2 "a").2 (by decide)⟩

/-- The older payload comes back while the newer one is in hand, and is handed out after it. -/
theorem older_payload_after_newer :
    ¬ ∀ actions : List (Action Nat), Obeys (step .standard) Careful (start : Desk Nat) actions →
      ∀ key, ((start.run .standard (numbered .standard start 0 actions)).numbers key).Pairwise
        (· ≤ ·) := by
  intro h
  have ha : Obeys (step .standard) Careful (start : Desk Nat)
      [.add "a" 1, .get, .add "a" 2, .retry "a" 1, .done "a", .get, .fire 0, .forget "a",
        .done "a", .get] :=
    ⟨trivial, trivial, trivial, rfl, rfl, trivial, trivial, rfl, rfl, trivial, trivial⟩
  exact absurd (h _ ha "a") (by decide)

end Desk

end Queue

end ClusterHerald
