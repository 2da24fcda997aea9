import ClusterHerald.Proofs.Queue.Run
import Mathlib.Data.List.Nodup

/-!
# Keys in line

While a queue is open and nobody is done with a key that is not in hand, its line is in order
(`InLine`): no key stands in it twice, and a key stands in it iff it is pending and not in hand.

* `System.inLine_run` : the line stays in order.
* `System.hands_isSome_iff` : a get hands out a key as long as one is pending and not in hand, and
  it never hands out a key in hand (`System.not_inHand_of_hands`).
* `System.ready_prefix` : the line is a prefix of the keys that are handed out from then on and
  the line that is left, so keys are handed out in the order of the line.
-/

namespace ClusterHerald

universe u

namespace Queue

variable {α : Type u}

/-- No key stands in the line twice, and a key stands in it iff it is pending and not in hand. -/
structure InLine (q : Queue α) : Prop where
  nodup : q.ready.Nodup
  mem_ready : ∀ key, key ∈ q.ready ↔ q.pending.has key = true ∧ q.inHand.contains key = false

theorem inLine_empty : InLine (empty : Queue α) :=
  ⟨List.nodup_nil, fun _ => by simp [empty]⟩

namespace InLine

variable {q : Queue α}

/-- A key joins the line when it becomes pending, unless it is in hand. -/
theorem push (h : q.InLine) {key : String} (hp : q.pending.has key = false) (payload : α) :
    (q.push key payload).InLine := by
  have hr : key ∉ q.ready := fun hk => by simp [((h.mem_ready key).1 hk).1] at hp
  cases hh : q.inHand.contains key with
  | true =>
    refine ⟨by simpa [Queue.push, hh] using h.nodup, fun k => ?_⟩
    simp only [Queue.push, hh, if_true, h.mem_ready, Table.has_insert, Bool.or_eq_true,
      decide_eq_true_eq]
    constructor
    · exact fun hk => ⟨.inr hk.1, hk.2⟩
    · rintro ⟨rfl | hk, hn⟩
      · simp [hh] at hn
      · exact ⟨hk, hn⟩
  | false =>
    refine ⟨?_, fun k => ?_⟩
    · simpa [Queue.push, hh, List.nodup_middle] using ⟨hr, h.nodup⟩
    · simp only [Queue.push, hh, Bool.false_eq_true, if_false, List.mem_append, h.mem_ready,
        List.mem_singleton, Table.has_insert, Bool.or_eq_true, decide_eq_true_eq]
      constructor
      · rintro (hk | rfl)
        · exact ⟨.inr hk.1, hk.2⟩
        · exact ⟨.inl rfl, hh⟩
      · rintro ⟨rfl | hk, hn⟩
        · exact .inr rfl
        · exact .inl ⟨hk, hn⟩

/-- A payload that takes the place of a pending one leaves the line as it is. -/
theorem replace (h : q.InLine) {key : String} (hp : q.pending.has key = true) (payload : α) :
    InLine { q with pending := q.pending.insert key payload } := by
  refine ⟨h.nodup, fun k => ?_⟩
  simp only [h.mem_ready, Table.has_insert, Bool.or_eq_true, decide_eq_true_eq]
  constructor
  · exact fun hk => ⟨.inr hk.1, hk.2⟩
  · rintro ⟨rfl | hk, hn⟩
    · exact ⟨hp, hn⟩
    · exact ⟨hk, hn⟩

theorem add (h : q.InLine) (key : String) (payload : α) : (q.add key payload).InLine := by
  unfold Queue.add
  split
  · exact h
  · have hs : InLine { q with scheduled := q.scheduled.erase key } := ⟨h.nodup, h.mem_ready⟩
    simp only
    split
    · next hp => exact hs.replace hp payload
    · next hp => exact hs.push (by simpa using hp) payload

theorem fire (h : q.InLine) (key : String) (payload : α) (generation : Nat) :
    (q.fire key payload generation).InLine := by
  have hs : InLine { q with scheduled := q.scheduled.erase key } := ⟨h.nodup, h.mem_ready⟩
  obtain ⟨he, -⟩ | ⟨-, -, ⟨-, he⟩ | ⟨hp, he⟩⟩ := fire_cases q key payload generation
  · rwa [he]
  · rwa [he]
  · rw [he]; exact hs.push hp payload

/-- The first key of the line is pending. -/
theorem pending_head (h : q.InLine) {key : String} {keys : List String}
    (hr : q.ready = key :: keys) : ∃ payload, q.pending.get? key = some payload :=
  Table.has_iff.1 ((h.mem_ready key).1 (by simp [hr])).1

theorem get (h : q.InLine) : q.get.2.InLine := by
  cases hc : q.closed with
  | true => simpa [Queue.get, hc] using h
  | false =>
    cases hr : q.ready with
    | nil => rwa [(get_of_empty hr).2]
    | cons key keys =>
      obtain ⟨payload, hp⟩ := h.pending_head hr
      rw [get_of_ready hc hr hp]
      have hn := List.nodup_cons.1 (hr ▸ h.nodup)
      refine ⟨hn.2, fun k => ?_⟩
      have hk := h.mem_ready k
      rw [hr, List.mem_cons] at hk
      simp only [Table.has_erase, NameSet.contains_add, Bool.and_eq_true, Bool.not_eq_true',
        decide_eq_false_iff_not, Bool.or_eq_false_iff]
      constructor
      · intro hmem
        have hne : key ≠ k := fun e => hn.1 (e ▸ hmem)
        exact ⟨⟨hne, (hk.1 (.inr hmem)).1⟩, hne, (hk.1 (.inr hmem)).2⟩
      · rintro ⟨⟨hne, hp'⟩, -, hh⟩
        exact (hk.2 ⟨hp', hh⟩).resolve_left fun e => hne e.symm

theorem done (h : q.InLine) (hc : q.closed = false) {key : String}
    (hh : q.inHand.contains key = true) : (q.done key).InLine := by
  have hr : key ∉ q.ready := fun hk => by simp [((h.mem_ready key).1 hk).2] at hh
  rw [done_of_open hc]
  cases hp : q.pending.has key with
  | true =>
    refine ⟨?_, fun k => ?_⟩
    · simpa [List.nodup_middle] using ⟨hr, h.nodup⟩
    · simp only [if_true, List.mem_append, h.mem_ready, List.mem_singleton,
        NameSet.contains_erase, Bool.and_eq_false_iff, Bool.not_eq_false', decide_eq_true_eq]
      constructor
      · rintro (hk | rfl)
        · exact ⟨hk.1, .inr hk.2⟩
        · exact ⟨hp, .inl rfl⟩
      · rintro ⟨hk, rfl | hn⟩
        · exact .inr rfl
        · exact .inl ⟨hk, hn⟩
  | false =>
    refine ⟨by simpa using h.nodup, fun k => ?_⟩
    simp only [Bool.false_eq_true, if_false, h.mem_ready, NameSet.contains_erase,
      Bool.and_eq_false_iff, Bool.not_eq_false', decide_eq_true_eq]
    constructor
    · exact fun hk => ⟨hk.1, .inr hk.2⟩
    · rintro ⟨hk, rfl | hn⟩
      · simp [hp] at hk
      · exact ⟨hk, hn⟩

end InLine

/-! ### Whole runs -/

namespace System

/-- Before the queue is closed, and by parties that are done only with keys in hand. -/
def Orderly (s : System α) : Action α → Prop
  | .done key => s.queue.inHand.contains key = true
  | .close => False
  | _ => True

variable {backoff : Backoff} {s : System α}

theorem Orderly.ne_close {a : Action α} (h : s.Orderly a) : a ≠ .close := by
  rintro rfl
  exact h

theorem inLine_step {a : Action α} (h : s.queue.InLine) (hc : s.queue.closed = false)
    (ha : s.Orderly a) : (s.step backoff a).queue.InLine := by
  cases a with
  | add key payload => exact h.add key payload
  | get => exact h.get
  | done key => exact h.done hc ha
  | forget key => exact ⟨h.nodup, h.mem_ready⟩
  | retry key payload =>
    simp only [step, retry_of_open hc]
    exact ⟨h.nodup, h.mem_ready⟩
  | fire place =>
    simp only [step]
    split
    · exact h.fire _ _ _
    · exact h
  | close => exact ha.elim

/-- Before the queue is closed its line stays in order. -/
theorem inLine_run (h : s.queue.InLine) (hc : s.queue.closed = false) {actions : List (Action α)}
    (ha : Obeys (step backoff) Orderly s actions) :
    (s.run backoff actions).queue.InLine ∧ (s.run backoff actions).queue.closed = false :=
  ha.foldl (motive := fun s : System α => s.queue.InLine ∧ s.queue.closed = false) ⟨h, hc⟩
    fun _ _ hs ha => ⟨inLine_step hs.1 hs.2 ha, (step_closed ha.ne_close).trans hs.2⟩

/-! ### What is handed out -/

/-- A get hands out the first key of the line. -/
theorem hands_of_ready (h : s.queue.InLine) (hc : s.queue.closed = false) :
    (s.hands .get).map Prod.fst = s.queue.ready.head? := by
  cases hr : s.queue.ready with
  | nil => simp [hands, get_of_empty hr]
  | cons key keys =>
    obtain ⟨payload, hp⟩ := h.pending_head hr
    simp [hands, get_of_ready hc hr hp, Taken.item?]

theorem not_inHand_of_hands (h : s.queue.InLine) (hc : s.queue.closed = false) {key : String}
    {payload : α} (hg : s.hands .get = some (key, payload)) :
    s.queue.inHand.contains key = false := by
  have hk := hands_of_ready h hc
  rw [hg] at hk
  exact ((h.mem_ready key).1 (List.mem_of_mem_head? hk.symm)).2

/-- A get hands out a key as long as one is pending and not in hand. -/
theorem hands_isSome_iff (h : s.queue.InLine) (hc : s.queue.closed = false) :
    (s.hands .get).isSome = true ↔
      ∃ key, s.queue.pending.has key = true ∧ s.queue.inHand.contains key = false := by
  rw [← Option.isSome_map, hands_of_ready h hc]
  simp only [← h.mem_ready]
  cases s.queue.ready <;> simp

/-- An action takes at most the first key out of the line, and lets keys join at its end. -/
theorem ready_prefix_step {a : Action α} (h : s.queue.InLine) (hc : s.queue.closed = false)
    (ha : a ≠ .close) :
    s.queue.ready <+: (s.hands a).toList.map Prod.fst ++ (s.step backoff a).queue.ready := by
  cases a with
  | add key payload =>
    simp only [hands, step, add_of_open hc, Option.toList_none, List.map_nil, List.nil_append]
    split
    · exact List.prefix_rfl
    · exact List.prefix_append _ _
  | get =>
    cases hr : s.queue.ready with
    | nil => exact List.nil_prefix
    | cons key keys =>
      obtain ⟨payload, hp⟩ := h.pending_head hr
      simp [hands, step, get_of_ready hc hr hp, Taken.item?]
  | done key =>
    simp only [hands, step, done_of_open hc, Option.toList_none, List.map_nil, List.nil_append]
    split
    · exact List.prefix_append _ _
    · exact List.prefix_rfl
  | forget key => exact List.prefix_rfl
  | retry key payload => simp [hands, step, retry_of_open hc]
  | fire place =>
    simp only [hands, step, Option.toList_none, List.map_nil, List.nil_append]
    split
    · next r _ =>
      obtain ⟨he, -⟩ | ⟨-, -, ⟨-, he⟩ | ⟨-, he⟩⟩ :=
        fire_cases s.queue r.key r.payload r.generation
      · exact (congrArg ready he).symm ▸ List.prefix_rfl
      · exact (congrArg ready he).symm ▸ List.prefix_rfl
      · rw [he, push]
        split
        · exact List.prefix_rfl
        · exact List.prefix_append _ _
    · exact List.prefix_rfl
  | close => exact absurd rfl ha

/-- The keys in line are handed out first, in their order. -/
theorem ready_prefix (h : s.queue.InLine) (hc : s.queue.closed = false)
    {actions : List (Action α)} (ha : Obeys (step backoff) Orderly s actions) :
    s.queue.ready <+:
      (s.handed backoff actions).map Prod.fst ++ (s.run backoff actions).queue.ready := by
  induction actions generalizing s with
  | nil => exact List.prefix_rfl
  | cons a actions ih =>
    have hrest := ih (inLine_step h hc ha.1) ((step_closed ha.1.ne_close).trans hc) ha.2
    rw [handed_cons, List.map_append, List.append_assoc, run_cons]
    exact (ready_prefix_step h hc ha.1.ne_close).trans
      ((List.prefix_append_right_inj _).2 hrest)

/-- **Keys are handed out one party at a time and in turn.**  In every state that an open queue
reaches, the keys in line are those that are pending and not in hand, each once.  So a get never
hands out a key in hand, and it hands out one as long as there is one to hand out.  The key at
place `i` of the line is what the get hands out that succeeds after `i` others, and it stays in
line until then. -/
theorem exclusive_and_in_turn {actions : List (Action α)}
    (ha : Obeys (step backoff) Orderly (start : System α) actions) :
    let s := (start : System α).run backoff actions
    s.queue.ready.Nodup ∧
    (∀ key, key ∈ s.queue.ready ↔
      s.queue.pending.has key = true ∧ s.queue.inHand.contains key = false) ∧
    (∀ key payload, s.hands .get = some (key, payload) → s.queue.inHand.contains key = false) ∧
    ((s.hands .get).isSome = true ↔
      ∃ key, s.queue.pending.has key = true ∧ s.queue.inHand.contains key = false) ∧
    ∀ i key, s.queue.ready[i]? = some key → ∀ later, Obeys (step backoff) Orderly s later →
      (i < (s.handed backoff later).length →
        ((s.handed backoff later).map Prod.fst)[i]? = some key) ∧
      ((s.handed backoff later).length ≤ i →
        (s.run backoff later).queue.ready[i - (s.handed backoff later).length]? = some key) := by
  intro s
  obtain ⟨h, hc⟩ : s.queue.InLine ∧ s.queue.closed = false := inLine_run inLine_empty rfl ha
  refine ⟨h.nodup, h.mem_ready, fun key payload => not_inHand_of_hands h hc,
    hands_isSome_iff h hc, fun i key hi later hl => ?_⟩
  have hkey : ((s.handed backoff later).map Prod.fst ++ (s.run backoff later).queue.ready)[i]? =
      some key := by
    obtain ⟨rest, hrest⟩ := ready_prefix h hc hl
    rw [← hrest, List.getElem?_append_left (List.getElem?_eq_some_iff.1 hi).1, hi]
  constructor
  · intro hlt
    rwa [List.getElem?_append_left (by simpa using hlt)] at hkey
  · intro hle
    rwa [List.getElem?_append_right (by simpa using hle), List.length_map] at hkey

/-- A key that was added while it was in hand, and failed, waits behind the other key and is
handed out after it. -/
theorem dirty_key_in_turn :
    let actions : List (Action Nat) :=
      [.add "a" 1, .add "b" 2, .get, .add "a" 3, .retry "a" 1, .done "a"]
    let later : List (Action Nat) := [.add "b" 4, .get, .fire 0, .done "b", .get]
    let s := (start : System Nat).run .standard actions
    Obeys (step .standard) Orderly (start : System Nat) actions ∧
      s.queue.ready[1]? = some "a" ∧ Obeys (step .standard) Orderly s later ∧
      1 < (s.handed .standard later).length ∧
      ((s.handed .standard later).map Prod.fst)[1]? = some "a" := by
  intro actions later s
  have ha : Obeys (step .standard) Orderly (start : System Nat) actions :=
    ⟨trivial, trivial, trivial, trivial, trivial, rfl, trivial⟩
  have hl : Obeys (step .standard) Orderly s later :=
    ⟨trivial, trivial, trivial, rfl, trivial, trivial⟩
  have hi : s.queue.ready[1]? = some "a" := by decide
  have hlt : 1 < (s.handed .standard later).length := by decide
  exact ⟨ha, hi, hl, hlt, ((exclusive_and_in_turn ha).2.2.2.2 1 "a" hi later hl).1 hlt⟩

end System

end Queue

end ClusterHerald
