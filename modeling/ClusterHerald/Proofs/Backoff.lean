import ClusterHerald.Backoff
import Mathlib.Algebra.Ring.Nat
import Mathlib.Order.MinMax

/-!
# How delays grow

A product of a span that leaves the words is longer than any span (`Span.times?_eq_none_iff`), so
cutting it to the greatest delay is exact.  The delay is therefore the base, doubled with every
failure after the first and cut to the greatest delay, as long as the doublings are counted
(`Backoff.total_delay`).  From then on it is the greatest delay, whatever the base, and that is
right only where the doubled base has reached it (`Backoff.doubled_and_cut_iff`).  Either way a
delay is at most the greatest one (`Backoff.delay_le_max`) and at least that of fewer failures
(`Backoff.delay_mono`).

`Backoff.delayInWords` is the same computation with a look at every step that is made in words.  No
step leaves its word (`Backoff.delayInWords_eq`).
-/

namespace ClusterHerald

namespace Span

variable {s : Span} {factor : Nat}

theorem total_lt (s : Span) : s.total < UInt64.size * 1000000000 := by
  have hs := s.secs_lt
  have hn := s.nanos_lt
  simp only [total, UInt64.size] at hs ⊢
  omega

/-- A product does not fit exactly if it is longer than any span. -/
theorem times?_eq_none_iff :
    s.times? factor = none ↔ UInt64.size * 1000000000 ≤ s.total * factor := by
  have hrest : s.nanos * factor % 1000000000 < 1000000000 := Nat.mod_lt _ (by decide)
  have hleaves : s.times? factor = none ↔
      ¬ s.secs * factor + s.nanos * factor / 1000000000 < UInt64.size := by
    simp [times?]
  rw [hleaves, total_mul]
  generalize s.secs * factor + s.nanos * factor / 1000000000 = secs
  simp only [UInt64.size]
  omega

/-- Spans are ordered by their length. -/
instance : LinearOrder Span :=
  LinearOrder.lift' total fun _ _ => total_injective

theorem le_iff {t : Span} : s ≤ t ↔ s.total ≤ t.total := Iff.rfl

end Span

/-! ### The formula -/

namespace Backoff

variable (b : Backoff) {failures : Nat}

theorem delay_of_gt (h : maxDoublings < failures) : b.delay failures = b.max :=
  if_pos (Nat.le_sub_one_of_lt h)

theorem total_delay_of_le (h : failures ≤ maxDoublings) :
    (b.delay failures).total = min (b.base.total * 2 ^ (failures - 1)) b.max.total := by
  have hcounted : ¬ maxDoublings ≤ failures - 1 := by
    simp only [maxDoublings] at h ⊢
    omega
  simp only [delay, if_neg hcounted, Nat.pow_eq]
  cases hd : b.base.times? (2 ^ (failures - 1)) with
  | some d =>
    rw [← Span.total_times? hd]
    exact Span.total_min d b.max
  | none =>
    -- the greatest delay is a span, so it is shorter than the product
    have hlong := Nat.le_trans (Nat.le_of_lt b.max.total_lt) (Span.times?_eq_none_iff.1 hd)
    exact (Nat.min_eq_right hlong).symm

/-- As long as the doublings are counted the delay is the base, doubled with every failure after the
first, or the greatest delay if that is shorter.  Then it is the greatest delay. -/
theorem total_delay (failures : Nat) :
    (b.delay failures).total =
      if failures ≤ maxDoublings then min (b.base.total * 2 ^ (failures - 1)) b.max.total
      else b.max.total := by
  split
  · next h => exact b.total_delay_of_le h
  · next h => rw [b.delay_of_gt (Nat.lt_of_not_le h)]

/-- The doubled base is cut rightly exactly if the doublings are counted, or have reached the
greatest delay. -/
theorem total_delay_eq_min_iff :
    (b.delay failures).total = min (b.base.total * 2 ^ (failures - 1)) b.max.total ↔
      failures ≤ maxDoublings ∨ b.max.total ≤ b.base.total * 2 ^ (failures - 1) := by
  rw [total_delay]
  split
  · next h => exact iff_of_true rfl (.inl h)
  · next h =>
    constructor
    · intro hmin
      exact .inr (Nat.le_trans (Nat.le_of_eq hmin) (Nat.min_le_left ..))
    · rintro (hcounted | hreached)
      · exact absurd hcounted h
      · exact (Nat.min_eq_right hreached).symm

/-! ### Shorter and longer delays -/

theorem delay_le_max (failures : Nat) : b.delay failures ≤ b.max := by
  rw [Span.le_iff, total_delay]
  split
  · exact Nat.min_le_right ..
  · exact Nat.le_refl _

/-- More failures do not make the delay shorter. -/
theorem delay_mono : Monotone b.delay := by
  intro m n hmn
  by_cases hn : n ≤ maxDoublings
  · have hfactor : 2 ^ (m - 1) ≤ 2 ^ (n - 1) :=
      Nat.pow_le_pow_right (by decide) (Nat.sub_le_sub_right hmn 1)
    rw [Span.le_iff, b.total_delay_of_le (Nat.le_trans hmn hn), b.total_delay_of_le hn]
    exact min_le_min_right _ (Nat.mul_le_mul_left _ hfactor)
  · -- the doublings of `n` are not counted any more, and no delay is longer than its own
    rw [b.delay_of_gt (Nat.lt_of_not_le hn)]
    exact b.delay_le_max m

end Backoff

/-! ### The steps in words -/

/-- What a step gives, if it does not leave a word of `size` values. -/
def inWord (size value : Nat) : Option Nat :=
  if value < size then some value else none

/-- The span `factor` times, step by step.  If the nanoseconds leave their word there is no result.
The seconds may leave theirs: then the result is that the product does not fit. -/
def Span.timesInWords (s : Span) (factor : Nat) : Option (Option Span) := do
  let nanos ← inWord UInt64.size (s.nanos * factor)
  match inWord UInt64.size (s.secs * factor) with
  | none => return none
  | some secs =>
    let sum := secs + nanos / 1000000000
    return if h : sum < UInt64.size then
      some ⟨sum, nanos % 1000000000, h, Nat.mod_lt _ (by decide)⟩
    else none

/-- `Backoff.delay`, step by step.  There is no result if a step leaves its word that must not. -/
def Backoff.delayInWords (b : Backoff) (failures : UInt32) : Option Span :=
  let doublings := failures.toNat - 1
  if maxDoublings ≤ doublings then some b.max
  else do
    let factor ← inWord UInt32.size (2 ^ doublings)
    match ← b.base.timesInWords factor with
    | some d => return d.min b.max
    | none => return b.max

theorem inWord_of_lt {size value : Nat} (h : value < size) : inWord size value = some value :=
  if_pos h

/-- The nanoseconds of a product with a word of 32 bits fit a word of 64 bits. -/
theorem Span.timesInWords_eq (s : Span) {factor : Nat} (h : factor < UInt32.size) :
    s.timesInWords factor = some (s.times? factor) := by
  have hnanos : s.nanos * factor < UInt64.size :=
    Nat.lt_trans (Nat.mul_lt_mul'' s.nanos_lt h) (by decide)
  simp only [timesInWords, inWord_of_lt hnanos, times?]
  by_cases hsecs : s.secs * factor < UInt64.size
  · simp [inWord_of_lt hsecs]
  · have hsum : ¬ s.secs * factor + s.nanos * factor / 1000000000 < UInt64.size :=
      fun hlt => hsecs (Nat.lt_of_le_of_lt (Nat.le_add_right ..) hlt)
    simp [inWord, hsecs, hsum]

/-- No step of a delay leaves its word. -/
theorem Backoff.delayInWords_eq (b : Backoff) (failures : UInt32) :
    b.delayInWords failures = some (b.delay failures.toNat) := by
  simp only [delayInWords, delay]
  split
  · rfl
  · next hcounted =>
    have hfactor : 2 ^ (failures.toNat - 1) < UInt32.size :=
      Nat.pow_lt_pow_right (by decide) (Nat.lt_of_not_le hcounted)
    simp only [inWord_of_lt hfactor, Nat.pow_eq]
    cases hd : b.base.times? (2 ^ (failures.toNat - 1)) <;>
      simp [b.base.timesInWords_eq hfactor, hd]

namespace Backoff

/-- **How delays grow.**  No step of a delay leaves its word.  As long as the doublings are counted,
the delay is the base, doubled with every failure after the first, or the greatest delay if that is
shorter.  From then on it is the greatest delay, which is the shorter of the two only if the doubled
base has reached it. -/
theorem doubled_and_cut_iff (b : Backoff) (failures : UInt32) :
    b.delayInWords failures = some (b.delay failures.toNat) ∧
    (b.delay failures.toNat).total =
      (if failures.toNat ≤ maxDoublings then
        min (b.base.total * 2 ^ (failures.toNat - 1)) b.max.total
      else b.max.total) ∧
    ((b.delay failures.toNat).total =
        min (b.base.total * 2 ^ (failures.toNat - 1)) b.max.total ↔
      failures.toNat ≤ maxDoublings ∨
        b.max.total ≤ b.base.total * 2 ^ (failures.toNat - 1)) :=
  ⟨b.delayInWords_eq failures, b.total_delay failures.toNat, b.total_delay_eq_min_iff⟩

example : [0, 1, 2, 18, 19, 33].map (fun failures => (standard.delay failures).millis) =
    [5, 5, 10, 655360, 1000000, 1000000] := by decide

/-- Thirty-two doublings make four seconds of one nanosecond, and the delay is the greatest one all
the same. -/
theorem short_base_not_doubled :
    ¬ ∀ (b : Backoff) (failures : UInt32), 1 ≤ failures →
      (b.delay failures.toNat).total =
        min (b.base.total * 2 ^ (failures.toNat - 1)) b.max.total := by
  intro h
  let b : Backoff := ⟨⟨0, 1, by decide, by decide⟩, ⟨100, 0, by decide, by decide⟩⟩
  have hcut : b.delay (33 : UInt32).toNat = b.max := b.delay_of_gt (by decide)
  have hexact := h b 33 (by decide)
  rw [hcut] at hexact
  exact absurd hexact (by decide)

end Backoff

end ClusterHerald
