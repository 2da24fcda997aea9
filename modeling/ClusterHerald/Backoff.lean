/-!
# Growing delays

The delay before a failed key is tried again.  It doubles with every consecutive failure and never
exceeds a greatest delay (`Backoff.delay`).

Spans of time are machine words of seconds with nanoseconds below a thousand million; doubling
that leaves the words is cut to the greatest delay.  `Span.total` is the view of a span as a
natural number of nanoseconds.
-/

namespace ClusterHerald

/-- A span of time. -/
structure Span where
  secs : Nat
  nanos : Nat
  secs_lt : secs < UInt64.size
  nanos_lt : nanos < 1000000000
deriving Repr, DecidableEq

namespace Span

/-- The span in nanoseconds. -/
def total (s : Span) : Nat :=
  s.secs * 1000000000 + s.nanos

/-- The span in milliseconds, rounded up. -/
def millis (s : Span) : Nat :=
  (s.total + 999999) / 1000000

/-- A span of milliseconds that fits the words. -/
def ofMillis (ms : Nat) (h : ms / 1000 < UInt64.size := by decide) : Span :=
  ⟨ms / 1000, ms % 1000 * 1000000, h, by omega⟩

/-- The span `factor` times, if it fits the words. -/
def times? (s : Span) (factor : Nat) : Option Span :=
  let nanos := s.nanos * factor
  let secs := s.secs * factor + nanos / 1000000000
  if h : secs < UInt64.size then some ⟨secs, nanos % 1000000000, h, Nat.mod_lt _ (by decide)⟩
  else none

/-- The shorter of two spans. -/
def min (s t : Span) : Span :=
  if s.secs < t.secs ∨ (s.secs = t.secs ∧ s.nanos ≤ t.nanos) then s else t

theorem total_injective {s t : Span} (h : s.total = t.total) : s = t := by
  obtain ⟨a, b, ha, hb⟩ := s
  obtain ⟨c, d, hc, hd⟩ := t
  simp only [total] at h
  have : a = c := by omega
  subst this
  have : b = d := by omega
  subst this
  rfl

theorem total_min (s t : Span) : (s.min t).total = Nat.min s.total t.total := by
  have hs := s.nanos_lt
  have ht := t.nanos_lt
  simp only [min, total]
  split <;> simp only [Nat.min_def] <;> split <;> omega

/-- The whole seconds of a product, and the rest of its nanoseconds. -/
theorem total_mul (s : Span) (factor : Nat) :
    s.total * factor = (s.secs * factor + s.nanos * factor / 1000000000) * 1000000000 +
      s.nanos * factor % 1000000000 := by
  have hsplit := Nat.div_add_mod (s.nanos * factor) 1000000000
  calc s.total * factor
      = s.secs * factor * 1000000000 + s.nanos * factor := by
        rw [total, Nat.add_mul, Nat.mul_right_comm]
    _ = _ := by omega

/-- A product that fits is exact. -/
theorem total_times? {s t : Span} {factor : Nat} (h : s.times? factor = some t) :
    t.total = s.total * factor := by
  simp only [times?] at h
  split at h
  · cases h
    exact (s.total_mul factor).symm
  · cases h

end Span

/-- How delays grow. -/
structure Backoff where
  /-- The delay after the first failure. -/
  base : Span
  /-- The greatest delay. -/
  max : Span
deriving Repr, DecidableEq

namespace Backoff

/-- Five milliseconds at first, a thousand seconds at most. -/
def standard : Backoff :=
  ⟨.ofMillis 5, .ofMillis 1000000⟩

/-- The number of doublings after which the delay is the greatest one, whatever the base. -/
def maxDoublings : Nat := 32

/-- The delay after a number of consecutive failures. -/
def delay (b : Backoff) (failures : Nat) : Span :=
  let doublings := failures - 1
  if maxDoublings ≤ doublings then b.max
  else
    match b.base.times? (Nat.pow 2 doublings) with
    | some d => d.min b.max
    | none => b.max

end Backoff

end ClusterHerald
