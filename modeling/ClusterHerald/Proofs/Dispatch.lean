import ClusterHerald.Worker

/-!
# What processing a change posts

`World.recording` is a world that also keeps the requests that were posted to it, and answers as it
does without (`Worker.exists_process_recording`).  With it one sees what a change makes the sinks
do, whatever the receivers reply:

* `map_sink_dispatch` : a notice goes to every sink once, in order;
* `exists_dispatch_recording` : what is posted are the requests of these sinks for that notice;
* `Worker.exists_process_recording` : a change that is not announced posts nothing;
* `Worker.unanswered_process` : which of them happens does not depend on the sinks.
-/

namespace ClusterHerald

universe u v

variable {σ : Type u} {τ : Type v}

/-- The world that also keeps the requests that were posted, oldest first. -/
def World.recording (world : World σ) : World (σ × List Request) where
  lookup key s := ((world.lookup key s.1).1, (world.lookup key s.1).2, s.2)
  stamp s := ((world.stamp s.1).1, (world.stamp s.1).2, s.2)
  post r s := ((world.post r s.1).1, (world.post r s.1).2, s.2 ++ [r])

/-- What sinks post for a notice, each under its own stamp. -/
def requests (n : Notice) (sinks : List Sink) (stamps : List Stamp) : List Request :=
  (sinks.zip stamps).filterMap fun p => p.1.request? n p.2

/-- Nothing was given to a sink and nothing was posted, or every sink was given one notice, once and
in order, and the requests are those of the sinks for it. -/
def AllOrNothing (sinks : List Sink) (given : List (Sink × Notice)) (posted : List Request) :
    Prop :=
  given = [] ∧ posted = [] ∨
    ∃ notice stamps, given = sinks.map (·, notice) ∧ stamps.length = sinks.length ∧
      posted = requests notice sinks stamps

namespace Outcome

/-- What the sinks were given, in order. -/
def given : Outcome → List (Sink × Notice)
  | .announced notice deliveries => deliveries.map fun d => (d.sink, notice)
  | .failed _ | .replayed | .irrelevant => []

/-- The outcome without what the sinks answered. -/
def unanswered : Outcome → Outcome
  | .announced notice _ => .announced notice []
  | outcome => outcome

/-- The requests that an outcome comes with: those of all sinks, or none, and none if it is a
failure. -/
structure Posts (sinks : List Sink) (posted : List Request) (outcome : Outcome) : Prop where
  allOrNothing : AllOrNothing sinks outcome.given posted
  failed : outcome.isFailed = true → outcome.given = [] ∧ posted = []

theorem Posts.nothing {sinks : List Sink} {outcome : Outcome} (h : outcome.given = []) :
    outcome.Posts sinks [] :=
  ⟨.inl ⟨h, rfl⟩, fun _ => ⟨h, rfl⟩⟩

theorem isFailed_unanswered (outcome : Outcome) :
    outcome.unanswered.isFailed = outcome.isFailed := by
  cases outcome <;> rfl

end Outcome

/-! ### Dispatch -/

theorem Sink.sink_deliver (sink : Sink) (world : World σ) (n : Notice) (s : σ) :
    (sink.deliver world n s).1.sink = sink := by
  simp only [deliver]
  cases sink.request? n (world.stamp s).1 <;> rfl

theorem map_sink_dispatch (world : World σ) (n : Notice) (sinks : List Sink) (s : σ) :
    (dispatch world n sinks s).1.map Delivery.sink = sinks := by
  induction sinks generalizing s with
  | nil => rfl
  | cons sink sinks ih => simp [dispatch, sink.sink_deliver, ih]

/-- A sink posts its request, if it has one, and takes the reply as it does without a record. -/
theorem Sink.deliver_recording (sink : Sink) (world : World σ) (n : Notice) (s : σ)
    (log : List Request) :
    sink.deliver world.recording n (s, log) =
      ((sink.deliver world n s).1, (sink.deliver world n s).2,
        log ++ (sink.request? n (world.stamp s).1).toList) := by
  simp only [deliver, World.recording]
  cases sink.request? n (world.stamp s).1 with
  | none => simp
  | some request => rfl

/-- The requests that are posted are those of the sinks for the notice, in order. -/
theorem exists_dispatch_recording (world : World σ) (n : Notice) (sinks : List Sink) (s : σ)
    (log : List Request) :
    ∃ stamps, stamps.length = sinks.length ∧
      dispatch world.recording n sinks (s, log) =
        ((dispatch world n sinks s).1, (dispatch world n sinks s).2,
          log ++ requests n sinks stamps) := by
  induction sinks generalizing s log with
  | nil => exact ⟨[], rfl, by simp [dispatch, requests]⟩
  | cons sink sinks ih =>
    obtain ⟨stamps, hlength, hrest⟩ := ih (sink.deliver world n s).2
      (log ++ (sink.request? n (world.stamp s).1).toList)
    refine ⟨(world.stamp s).1 :: stamps, by simp [hlength], ?_⟩
    simp only [dispatch, sink.deliver_recording, hrest, requests, List.zip_cons_cons,
      List.filterMap_cons, List.append_assoc]
    cases sink.request? n (world.stamp s).1 <;> rfl

/-! ### Processing -/

theorem Change.resolve_recording (c : Change) (anchor : Instant) (world : World σ) (s : σ)
    (log : List Request) :
    c.resolve anchor world.recording.lookup (s, log) =
      ((c.resolve anchor world.lookup s).1, (c.resolve anchor world.lookup s).2, log) := by
  unfold resolve
  cases Key.parse c.key with
  | error => rfl
  | ok parts => cases ht : c.type <;> simp [current, ht, World.recording]

/-- Look-ups with the same answer resolve a change to the same. -/
theorem Change.resolve_congr (c : Change) (anchor : Instant) {world : World σ} {world' : World τ}
    {s : σ} {s' : τ} (h : (world.lookup c.key s).1 = (world'.lookup c.key s').1) :
    (c.resolve anchor world.lookup s).1 = (c.resolve anchor world'.lookup s').1 := by
  unfold resolve
  cases Key.parse c.key with
  | error => rfl
  | ok parts => cases ht : c.type <;> simp [current, ht, h]

namespace Worker

variable (w : Worker)

/-- A change that is announced: every sink is given the notice, in order, and posts its request for
it. -/
theorem exists_announced {world : World σ} {c : Change} {s t : σ} {r : Resolved}
    (hr : c.resolve w.anchor world.lookup s = (.ok (some r), t)) (hi : w.isIrrelevant r = false)
    (log : List Request) :
    ∃ deliveries stamps, (w.process world c s).1 = .announced r.notice deliveries ∧
      deliveries.map (fun d => (d.sink, r.notice)) = w.sinks.map (·, r.notice) ∧
      stamps.length = w.sinks.length ∧
      w.process world.recording c (s, log) =
        ((w.process world c s).1, (w.process world c s).2,
          log ++ requests r.notice w.sinks stamps) := by
  obtain ⟨stamps, hlength, hrun⟩ := exists_dispatch_recording world r.notice w.sinks t log
  refine ⟨(dispatch world r.notice w.sinks t).1, stamps, ?_, ?_, hlength, ?_⟩
  · simp [process, hr, hi]
  · exact List.map_map.symm.trans (congrArg (List.map (·, r.notice)) (map_sink_dispatch ..))
  · simp [process, c.resolve_recording, hr, hi, hrun]

/-- A record of the requests does not change what processing comes to.  Either every sink was given
its notice and posted its request, or nothing was posted. -/
theorem exists_process_recording (world : World σ) (c : Change) (s : σ) (log : List Request) :
    ∃ posted, (w.process world c s).1.Posts w.sinks posted ∧
      w.process world.recording c (s, log) =
        ((w.process world c s).1, (w.process world c s).2, log ++ posted) := by
  rcases hr : c.resolve w.anchor world.lookup s with ⟨e | _ | r, t⟩
  · exact ⟨[], .nothing (by simp [process, hr, Outcome.given]),
      by simp [process, c.resolve_recording, hr]⟩
  · exact ⟨[], .nothing (by simp [process, hr, Outcome.given]),
      by simp [process, c.resolve_recording, hr]⟩
  · cases hi : w.isIrrelevant r with
    | true =>
      exact ⟨[], .nothing (by simp [process, hr, hi, Outcome.given]),
        by simp [process, c.resolve_recording, hr, hi]⟩
    | false =>
      obtain ⟨deliveries, stamps, hout, hgiven, hlength, hrun⟩ := w.exists_announced hr hi log
      refine ⟨requests r.notice w.sinks stamps,
        ⟨.inr ⟨r.notice, stamps, ?_, hlength, rfl⟩, fun hf => ?_⟩, hrun⟩
      · rw [hout, Outcome.given, hgiven]
      · rw [hout] at hf
        cases hf

/-- Neither the sinks nor what they answer decide what becomes of a change. -/
theorem unanswered_process (sinks : List Sink) {world : World σ} {world' : World τ} {c : Change}
    {s : σ} {s' : τ} (h : (world.lookup c.key s).1 = (world'.lookup c.key s').1) :
    ({ w with sinks }.process world' c s').1.unanswered =
      (w.process world c s).1.unanswered := by
  have hr := c.resolve_congr w.anchor h
  unfold process
  cases hp : c.resolve w.anchor world.lookup s with
  | mk resolved t =>
    cases hp' : c.resolve w.anchor world'.lookup s' with
    | mk resolved' t' =>
      rw [hp, hp'] at hr
      obtain rfl : resolved = resolved' := hr
      rcases resolved with e | _ | r
      · rfl
      · rfl
      · have hi : isIrrelevant { w with sinks } r = w.isIrrelevant r := rfl
        cases h : w.isIrrelevant r <;> simp [hi, h, Outcome.unanswered]

end Worker

end ClusterHerald
