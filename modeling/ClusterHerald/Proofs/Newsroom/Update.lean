import ClusterHerald.Proofs.Newsroom.Origin

/-!
# On what an update is judged

An update carries the snapshots before and after it, but the worker judges it by what look-ups find
when it comes to it.  The store may still show the predecessor: between the enqueueing of an update
and its application, and from the middle of a listing to its end.  The predecessor is like itself, so
such an update is passed over, whatever changed.  The store may also show a later version already,
and then this one is compared with the predecessor, and sent.

* `Newsroom.verdict_of_update` : what becomes of an update, by the object that look-ups find;
* `Newsroom.judged_by_snapshots_iff` : where this object comes from, and when it makes no difference;
* `Newsroom.relisted_change_passed_over` : a change that a second listing shows is passed over, if
  the worker is faster than the listing.
-/

namespace ClusterHerald

namespace Newsroom

universe u

variable {σ : Type u} {n : Newsroom σ} {s : State σ} {r : Ref} {a : Attempt}

/-- Whether an update between two objects is passed over. -/
def PassesOver (n : Newsroom σ) (old o : Object) : Prop :=
  n.worker.kind.ignored.isEmpty = false ∧ old.AlikeBut n.worker.kind.ignored o

instance (n : Newsroom σ) (old o : Object) : Decidable (n.PassesOver old o) :=
  inferInstanceAs (Decidable (_ ∧ _))

/-- The sinks were given a notice of an update between two objects. -/
def Attempt.Announces (a : Attempt) (old o : Object) : Prop :=
  ∃ notice, a.outcome.notice? = some notice ∧
    notice.object = some o.toJson ∧ notice.previous = some old.toJson

/-- What look-ups find at `r`, or else the object. -/
def Attempt.found (a : Attempt) (r : Ref) (o : Object) : Object :=
  (a.shown.objects.get? r).getD o

theorem Attempt.Announces.ne_irrelevant {old o : Object} (h : a.Announces old o) :
    a.outcome ≠ .irrelevant := by
  intro hi
  obtain ⟨notice, hn, -⟩ := h
  rw [hi] at hn
  cases hn

/-- An update is passed over, or announced with the object that look-ups find. -/
theorem verdict_of_update (hr : r.Plain) (ha : n.attempt? s = some a)
    (hkey : a.change.key = r.key) (hu : a.change.type = .update) {old current : Object}
    (hold : a.change.previous = some old)
    (hcurrent : (s.shown.objects.find? r).or a.change.object = some current)
    (hdold : old.toJson.Ordered) (hdcurrent : current.toJson.Ordered) :
    a.outcome = .irrelevant ∧ n.PassesOver old current ∨
      a.Announces old current ∧ ¬ n.PassesOver old current := by
  have hparse : Key.parse a.change.key = .ok (r.namespaceName, r.name) := by
    rw [hkey]
    exact Key.parse_key hr
  have hlookup : ((s.shown.serving n.outside).lookup a.change.key s.outside).1 =
      .ok (s.shown.objects.find? r) := by
    simp only [Store.serving, hkey, Store.lookup_key s.shown hr]
  have hverdict := Worker.process_update (w := n.worker) hu hparse hlookup hcurrent hold
    hdcurrent hdold
  have houtcome : a.outcome = (n.worker.process (s.shown.serving n.outside) a.change
      s.outside).1 := (attempt?_eq_some.1 ha).2.2
  rw [← houtcome] at hverdict
  exact hverdict

/-- **An update is judged by what look-ups find.**  Let a kind have ignored fields, and let a watch
and a worker go on in any order, with events that tell the object at `r` from all others.  When the
worker judges an update of that object, an event has reported it with its own two snapshots, and
look-ups find one of these, or a version that a later event has shown.  The update is passed over if
what look-ups find is like the predecessor but for what is ignored, and else it is announced with
these two.  So it is never announced with the predecessor as the new object, but with its own object
or a later version; and it is passed over iff its own snapshots are alike, exactly if what look-ups
find is like the predecessor iff its own object is. -/
theorem judged_by_snapshots_iff (n : Newsroom σ) (outside : σ) (hr : r.Plain)
    (hignored : n.worker.kind.ignored.isEmpty = false) {actions : List Action}
    (hrun : Obeys n.step (Permitted r) (n.start outside) actions)
    (ha : n.attempt? (n.run (n.start outside) actions) = some a) (hk : a.key = r.key)
    (hu : a.change.type = .update) :
    ∃ before e after old o, actions = before ++ .observe e :: after ∧
      (∃ changes scene, (n.run (n.start outside) before).scene.take e = .ok (changes, scene) ∧
        a.change ∈ changes) ∧
      a.change.previous = some old ∧ a.change.object = some o ∧
      (a.found r o = old ∨ a.found r o = o ∨ ShownIn r after (a.found r o)) ∧
      (a.outcome = .irrelevant ∧ old.AlikeBut n.worker.kind.ignored (a.found r o) ∨
        a.Announces old (a.found r o) ∧ ¬ old.AlikeBut n.worker.kind.ignored (a.found r o) ∧
          a.found r o ≠ old) ∧
      ((a.outcome = .irrelevant ↔ old.AlikeBut n.worker.kind.ignored o) ↔
        (old.AlikeBut n.worker.kind.ignored (a.found r o) ↔
          old.AlikeBut n.worker.kind.ignored o)) := by
  obtain ⟨before, e, after, changes, scene, rfl, ht, hc, hck⟩ := exists_report ha
  obtain ⟨hbefore, he, -⟩ := Obeys.append_iff.1 hrun
  have htelling : Telling r (n.run (n.start outside) before) :=
    telling_run (telling_start n outside r) hbefore
  have hend : Telling r (n.run (n.start outside) (before ++ .observe e :: after)) :=
    telling_run (telling_start n outside r) hrun
  obtain ⟨old, o, hv, ho, hdo, hstored, hold, hobject⟩ :=
    Scene.update_of_take ht hc (hck.trans hk) hu (fun _ => he.tells) htelling.stored
  have hwithin : Within r (fun x => x = old ∨ x = o ∨ ShownIn r after x)
      (n.run (n.start outside) (before ++ .observe e :: after)) := by
    rw [run_append, run_cons]
    refine Within.run ?_ fun x hx => .inr (.inr hx)
    exact (htelling.within_observe he ht hv ho hstored).mono fun x => .imp_right .inl
  have hshown : a.shown = (n.run (n.start outside) (before ++ .observe e :: after)).shown :=
    (attempt?_eq_some.1 ha).2.1
  -- what look-ups find, where it comes from, and that it is a document as the watch shows it
  obtain ⟨hcurrent, hfrom, hdcurrent⟩ :
      (a.shown.objects.find? r).or a.change.object = some (a.found r o) ∧
        (a.found r o = old ∨ a.found r o = o ∨ ShownIn r after (a.found r o)) ∧
        (a.found r o).toJson.Ordered := by
    rw [hshown, hend.shown.find?, hobject, Attempt.found, hshown]
    cases hx : (n.run (n.start outside) (before ++ .observe e :: after)).shown.objects.get? r with
    | none => exact ⟨rfl, .inr (.inl rfl), hdo⟩
    | some x => exact ⟨rfl, hwithin.shown x hx, (hend.shown.own x hx).2⟩
  have hverdict := verdict_of_update hr ha (hck.trans hk) hu hold (hshown ▸ hcurrent)
    (htelling.stored.own old hstored).2 hdcurrent
  refine ⟨before, e, after, old, o, rfl, ⟨changes, scene, ht, hc⟩, hold, hobject, hfrom, ?_, ?_⟩
  · refine hverdict.imp (.imp_right And.right) fun ⟨hann, hover⟩ => ?_
    have hne : ¬ old.AlikeBut n.worker.kind.ignored (a.found r o) := fun h => hover ⟨hignored, h⟩
    refine ⟨hann, hne, fun hsame => hne ?_⟩
    rw [hsame]
    exact .refl _ _
  · rcases hverdict with ⟨hirr, hover⟩ | ⟨hann, hover⟩
    · have hiff : a.outcome = .irrelevant ↔ old.AlikeBut n.worker.kind.ignored (a.found r o) :=
        iff_of_true hirr hover.2
      rw [hiff]
    · have hiff : a.outcome = .irrelevant ↔ old.AlikeBut n.worker.kind.ignored (a.found r o) :=
        iff_of_false hann.ne_irrelevant fun h => hover ⟨hignored, h⟩
      rw [hiff]

/-! ### Changes that are overtaken -/

/-- A settings object. -/
def settings (version mode timestamp : String) : Object :=
  ⟨none, { name := "settings", namespaceName := "bar", resourceVersion := version },
    [("data", .object [("mode", .string mode), ("timestamp", .string timestamp)])]⟩

def settingsRef : Ref := ⟨"bar", "settings"⟩

/-- A newsroom of settings, whose timestamps and versions are ignored. -/
def settingsRoom : Newsroom (Option MemoryCache) where
  worker := {
    kind := ⟨"ConfigMap", "", "v1", "configmaps", true, none,
      .ofPaths ["data.timestamp", "metadata.resourceVersion"]⟩
    anchor := ⟨0, 0⟩
    sinks := [] }
  outside := Pipeline.world .empty
  backoff := .standard

/-- Settings are listed, and the worker has come to them. -/
def listedSettings : List Action :=
  [.observe .listing, .observe (.listed (settings "1" "fast" "1")), .observe .complete, .apply] ++
    turn

/-- The worker has taken an update, and before it looks the object up the watch shows and stores the
next version.  The update is judged by this one. -/
theorem change_overtaken_by_next_version :
    let n := settingsRoom
    let r := settingsRef
    let actions := listedSettings ++ [.observe (.applied (settings "2" "fast" "2")), .apply, .take,
      .observe (.applied (settings "3" "slow" "3")), .apply]
    let s := n.run (n.start none) actions
    s.shown.objects.get? r = some (settings "3" "slow" "3") ∧ r.Plain ∧
      n.worker.kind.ignored.isEmpty = false ∧
      Obeys n.step (Permitted r) (n.start none) actions ∧
      ∃ a, n.attempt? s = some a ∧ a.key = r.key ∧ a.change.type = .update ∧
        ∃ before e after old o, actions = before ++ .observe e :: after ∧
          (∃ changes scene, (n.run (n.start none) before).scene.take e = .ok (changes, scene) ∧
            a.change ∈ changes) ∧
          a.change.previous = some old ∧ a.change.object = some o ∧
          (a.found r o = old ∨ a.found r o = o ∨ ShownIn r after (a.found r o)) ∧
          (a.outcome = .irrelevant ∧ old.AlikeBut n.worker.kind.ignored (a.found r o) ∨
            a.Announces old (a.found r o) ∧
              ¬ old.AlikeBut n.worker.kind.ignored (a.found r o) ∧ a.found r o ≠ old) ∧
          ((a.outcome = .irrelevant ↔ old.AlikeBut n.worker.kind.ignored o) ↔
            (old.AlikeBut n.worker.kind.ignored (a.found r o) ↔
              old.AlikeBut n.worker.kind.ignored o)) := by
  intro n r actions s
  have hr : r.Plain := by decide
  have hignored : n.worker.kind.ignored.isEmpty = false := by decide +kernel
  have hrun : Obeys n.step (Permitted r) (n.start none) actions := by decide +kernel
  have hsome : (n.attempt? s).isSome = true := by decide +kernel
  have hall : ∀ a ∈ n.attempt? s, a.key = r.key ∧ a.change.type = .update := by decide +kernel
  obtain ⟨a, ha⟩ := Option.isSome_iff_exists.1 hsome
  obtain ⟨hk, hu⟩ := hall a ha
  exact ⟨rfl, hr, hignored, hrun, a, ha, hk, hu,
    judged_by_snapshots_iff n none hr hignored hrun ha hk hu⟩

/-- The settings have another mode when they are listed again, and the worker is faster than the
listing. -/
def relistedChange : List Action :=
  listedSettings ++
    [.observe .listing, .observe (.listed (settings "2" "slow" "1")), .take]

/-- Before the end of the listing the change is passed over, though the mode is not ignored. -/
theorem relisted_change_passed_over :
    ¬ ∀ (n : Newsroom (Option MemoryCache)) (outside : Option MemoryCache) (r : Ref)
      (actions : List Action) (a : Attempt), r.Plain → n.worker.kind.ignored.isEmpty = false →
      Obeys n.step (Permitted r) (n.start outside) actions →
      n.attempt? (n.run (n.start outside) actions) = some a → a.key = r.key →
      a.change.type = .update →
      ∀ old ∈ a.change.previous, ∀ o ∈ a.change.object,
        (a.outcome = .irrelevant ↔ old.AlikeBut n.worker.kind.ignored o) := by
  intro h
  have hsome : (settingsRoom.attempt?
      (settingsRoom.run (settingsRoom.start none) relistedChange)).isSome = true := by
    decide +kernel
  have hall : ∀ a ∈ settingsRoom.attempt?
      (settingsRoom.run (settingsRoom.start none) relistedChange),
      a.key = settingsRef.key ∧ a.change.type = .update ∧ a.outcome = .irrelevant ∧
      ∃ old ∈ a.change.previous, ∃ o ∈ a.change.object,
        ¬ old.AlikeBut settingsRoom.worker.kind.ignored o := by decide +kernel
  obtain ⟨a, ha⟩ := Option.isSome_iff_exists.1 hsome
  obtain ⟨hk, hu, hirr, old, hold, o, ho, hne⟩ := hall a ha
  have hiff := h settingsRoom none settingsRef relistedChange a (by decide) (by decide +kernel)
    (by decide +kernel) ha hk hu old hold o ho
  exact hne (hiff.1 hirr)

end Newsroom

end ClusterHerald
