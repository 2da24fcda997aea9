import ClusterHerald.Proofs.Watch.Mirror

/-!
# Kinds with and without namespaces

The objects of a kind all have a namespace, or none of them has.  No object is then taken for
another one, so every run of events is clear (`Scene.clear_of_uniform`).
-/

namespace ClusterHerald

/-- All objects have a namespace, or none has. -/
def Objects.Uniform (namespaced : Bool) (os : Objects) : Prop :=
  ∀ r, (os.get? r).isSome = true → r.namespaceName.isSome = namespaced

/-- The object of an event, if it has one, has a namespace, or has none. -/
def WatchEvent.Uniform (namespaced : Bool) (e : WatchEvent) : Prop :=
  ∀ o ∈ e.object?, o.metadata.namespaceName.isSome = namespaced

namespace Objects

variable {namespaced : Bool} {os : Objects}

theorem uniform_empty : empty.Uniform namespaced := fun _ h => nomatch h

theorem Uniform.insert (h : os.Uniform namespaced) {r : Ref}
    (hr : r.namespaceName.isSome = namespaced) (o : Object) :
    (os.insert r o).Uniform namespaced := by
  intro r' h'
  rw [get?_insert] at h'
  split at h'
  · next he => exact he ▸ hr
  · exact h r' h'

theorem Uniform.erase (h : os.Uniform namespaced) (r : Ref) : (os.erase r).Uniform namespaced := by
  intro r' h'
  rw [get?_erase] at h'
  split at h'
  · cases h'
  · exact h r' h'

theorem Uniform.findsOwn (h : os.Uniform namespaced) {r : Ref}
    (hr : r.namespaceName.isSome = namespaced) : os.FindsOwn r := by
  intro hn
  obtain ⟨ns, name⟩ := r
  cases ns with
  | none => exact hn
  | some ns =>
    refine Option.eq_none_iff_forall_ne_some.2 fun o ho => ?_
    have := h ⟨none, name⟩ (by rw [ho]; rfl)
    rw [← hr] at this
    cases this

end Objects

theorem Object.namespaceName_of_ref {o : Object} {r : Ref} (h : o.ref = .ok r) :
    r.namespaceName = o.metadata.namespaceName := by
  unfold Object.ref at h
  split at h <;> cases h
  rfl

theorem Store.uniform_apply {namespaced : Bool} {s s' : Store} {e : WatchEvent}
    (h : s.objects.Uniform namespaced ∧ s.listed.Uniform namespaced) (he : e.Uniform namespaced)
    (ha : s.apply e = .ok s') : s'.objects.Uniform namespaced ∧ s'.listed.Uniform namespaced :=
  keeps_of_apply Objects.uniform_empty
    (fun o _ _ ho hr hos =>
      hos.insert (Object.namespaceName_of_ref hr ▸ he o (WatchEvent.object?_of_version? ho)) o)
    (fun r _ hos => hos.erase r) ha h

namespace Scene

variable {s : Scene} {namespaced : Bool}

theorem apply_of_take {e : WatchEvent} {next : List Change × Scene} (h : s.take e = .ok next) :
    s.store.apply e = .ok next.2.store := by
  simp only [take, bind, Except.bind, pure, Except.pure] at h
  split at h
  · cases h
  · split at h
    · cases h
    · next ha =>
      cases h
      exact ha

/-- In a kind whose objects all have a namespace, or have none, every run is clear. -/
theorem clear_of_uniform {events : List WatchEvent}
    (h : s.store.objects.Uniform namespaced ∧ s.store.listed.Uniform namespaced)
    (he : ∀ e ∈ events, e.Uniform namespaced) : s.Clear events := by
  induction events generalizing s with
  | nil => trivial
  | cons e events ih =>
    have he' := he e List.mem_cons_self
    refine ⟨?_, fun next ht => ih (Store.uniform_apply h he' (apply_of_take ht))
      fun e' hmem => he e' (List.mem_cons_of_mem e hmem)⟩
    cases e with
    | listed o | applied o =>
      exact fun r hr => h.1.findsOwn (Object.namespaceName_of_ref hr ▸ he' o rfl)
    | _ => trivial

end Scene

end ClusterHerald
