import ClusterHerald.Config.Kinds
import ClusterHerald.Proofs.Table
import Mathlib.Data.List.Forall2
import Mathlib.Data.List.Nodup
import Mathlib.Data.List.Perm.Subperm

/-!
# The kinds that a configuration watches

A configuration is sound if it switches only kinds of the registry and describes its custom
resources completely.  Otherwise it has a first fault: the least unknown id, else the first
incomplete resource (`Config.check_eq_error_iff`).

The kinds of a configuration are resolved after it was checked.  Those of a sound one can all be
resolved (`Config.kinds_eq`), and they are just those that `Config.Watches` tells, one by one and in
order (`Config.watches_iff`).
-/

namespace ClusterHerald

/-! ### Lists -/

section

variable {α β ε : Type}

theorem forM_cons_of_ok {f : α → Except ε Unit} {a : α} (h : f a = .ok ()) (as : List α) :
    (a :: as).forM f = as.forM f := by
  simp only [List.forM_eq_forM, List.forM_cons, h, bind, Except.bind]

theorem forM_cons_of_error {f : α → Except ε Unit} {a : α} {e : ε} (h : f a = .error e)
    (as : List α) : (a :: as).forM f = .error e := by
  simp only [List.forM_eq_forM, List.forM_cons, h, bind, Except.bind]

theorem forM_eq_ok_iff {f : α → Except ε Unit} {as : List α} :
    as.forM f = .ok () ↔ ∀ a ∈ as, f a = .ok () := by
  induction as with
  | nil => exact iff_of_true rfl nofun
  | cons a as ih =>
    rw [List.forall_mem_cons, ← ih]
    cases ha : f a with
    | error e => simp [forM_cons_of_error ha]
    | ok => simp [forM_cons_of_ok ha]

/-- Actions on a list fail with the first that fails. -/
theorem forM_eq_error_iff {f : α → Except ε Unit} {as : List α} {e : ε} :
    as.forM f = .error e ↔
      ∃ before a after, as = before ++ a :: after ∧ (∀ b ∈ before, f b = .ok ()) ∧
        f a = .error e := by
  constructor
  · intro h
    induction as with
    | nil => cases h
    | cons a as ih =>
      cases ha : f a with
      | error e' =>
        rw [forM_cons_of_error ha] at h
        exact ⟨[], a, as, rfl, nofun, ha.trans h⟩
      | ok =>
        rw [forM_cons_of_ok ha] at h
        obtain ⟨before, b, after, rfl, hbefore, hb⟩ := ih h
        exact ⟨a :: before, b, after, rfl, List.forall_mem_cons.2 ⟨ha, hbefore⟩, hb⟩
  · rintro ⟨before, a, after, rfl, hbefore, ha⟩
    induction before with
    | nil => exact forM_cons_of_error ha after
    | cons b before ih =>
      obtain ⟨hb, hbefore⟩ := List.forall_mem_cons.1 hbefore
      rw [List.cons_append, forM_cons_of_ok hb]
      exact ih hbefore

theorem mapM_cons_of_ok {f : α → Except ε β} {a : α} {b : β} (h : f a = .ok b) (as : List α) :
    (a :: as).mapM f = (as.mapM f).map (b :: ·) := by
  simp only [List.mapM_cons, h, bind, Except.bind]
  cases as.mapM f <;> rfl

theorem mapM_cons_of_error {f : α → Except ε β} {a : α} {e : ε} (h : f a = .error e)
    (as : List α) : (a :: as).mapM f = .error e := by
  simp only [List.mapM_cons, h, bind, Except.bind]

/-- Actions on a list succeed with their results if each of them does. -/
theorem mapM_eq_ok_iff {f : α → Except ε β} {as : List α} {bs : List β} :
    as.mapM f = .ok bs ↔ List.Forall₂ (fun a b => f a = .ok b) as bs := by
  induction as generalizing bs with
  | nil =>
    rw [List.forall₂_nil_left_iff, List.mapM_nil]
    simp [pure, Except.pure, eq_comm]
  | cons a as ih =>
    rw [List.forall₂_cons_left_iff]
    cases ha : f a with
    | error e => simp [mapM_cons_of_error ha]
    | ok b =>
      rw [mapM_cons_of_ok ha]
      simp only [← ih]
      cases as.mapM f <;> simp [Except.map, eq_comm]

theorem exists_mapM_eq_ok_iff {f : α → Except ε β} {as : List α} :
    (∃ bs, as.mapM f = .ok bs) ↔ ∀ a ∈ as, ∃ b, f a = .ok b := by
  simp only [mapM_eq_ok_iff]
  induction as with
  | nil => exact iff_of_true ⟨[], .nil⟩ nofun
  | cons a as ih =>
    rw [List.forall_mem_cons, ← ih]
    constructor
    · rintro ⟨_, hall⟩
      cases hall with
      | cons hb hbs => exact ⟨⟨_, hb⟩, _, hbs⟩
    · rintro ⟨⟨b, hb⟩, bs, hbs⟩
      exact ⟨b :: bs, .cons hb hbs⟩

theorem mapM_eq_ok_map {f : α → Except ε β} {g : α → β} {as : List α}
    (h : ∀ a ∈ as, f a = .ok (g a)) : as.mapM f = .ok (as.map g) :=
  mapM_eq_ok_iff.2 (List.forall₂_map_right_iff.2 (List.forall₂_same.2 h))

/-- A part of a list without repetitions is told by its members. -/
theorem eq_filter_of_sublist {as bs : List α} {p : α → Bool} (hd : as.Nodup) (hs : bs.Sublist as)
    (hmem : ∀ a ∈ as, a ∈ bs ↔ p a = true) : bs = as.filter p := by
  have hall : bs.filter p = bs :=
    List.filter_eq_self.2 fun b hb => (hmem b (hs.subset hb)).1 hb
  have hsub : bs.Sublist (as.filter p) := hall ▸ hs.filter p
  have hback : as.filter p ⊆ bs := fun a ha => by
    obtain ⟨ha, hp⟩ := List.mem_filter.1 ha
    exact (hmem a ha).2 hp
  exact hsub.eq_of_length_le (List.Nodup.subperm (hd.filter p) hback).length_le

end

/-! ### Single kinds -/

/-- The registry has a kind with this id. -/
def Registry.Has (id : String) : Prop := ∃ k ∈ kinds, k.id = id

theorem Registry.find?_eq_none_iff {id : String} : find? id = none ↔ ¬ Has id := by
  simp [find?, Has]

/-- A custom resource tells its version and its resource name. -/
def CustomResource.Complete (r : CustomResource) : Prop := r.version ≠ "" ∧ r.resource ≠ ""

namespace WatchedKind

variable {r : CustomResource} {ns : Option String} {ignored : IgnoredFields}

theorem ofCustom_of_complete (h : r.Complete) :
    ofCustom r ns ignored = .ok ⟨r.name, r.group, r.version, r.resource, r.namespaced,
      if r.namespaced then ns else none, ignored⟩ :=
  if_neg (not_or.2 h)

theorem ofCustom_of_not_complete (h : ¬ r.Complete) :
    ofCustom r ns ignored = .error (.incompleteResource r.group r.version r.resource) :=
  if_pos (by simpa only [CustomResource.Complete, not_and_or, not_not] using h)

/-- The kind has these API coordinates.  It is limited to the namespace of the configuration if
there is one and the kind has namespaces, and it ignores the fields of its display name. -/
structure Serves (w : WatchedKind) (c : Config) (name group version plural : String)
    (namespaced : Bool) : Prop where
  name : w.name = name
  group : w.group = group
  version : w.version = version
  plural : w.plural = plural
  namespaced : w.namespaced = namespaced
  limited : ∀ ns, w.namespaceName = some ns ↔ w.namespaced = true ∧ c.namespaceName = ns ∧ ns ≠ ""
  ignored : w.ignored = c.ignoredFor w.name

end WatchedKind

namespace Config

/-! ### What is wrong -/

/-- Nothing is wrong with a configuration. -/
structure Sound (c : Config) : Prop where
  known : ∀ id ∈ c.switches.names, Registry.Has id
  complete : ∀ r ∈ c.customResources, r.Complete

/-- What is wrong first: the least id that the registry does not have, else the first custom
resource that is not complete. -/
inductive Fault (c : Config) : ConfigError → Prop
  | unknown {id : String} (hmem : id ∈ c.switches.names) (hout : ¬ Registry.Has id)
    (hleast : ∀ other ∈ c.switches.names, ¬ Registry.Has other → id ≤ other) :
    Fault c (.unknownKind id)
  | incomplete {before after : List CustomResource} {r : CustomResource}
    (hknown : ∀ id ∈ c.switches.names, Registry.Has id)
    (hsplit : c.customResources = before ++ r :: after) (hbefore : ∀ r ∈ before, r.Complete)
    (hr : ¬ r.Complete) : Fault c (.incompleteResource r.group r.version r.resource)

/-- The kinds of a configuration: the built-in ones that are on, each once and in the order of the
registry, and then one for each custom resource. -/
structure Watches (c : Config) (ks : List WatchedKind) : Prop where
  exists_parts : ∃ (on : List BuiltinKind) (builtin custom : List WatchedKind),
    ks = builtin ++ custom ∧
    on.Sublist Registry.kinds ∧ (on.map BuiltinKind.id).Nodup ∧
    (∀ k ∈ Registry.kinds, k ∈ on ↔ c.switches.get? k.id = some true) ∧
    List.Forall₂ (fun k w => w.Serves c k.name k.group k.version k.plural k.namespaced) on builtin ∧
    List.Forall₂ (fun r w => w.Serves c (r.kind.getD r.resource) r.group r.version r.resource
      r.namespaced) c.customResources custom

variable {c : Config} {e : ConfigError}

/-- The ids that the registry does not have are looked for first. -/
theorem find?_unknown_eq_some_iff {id : String} :
    c.switches.names.find? (fun id => (Registry.find? id).isNone) = some id ↔
      id ∈ c.switches.names ∧ ¬ Registry.Has id ∧
        ∀ other ∈ c.switches.names, ¬ Registry.Has other → id ≤ other := by
  simp only [Table.find?_names_eq_some_iff, Option.isNone_iff_eq_none, Registry.find?_eq_none_iff]

theorem find?_unknown_eq_none_iff :
    c.switches.names.find? (fun id => (Registry.find? id).isNone) = none ↔
      ∀ id ∈ c.switches.names, Registry.Has id := by
  simp only [List.find?_eq_none, Option.isNone_iff_eq_none, Registry.find?_eq_none_iff, not_not]

/-- The check of one custom resource. -/
theorem checked_eq_ok_iff {r : CustomResource} :
    (WatchedKind.ofCustom r none IgnoredFields.empty).map (fun _ => ()) = .ok () ↔ r.Complete := by
  by_cases h : r.Complete
  · simp [WatchedKind.ofCustom_of_complete h, h, Except.map]
  · simp [WatchedKind.ofCustom_of_not_complete h, h, Except.map]

theorem checked_eq_error_iff {r : CustomResource} :
    (WatchedKind.ofCustom r none IgnoredFields.empty).map (fun _ => ()) = .error e ↔
      ¬ r.Complete ∧ .incompleteResource r.group r.version r.resource = e := by
  by_cases h : r.Complete
  · simp [WatchedKind.ofCustom_of_complete h, h, Except.map]
  · simp [WatchedKind.ofCustom_of_not_complete h, h, Except.map]

theorem check_eq_ok_iff : c.check = .ok () ↔ c.Sound := by
  rw [check]
  split
  · next id hfind =>
    obtain ⟨hmem, hout, -⟩ := find?_unknown_eq_some_iff.1 hfind
    exact iff_of_false nofun fun hs => hout (hs.known id hmem)
  · next hfind =>
    rw [forM_eq_ok_iff]
    simp only [checked_eq_ok_iff]
    exact ⟨fun h => ⟨find?_unknown_eq_none_iff.1 hfind, h⟩, Sound.complete⟩

/-- The check of a configuration tells what is wrong first. -/
theorem check_eq_error_iff : c.check = .error e ↔ c.Fault e := by
  rw [check]
  split
  · next id hfind =>
    obtain ⟨hmem, hout, hleast⟩ := find?_unknown_eq_some_iff.1 hfind
    rw [Except.error.injEq]
    constructor
    · rintro rfl
      exact .unknown hmem hout hleast
    · intro h
      cases h with
      | unknown hmem' hout' hleast' =>
        rw [String.le_antisymm (hleast _ hmem' hout') (hleast' _ hmem hout)]
      | incomplete hknown => exact absurd (hknown id hmem) hout
  · next hfind =>
    have hknown := find?_unknown_eq_none_iff.1 hfind
    rw [forM_eq_error_iff]
    simp only [checked_eq_ok_iff, checked_eq_error_iff]
    constructor
    · rintro ⟨before, r, after, hsplit, hbefore, hr, rfl⟩
      exact .incomplete hknown hsplit hbefore hr
    · intro h
      cases h with
      | unknown hmem hout => exact absurd (hknown _ hmem) hout
      | incomplete _ hsplit hbefore hr => exact ⟨_, _, _, hsplit, hbefore, hr, rfl⟩

/-! ### What is watched -/

/-- A kind with these API coordinates, as the configuration watches it. -/
def watched (c : Config) (name group version plural : String) (namespaced : Bool) : WatchedKind :=
  ⟨name, group, version, plural, namespaced, if namespaced then c.namespaceFilter else none,
    c.ignoredFor name⟩

theorem namespaceFilter_eq_some_iff {ns : String} :
    c.namespaceFilter = some ns ↔ c.namespaceName = ns ∧ ns ≠ "" := by
  rw [namespaceFilter]
  split
  · next h => exact iff_of_false nofun fun ⟨hns, hne⟩ => hne (hns ▸ h)
  · next h =>
    rw [Option.some.injEq]
    exact ⟨fun hns => ⟨hns, hns ▸ h⟩, And.left⟩

/-- What a kind has to be is told in full. -/
theorem serves_iff {w : WatchedKind} {name group version plural : String} {namespaced : Bool} :
    w.Serves c name group version plural namespaced ↔
      c.watched name group version plural namespaced = w := by
  have hlimited (ns : String) : (if namespaced then c.namespaceFilter else none) = some ns ↔
      namespaced = true ∧ c.namespaceName = ns ∧ ns ≠ "" := by
    rw [Option.ite_none_right_eq_some, namespaceFilter_eq_some_iff]
  constructor
  · rintro ⟨rfl, rfl, rfl, rfl, rfl, hns, hignored⟩
    obtain ⟨name, group, version, plural, namespaced, ns, ignored⟩ := w
    obtain rfl : ignored = c.ignoredFor name := hignored
    obtain rfl : ns = if namespaced then c.namespaceFilter else none :=
      Option.ext fun ns => (hns ns).trans (hlimited ns).symm
    rfl
  · rintro rfl
    exact ⟨rfl, rfl, rfl, rfl, rfl, hlimited, rfl⟩

theorem customKind_of_complete {r : CustomResource} (h : r.Complete) :
    c.customKind r = .ok (c.watched r.name r.group r.version r.resource r.namespaced) :=
  WatchedKind.ofCustom_of_complete h

/-- Once a configuration is checked its kinds can be resolved. -/
theorem kinds_eq (c : Config) :
    c.kinds = c.check.map fun _ => c.builtinKinds ++ c.customResources.map fun r =>
      c.watched r.name r.group r.version r.resource r.namespaced := by
  cases hcheck : c.check with
  | error e => simp only [kinds, hcheck, bind, Except.bind, Except.map]
  | ok =>
    have hsound := check_eq_ok_iff.1 hcheck
    have hcustom := mapM_eq_ok_map fun r hr =>
      customKind_of_complete (c := c) (hsound.complete r hr)
    simp only [kinds, hcheck, hcustom, bind, Except.bind, pure, Except.pure, Except.map]

theorem forall₂_serves_iff {α : Type} {as : List α} {ws : List WatchedKind}
    {name group version plural : α → String} {namespaced : α → Bool} :
    List.Forall₂ (fun a w => w.Serves c (name a) (group a) (version a) (plural a) (namespaced a))
        as ws ↔
      ws = as.map fun a => c.watched (name a) (group a) (version a) (plural a) (namespaced a) := by
  simp only [serves_iff]
  refine List.forall₂_map_left_iff.symm.trans ?_
  rw [List.forall₂_eq_eq_eq, eq_comm]

/-- One list of kinds is watched, and no other. -/
theorem watches_iff {ks : List WatchedKind} :
    c.Watches ks ↔ ks = c.builtinKinds ++ c.customResources.map fun r =>
      c.watched r.name r.group r.version r.resource r.namespaced := by
  have hkinds : Registry.kinds.Nodup := List.Nodup.of_map BuiltinKind.id Registry.nodup_ids
  constructor
  · rintro ⟨on, builtin, custom, rfl, hsub, -, hon, hbuiltin, hcustom⟩
    obtain rfl := forall₂_serves_iff.1 hbuiltin
    obtain rfl := forall₂_serves_iff.1 hcustom
    obtain rfl := eq_filter_of_sublist (p := fun k => c.switches.get? k.id = some true) hkinds hsub
      (by simpa using hon)
    rfl
  · rintro rfl
    have hsub : (Registry.kinds.filter fun k => c.switches.get? k.id = some true).Sublist
        Registry.kinds := List.filter_sublist
    refine ⟨_, _, _, rfl, hsub, (hsub.map _).nodup Registry.nodup_ids, fun k hk => ?_,
      forall₂_serves_iff.2 rfl, forall₂_serves_iff.2 rfl⟩
    simp [hk]

/-- **The kinds of a configuration.**  They can be resolved exactly if the configuration is sound,
and are then those that it watches, in order and no others.  Otherwise resolving them fails as the
check does, with what is wrong first. -/
theorem kinds_resolved (c : Config) :
    ((∃ ks, c.kinds = .ok ks) ↔ c.Sound) ∧
    (∀ ks, c.kinds = .ok ks ↔ c.Sound ∧ c.Watches ks) ∧
    ∀ e, (c.kinds = .error e ↔ c.check = .error e) ∧ (c.kinds = .error e ↔ c.Fault e) := by
  simp only [← check_eq_ok_iff, ← check_eq_error_iff, watches_iff, kinds_eq]
  cases c.check with
  | error e => simp [Except.map]
  | ok => simp [Except.map, eq_comm]

end Config

end ClusterHerald
