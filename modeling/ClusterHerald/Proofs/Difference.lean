import ClusterHerald.Difference

/-!
# Equal documents

`Json.same` compares two documents member by member and item by item; `Json.differences` looks
members up by name.  For documents whose members are ordered both come to the same
(`Json.differences_eq_nil_iff`), and pruning keeps the order (`Json.Ordered.prune`).

So an update is noise iff some field is ignored and its documents are the same once pruned
(`isNoise_iff`).
-/

namespace ClusterHerald

namespace Entries

variable {α : Type}

theorem mem_of_get? {es : Entries α} {name : String} {value : α} (h : get? es name = some value) :
    (name, value) ∈ es := by
  induction es with
  | nil => cases h
  | cons e es ih =>
    obtain ⟨n, v⟩ := e
    rw [get?_cons] at h
    split at h
    · next hn =>
      cases h
      exact hn ▸ List.mem_cons_self
    · exact List.mem_cons_of_mem _ (ih h)

theorem isSome_get?_iff {es : Entries α} {name : String} :
    (get? es name).isSome = true ↔ name ∈ names es := by
  induction es with
  | nil => simp [names]
  | cons e es ih =>
    obtain ⟨n, v⟩ := e
    rw [get?_cons]
    by_cases hn : n = name
    · simp [hn, names]
    · rw [if_neg hn, ih]
      simp [names, Ne.symm hn]

/-- The rest of an ordered list has none of the names up to the first one. -/
theorem Ordered.get?_tail {n name : String} {v : α} {es : Entries α}
    (h : Ordered ((n, v) :: es)) (hn : ¬ n < name) : get? es name = none := by
  refine get?_eq_none_of_lt fun e he => ?_
  have hlt : n < e.1 := (List.pairwise_cons.1 h).1 e he
  rcases Std.lt_trichotomy n name with hl | rfl | hg
  · exact absurd hl hn
  · exact hlt
  · exact String.lt_trans hg hlt

end Entries

theorem Binary64.same_comm (x y : Binary64) : x.same y = y.same x := by
  unfold same
  by_cases hx : x.mantissa = 0 <;> by_cases hy : y.mantissa = 0
  · simp [hx, hy]
  · have hne : y ≠ x := by
      rintro rfl
      exact hy hx
    simp [hx, hy, hne]
  · have hne : x ≠ y := by
      rintro rfl
      exact hx hy
    simp [hx, hy, hne]
  · simp [hx, hy, eq_comm]

theorem Number.same_comm (m n : Number) : m.same n = n.same m := by
  cases m with
  | integer i =>
    cases n with
    | integer j => simp [same, eq_comm]
    | real y => rfl
  | real x =>
    cases n with
    | integer j => rfl
    | real y => exact x.same_comm y

namespace Json

mutual

instance decidableOrdered : ∀ v : Json, Decidable v.Ordered
  | .array vs => decidableOrderedItems vs
  | .object ms =>
    have := decidableOrderedMembers ms
    inferInstanceAs (Decidable (List.Pairwise _ _ ∧ OrderedMembers ms))
  | .null | .bool _ | .number _ | .string _ => isTrue trivial

instance decidableOrderedItems : ∀ vs, Decidable (OrderedItems vs)
  | [] => isTrue trivial
  | v :: vs =>
    have := decidableOrdered v
    have := decidableOrderedItems vs
    inferInstanceAs (Decidable (v.Ordered ∧ OrderedItems vs))

instance decidableOrderedMembers : ∀ ms, Decidable (OrderedMembers ms)
  | [] => isTrue trivial
  | (_, v) :: ms =>
    have := decidableOrdered v
    have := decidableOrderedMembers ms
    inferInstanceAs (Decidable (v.Ordered ∧ OrderedMembers ms))

end

/-! ### Sameness -/

mutual

theorem same_refl : ∀ v : Json, same v v = true
  | .null => rfl
  | .bool _ => by simp [same]
  | .number (.integer _) => by simp [same, Number.same]
  | .number (.real _) => by simp [same, Number.same, Binary64.same]
  | .string _ => by simp [same]
  | .array vs => by rw [same, sameItems_refl vs]
  | .object ms => by rw [same, sameMembers_refl ms]

theorem sameItems_refl : ∀ vs : List Json, sameItems vs vs = true
  | [] => rfl
  | v :: vs => by rw [sameItems, same_refl v, sameItems_refl vs]; rfl

theorem sameMembers_refl : ∀ ms : List (String × Json), sameMembers ms ms = true
  | [] => rfl
  | (n, v) :: ms => by rw [sameMembers, same_refl v, sameMembers_refl ms]; simp

end

mutual

theorem same_comm : ∀ a b : Json, same a b = same b a
  | .array as, b => by cases b with
    | array bs => exact sameItems_comm as bs
    | _ => rfl
  | .object as, b => by cases b with
    | object bs => exact sameMembers_comm as bs
    | _ => rfl
  | .number m, b => by cases b with
    | number n => exact Number.same_comm m n
    | _ => rfl
  | .null, b => by cases b <;> rfl
  | .bool _, b | .string _, b => by cases b <;> simp [same, eq_comm]

theorem sameItems_comm : ∀ as bs : List Json, sameItems as bs = sameItems bs as
  | [], [] | [], _ :: _ | _ :: _, [] => rfl
  | a :: as, b :: bs => by rw [sameItems, sameItems, same_comm a b, sameItems_comm as bs]

theorem sameMembers_comm : ∀ as bs : List (String × Json), sameMembers as bs = sameMembers bs as
  | [], [] | [], _ :: _ | _ :: _, [] => rfl
  | (m, a) :: as, (n, b) :: bs => by
    rw [sameMembers, sameMembers, same_comm a b, sameMembers_comm as bs, decide_eq_decide.2 eq_comm]

end

/-- Ordered members are the same iff every name of either side has the same value on both. -/
theorem sameMembers_iff {as bs : Entries Json} (ha : Entries.Ordered as)
    (hb : Entries.Ordered bs) :
    sameMembers as bs = true ↔
      (∀ m ∈ as, ∃ w, Entries.get? bs m.1 = some w ∧ same m.2 w = true) ∧
        ∀ m ∈ bs, Entries.has as m.1 = true := by
  induction as generalizing bs with
  | nil =>
    cases bs with
    | nil => simp [sameMembers]
    | cons b bs => exact iff_of_false nofun fun h => nomatch h.2 b List.mem_cons_self
  | cons a as ih =>
    obtain ⟨n, v⟩ := a
    cases bs with
    | nil =>
      refine iff_of_false nofun fun h => ?_
      obtain ⟨w, hw, -⟩ := h.1 _ List.mem_cons_self
      cases hw
    | cons b bs =>
      obtain ⟨k, w⟩ := b
      have hn : Entries.get? as n = none := ha.get?_tail (String.lt_irrefl n)
      have hk : Entries.get? bs k = none := hb.get?_tail (String.lt_irrefl k)
      have hta := (List.pairwise_cons.1 ha).2
      have htb := (List.pairwise_cons.1 hb).2
      have hna : ∀ m ∈ as, n ≠ m.1 := fun m hm => Entries.ne_of_name_lt
        ((List.pairwise_cons.1 ha).1 m hm)
      have hkb : ∀ m ∈ bs, k ≠ m.1 := fun m hm => Entries.ne_of_name_lt
        ((List.pairwise_cons.1 hb).1 m hm)
      by_cases hnk : n = k
      · subst hnk
        simp only [sameMembers, decide_true, Bool.true_and, Bool.and_eq_true, ih hta htb,
          List.forall_mem_cons, Entries.get?_cons, if_true, Option.some.injEq, exists_eq_left',
          Entries.has, Option.isSome_some, true_and]
        rw [and_assoc]
        refine and_congr_right fun _ => and_congr ?_ ?_
        · refine forall₂_congr fun m hm => ?_
          rw [if_neg (hna m hm)]
        · refine forall₂_congr fun m hm => ?_
          rw [if_neg (hkb m hm)]
      · -- the lesser of the two first names is missing on the other side
        simp only [sameMembers, hnk, decide_false, Bool.false_and, Bool.false_eq_true, false_iff,
          List.forall_mem_cons, Entries.get?_cons, Entries.has, Ne.symm hnk, if_false]
        rintro ⟨⟨⟨x, hx, -⟩, -⟩, hy, -⟩
        obtain ⟨y, hy⟩ := Option.isSome_iff_exists.1 hy
        have hkn : k < n := Classical.byContradiction fun h => by
          rw [hb.get?_tail h] at hx
          cases hx
        rw [ha.get?_tail fun h => String.lt_irrefl n (String.lt_trans h hkn)] at hy
        cases hy

/-! ### Differences -/

mutual

/-- Ordered documents differ nowhere iff they are the same. -/
theorem differencesAt_eq_nil_iff (path : String) :
    ∀ {a b : Json}, a.Ordered → b.Ordered → (differencesAt path a b = [] ↔ same a b = true)
  | .object as, .object bs, ha, hb => by
    have hbs := orderedMembers_iff.1 hb.2
    rw [differencesAt, List.append_eq_nil_iff, memberDifferences_eq_nil_iff path hbs ha.2, same,
      sameMembers_iff ha.1 hb.1]
    refine and_congr_right fun _ => ?_
    simp [List.filter_eq_nil_iff]
  | .array as, .array bs, ha, hb => by
    rw [differencesAt, same]
    split
    · next h => exact itemDifferences_eq_nil_iff path 0 h ha hb
    · next h => simpa using sameItems_eq_false_of_length h
  | .null, b, _, _ | .bool _, b, _, _ | .number _, b, _, _ | .string _, b, _, _ => by
    cases b <;> simp [differencesAt]
  | .array _, .null, _, _ | .array _, .bool _, _, _ | .array _, .number _, _, _
  | .array _, .string _, _, _ | .array _, .object _, _, _ | .object _, .null, _, _
  | .object _, .bool _, _, _ | .object _, .number _, _, _ | .object _, .string _, _, _
  | .object _, .array _, _, _ => by simp [differencesAt]

theorem memberDifferences_eq_nil_iff (path : String) {bs : Entries Json}
    (hb : ∀ m ∈ bs, m.2.Ordered) :
    ∀ {ms : List (String × Json)}, OrderedMembers ms →
      (memberDifferences path bs ms = [] ↔
        ∀ m ∈ ms, ∃ w, Entries.get? bs m.1 = some w ∧ same m.2 w = true)
  | [], _ => by simp [memberDifferences]
  | (n, v) :: ms, h => by
    rw [memberDifferences, List.append_eq_nil_iff, memberDifferences_eq_nil_iff path hb h.2,
      List.forall_mem_cons]
    refine and_congr_left fun _ => ?_
    cases hw : Entries.get? bs n with
    | none => simp
    | some w =>
      simpa using differencesAt_eq_nil_iff (joinPath path n) h.1
        (hb _ (Entries.mem_of_get? hw))

theorem itemDifferences_eq_nil_iff (path : String) :
    ∀ (i : Nat) {vs ws : List Json}, vs.length = ws.length → OrderedItems vs → OrderedItems ws →
      (itemDifferences path i vs ws = [] ↔ sameItems vs ws = true)
  | _, [], [], _, _, _ => by simp [itemDifferences, sameItems]
  | i, v :: vs, w :: ws, h, hv, hw => by
    rw [itemDifferences, List.append_eq_nil_iff, sameItems, Bool.and_eq_true,
      differencesAt_eq_nil_iff (indexPath path i) hv.1 hw.1,
      itemDifferences_eq_nil_iff path (i + 1) (Nat.succ.inj h) hv.2 hw.2]

theorem sameItems_eq_false_of_length :
    ∀ {vs ws : List Json}, vs.length ≠ ws.length → sameItems vs ws = false
  | [], [], h => absurd rfl h
  | [], _ :: _, _ | _ :: _, [], _ => rfl
  | v :: vs, w :: ws, h => by
    rw [sameItems, sameItems_eq_false_of_length fun hl => h (congrArg Nat.succ hl),
      Bool.and_false]

end

theorem differences_eq_nil_iff {a b : Json} (ha : a.Ordered) (hb : b.Ordered) :
    differences a b = [] ↔ same a b = true :=
  differencesAt_eq_nil_iff "" ha hb

end Json

/-! ### Pruned documents -/

namespace Rule

mutual

theorem ordered_act (name : String) {ms : Entries Json} (h : Json.Ordered (.object ms)) :
    ∀ r : Rule, Json.Ordered (.object (act name ms r))
  | .redacted =>
    ⟨h.1.erase name, Json.orderedMembers_iff.2 fun m hm =>
      Json.orderedMembers_iff.1 h.2 m (List.mem_filter.1 hm).1⟩
  | .nested es => by
    rw [act]
    split
    · next sub hsub =>
      have hs : Json.Ordered (.object sub) :=
        Json.orderedMembers_iff.1 h.2 _ (Entries.mem_of_get? hsub)
      refine ⟨h.1.insert name _, Json.orderedMembers_iff.2 fun m hm => ?_⟩
      rcases Entries.mem_insert hm with rfl | hm
      · exact ordered_actAll hs es
      · exact Json.orderedMembers_iff.1 h.2 m hm
    · exact h

theorem ordered_actAll {ms : Entries Json} (h : Json.Ordered (.object ms)) :
    ∀ es : List (String × Rule), Json.Ordered (.object (actAll ms es))
  | [] => h
  | (n, r) :: es => ordered_actAll (ordered_act n h r) es

end

end Rule

theorem Json.Ordered.prune {v : Json} (h : v.Ordered) (ignored : IgnoredFields) :
    (v.prune ignored).Ordered := by
  cases v with
  | object ms => exact Rule.ordered_actAll h ignored.entries
  | _ => exact h

/-- An update is noise iff some field is ignored and its documents are the same once pruned. -/
theorem isNoise_iff {old new : Json} (ho : old.Ordered) (hn : new.Ordered)
    (ignored : IgnoredFields) :
    isNoise (some old) (some new) ignored = true ↔
      ignored.isEmpty = false ∧
        Json.same (old.prune ignored) (new.prune ignored) = true := by
  rw [isNoise, Bool.and_eq_true, List.isEmpty_iff,
    Json.differences_eq_nil_iff (ho.prune ignored) (hn.prune ignored), Bool.not_eq_true']

end ClusterHerald
