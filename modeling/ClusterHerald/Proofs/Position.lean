import ClusterHerald.Proofs.Location
import Mathlib.Data.List.Nodup

/-!
# Documents position by position

A position is a list of steps that leads from a document through its objects and arrays
(`Json.valueAt`).  Two values are entered together if both are objects, or both are arrays of one
length (`Json.Entered`), and two documents differ at a position if they are entered together all
the way to it and are unlike there (`Json.DiffersAt`).

Two values that are entered are compared step by step (`Json.differencesAt_of_entered`), all others
as a whole (`Json.differencesAt_of_not_entered`).  So there is one entry for every position at
which two documents differ (`Json.exists_positions`), and the texts of the entries are those of the
positions.
-/

namespace ClusterHerald

namespace Json

/-- A step from a value to a part of it. -/
inductive Step where
  | member (name : String)
  | item (index : Nat)
deriving DecidableEq

/-- The steps from a document to a part of it. -/
abbrev Position := List Step

/-- The text of a part, after the text of the value to which it belongs. -/
def Step.write (text : String) : Step → String
  | .member name => if text = "" then name else text ++ "." ++ name
  | .item i => text ++ "[" ++ toString i ++ "]"

/-- The part of a value to which a step leads. -/
def part? : Json → Step → Option Json
  | .object ms, .member name => Entries.get? ms name
  | .array vs, .item i => vs[i]?
  | _, _ => none

/-- What stands at a position of a document, if there is one. -/
def valueAt : Option Json → Position → Option Json
  | x, [] => x
  | x, s :: rest => valueAt (x.bind (·.part? s)) rest

/-- Two values are compared part by part. -/
def Entered : Json → Json → Prop
  | .object _, .object _ => True
  | .array vs, .array ws => vs.length = ws.length
  | _, _ => False

/-- One of two documents has no value, or their values are unequal and not compared part by
part. -/
inductive Unlike : Option Json → Option Json → Prop
  | lost (v : Json) : Unlike (some v) none
  | gained (w : Json) : Unlike none (some w)
  | changed {v w : Json} (hne : ¬ Entered v w) (h : same v w = false) : Unlike (some v) (some w)

/-- Two documents are entered together all the way to a position and are unlike there. -/
structure DiffersAt (x y : Option Json) (p : Position) : Prop where
  entered : ∀ q, q <+: p → q ≠ p →
    ∃ v w, valueAt x q = some v ∧ valueAt y q = some w ∧ Entered v w
  unlike : Unlike (valueAt x p) (valueAt y p)

/-- What is written of a position, after a text: its text, and a point where that is empty and both
documents have a value. -/
def entry (text : String) (x y : Option Json) (p : Position) : String :=
  if p.foldl Step.write text = "" ∧ (valueAt x p).isSome ∧ (valueAt y p).isSome then "."
  else p.foldl Step.write text

/-! ### Where documents differ, step by step -/

variable {a b v : Json} {x y : Option Json} {s : Step} {p : Position}

theorem Entered.symm (h : Entered a b) : Entered b a := by
  cases a <;> cases b <;> first | exact h | exact Eq.symm h

theorem Unlike.symm (h : Unlike x y) : Unlike y x := by
  cases h with
  | lost v => exact .gained v
  | gained w => exact .lost w
  | changed hne h => exact .changed (fun he => hne he.symm) (by rw [same_comm, h])

theorem DiffersAt.symm (h : DiffersAt x y p) : DiffersAt y x p where
  entered q hq hne := by
    obtain ⟨v, w, hv, hw, he⟩ := h.entered q hq hne
    exact ⟨w, v, hw, hv, he.symm⟩
  unlike := h.unlike.symm

theorem differsAt_nil : DiffersAt x y [] ↔ Unlike x y := by
  constructor
  · exact fun h => h.unlike
  · intro h
    exact ⟨fun q hq hne => absurd (List.prefix_nil.1 hq) hne, h⟩

theorem differsAt_cons :
    DiffersAt (some a) (some b) (s :: p) ↔
      Entered a b ∧ DiffersAt (a.part? s) (b.part? s) p := by
  constructor
  · intro h
    obtain ⟨v, w, hv, hw, he⟩ := h.entered [] List.nil_prefix nofun
    cases hv
    cases hw
    refine ⟨he, fun q hq hne => ?_, h.unlike⟩
    exact h.entered (s :: q) (List.cons_prefix_cons.2 ⟨rfl, hq⟩) fun heq =>
      hne (List.cons.inj heq).2
  · rintro ⟨he, h⟩
    refine ⟨fun q hq hne => ?_, h.unlike⟩
    cases q with
    | nil => exact ⟨a, b, rfl, rfl, he⟩
    | cons s' q =>
      obtain ⟨rfl, hq'⟩ := List.cons_prefix_cons.1 hq
      exact h.entered q hq' fun heq => hne (heq ▸ rfl)

/-- Where one document is missing they differ at the root alone. -/
theorem differsAt_of_none (h : x = none ∨ y = none) :
    DiffersAt x y p ↔ p = [] ∧ Unlike x y := by
  cases p with
  | nil => simp [differsAt_nil]
  | cons s p =>
    refine iff_of_false (fun hd => ?_) nofun
    obtain ⟨v, w, hv, hw, -⟩ := hd.entered [] List.nil_prefix nofun
    obtain rfl | rfl := h
    · cases hv
    · cases hw

theorem entry_comm (text : String) (x y : Option Json) (p : Position) :
    entry text x y p = entry text y x p := by
  simp only [entry, and_comm (a := (valueAt x p).isSome = true)]

/-! ### The parts of a value -/

/-- The steps to the parts of a value. -/
def steps : Json → List Step
  | .object ms => ms.map fun m => .member m.1
  | .array vs => (List.range vs.length).map .item
  | _ => []

/-- The steps to the parts of two values, each once. -/
def jointSteps (a b : Json) : List Step :=
  a.steps ++ b.steps.filter (· ∉ a.steps)

/-- Induction on documents: the property may be used of every part of a value. -/
@[elab_as_elim]
theorem inductionOn {P : Json → Prop} (v : Json)
    (parts : ∀ v, (∀ s w, v.part? s = some w → P w) → P v) : P v :=
  have leaf (v : Json) (h : ∀ s, v.part? s = none) : P v :=
    parts v fun s w hw => nomatch (h s).symm.trans hw
  @Json.rec P (fun vs => ∀ v ∈ vs, P v) (fun ms => ∀ m ∈ ms, P m.2) (fun m => P m.2)
    (leaf _ fun _ => rfl) (fun _ => leaf _ fun _ => rfl) (fun _ => leaf _ fun _ => rfl)
    (fun _ => leaf _ fun _ => rfl)
    (fun vs ih => parts (.array vs) fun s w hw => by
      cases s with
      | member name => cases hw
      | item i => exact ih w (List.mem_of_getElem? hw))
    (fun ms ih => parts (.object ms) fun s w hw => by
      cases s with
      | member name => exact ih (name, w) (Entries.mem_of_get? hw)
      | item i => cases hw)
    nofun (fun _ _ hv hvs => List.forall_mem_cons.2 ⟨hv, hvs⟩)
    nofun (fun _ _ hm hms => List.forall_mem_cons.2 ⟨hm, hms⟩) (fun _ _ h => h) v

theorem Ordered.part? {w : Json} (hv : v.Ordered) (h : v.part? s = some w) : w.Ordered := by
  cases v with
  | object ms =>
    cases s with
    | member name => exact orderedMembers_iff.1 hv.2 _ (Entries.mem_of_get? h)
    | item i => cases h
  | array vs =>
    cases s with
    | member name => cases h
    | item i => exact orderedItems_iff.1 hv w (List.mem_of_getElem? h)
  | _ => cases h

theorem mem_steps : s ∈ v.steps ↔ (v.part? s).isSome = true := by
  cases v with
  | object ms =>
    cases s with
    | member name => simp [steps, part?, Entries.isSome_get?_iff, Entries.names]
    | item i => simp [steps, part?]
  | array vs => cases s <;> simp [steps, part?]
  | _ => simp [steps, part?]

theorem nodup_steps (hv : v.Ordered) : v.steps.Nodup := by
  cases v with
  | object ms =>
    refine List.Pairwise.map _ (fun m n hlt heq => ?_) hv.1
    exact Entries.ne_of_name_lt hlt (Step.member.inj heq)
  | array vs => exact List.nodup_range.map fun i j h => Step.item.inj h
  | _ => exact List.nodup_nil

theorem mem_jointSteps :
    s ∈ jointSteps a b ↔ (a.part? s).isSome = true ∨ (b.part? s).isSome = true := by
  simp only [jointSteps, List.mem_append, List.mem_filter, mem_steps, decide_eq_true_eq]
  tauto

theorem nodup_jointSteps (ha : a.Ordered) (hb : b.Ordered) : (jointSteps a b).Nodup := by
  refine List.nodup_append.2 ⟨nodup_steps ha, (nodup_steps hb).filter _, ?_⟩
  rintro s hs t ht rfl
  simp only [List.mem_filter, decide_eq_true_eq] at ht
  exact ht.2 hs

/-! ### What is written, step by step -/

/-- What is written where two documents differ, if one of them may be missing. -/
def differencesIn (path : String) : Option Json → Option Json → List String
  | some v, some w => differencesAt path v w
  | none, none => []
  | _, _ => [path]

theorem memberDifferences_eq_flatMap (path : String) (bs : Entries Json)
    (ms : List (String × Json)) :
    memberDifferences path bs ms = ms.flatMap fun m =>
      differencesIn (joinPath path m.1) (some m.2) (Entries.get? bs m.1) := by
  induction ms with
  | nil => rfl
  | cons m ms ih =>
    obtain ⟨n, v⟩ := m
    rw [memberDifferences, ih, List.flatMap_cons]
    cases Entries.get? bs n <;> rfl

theorem itemDifferences_eq_flatMap (path : String) (i : Nat) {vs ws : List Json}
    (h : vs.length = ws.length) :
    itemDifferences path i vs ws = (List.range vs.length).flatMap fun j =>
      differencesIn (indexPath path (i + j)) vs[j]? ws[j]? := by
  induction vs generalizing ws i with
  | nil => cases ws <;> rfl
  | cons v vs ih =>
    cases ws with
    | nil => cases h
    | cons w ws =>
      rw [itemDifferences, ih (i + 1) (Nat.succ.inj h), List.length_cons,
        List.range_succ_eq_map, List.flatMap_cons, List.flatMap_map]
      refine congrArg _ (List.flatMap_congr fun j _ => ?_)
      rw [Nat.succ_eq_add_one, List.getElem?_cons_succ, List.getElem?_cons_succ, Nat.add_assoc,
        Nat.add_comm 1 j]

/-- Two values that are entered are compared step by step. -/
theorem differencesAt_of_entered (ha : a.Ordered) (hb : b.Ordered) (h : Entered a b)
    (path : String) :
    differencesAt path a b = (jointSteps a b).flatMap fun s =>
      differencesIn (s.write path) (a.part? s) (b.part? s) := by
  rw [jointSteps, List.flatMap_append]
  cases a with
  | object as =>
    cases b with
    | object bs =>
      rw [differencesAt, memberDifferences_eq_flatMap]
      refine congrArg₂ _ ?_ ?_
      · rw [steps, List.flatMap_map]
        refine List.flatMap_congr fun m hm => ?_
        simp only [part?, ha.1.get?_of_mem hm]
        rfl
      · -- the new value alone has the other names
        have hfilter : bs.filter (fun m => !Entries.has as m.1) =
            bs.filter ((fun s => decide (s ∉ (object as).steps)) ∘ fun m => .member m.1) := by
          refine List.filter_congr fun m _ => ?_
          rw [Bool.eq_iff_iff]
          simp [mem_steps, part?, Entries.has]
        rw [steps.eq_1 bs, List.filter_map, List.flatMap_map, List.map_eq_flatMap, ← hfilter]
        refine List.flatMap_congr fun m hm => ?_
        obtain ⟨hmem, hno⟩ := List.mem_filter.1 hm
        have hnone : Entries.get? as m.1 = none := by simpa [Entries.has] using hno
        simp only [part?, hnone, hb.1.get?_of_mem hmem]
        rfl
    | _ => cases h
  | array vs =>
    cases b with
    | array ws =>
      have hlen : vs.length = ws.length := h
      rw [differencesAt, if_pos hlen, itemDifferences_eq_flatMap path 0 hlen]
      have hnone : (Json.array ws).steps.filter (· ∉ (Json.array vs).steps) = [] := by
        simp [steps, hlen]
      rw [hnone, List.flatMap_nil, List.append_nil, steps, List.flatMap_map]
      simp only [Nat.zero_add]
      rfl
    | _ => cases h
  | _ => cases h

/-- All other values are compared as a whole. -/
theorem differencesAt_of_not_entered (h : ¬ Entered a b) (path : String) :
    differencesAt path a b =
      if same a b = true then [] else [if path = "" then "." else path] := by
  cases a with
  | object as =>
    cases b with
    | object bs => exact absurd trivial h
    | _ => rfl
  | array vs =>
    cases b with
    | array ws =>
      have hsame : same (.array vs) (.array ws) = false := sameItems_eq_false_of_length h
      have hlen : vs.length ≠ ws.length := h
      rw [differencesAt, if_neg hlen, hsame]
      rfl
    | _ => rfl
  | _ => cases b <;> rfl

/-! ### The list of positions -/

/-- The list has every position at which two documents differ, each once. -/
structure Locates (x y : Option Json) (ps : List Position) : Prop where
  nodup : ps.Nodup
  mem : ∀ p, p ∈ ps ↔ DiffersAt x y p

/-- The positions do not depend on which document is the old one, and have one order up to
permutations. -/
theorem Locates.perm {ps qs : List Position} (h : Locates x y ps) (h' : Locates y x qs) :
    ps.Perm qs := by
  refine (List.perm_ext_iff_of_nodup h.nodup h'.nodup).2 fun p => ?_
  rw [h.mem, h'.mem]
  exact ⟨DiffersAt.symm, DiffersAt.symm⟩

theorem locates_nil (h : ∀ p, ¬ DiffersAt x y p) : Locates x y [] :=
  ⟨List.nodup_nil, fun p => iff_of_false nofun (h p)⟩

/-- Unlike values that are not entered together differ where they stand. -/
theorem locates_root (hu : Unlike x y) (h : ∀ s p, ¬ DiffersAt x y (s :: p)) :
    Locates x y [[]] := by
  refine ⟨List.nodup_singleton _, fun p => ?_⟩
  cases p with
  | nil => exact iff_of_true (List.mem_singleton.2 rfl) (differsAt_nil.2 hu)
  | cons s p => exact iff_of_false (by simp) (h s p)

/-- Two values that are entered differ where their parts do. -/
theorem locates_of_entered (ha : a.Ordered) (hb : b.Ordered) (h : Entered a b)
    {f : Step → List Position} (hf : ∀ s, Locates (a.part? s) (b.part? s) (f s)) :
    Locates (some a) (some b) ((jointSteps a b).flatMap fun s => (f s).map (s :: ·)) := by
  constructor
  · refine List.nodup_flatMap.2 ⟨fun s _ => (hf s).nodup.map fun p q hpq => (List.cons.inj hpq).2,
      (nodup_jointSteps ha hb).imp fun hne => ?_⟩
    -- below different steps there are different positions
    intro p hp hq
    obtain ⟨p', -, rfl⟩ := List.mem_map.1 hp
    obtain ⟨q', -, heq⟩ := List.mem_map.1 hq
    exact hne (List.cons.inj heq).1.symm
  · intro p
    cases p with
    | nil =>
      refine iff_of_false (by simp) fun hd => ?_
      cases differsAt_nil.1 hd with
      | changed hne _ => exact hne h
    | cons s p =>
      rw [differsAt_cons, and_iff_right h, ← (hf s).mem p]
      simp only [List.mem_flatMap, List.mem_map, List.cons.injEq]
      constructor
      · rintro ⟨_, -, q, hq, rfl, rfl⟩
        exact hq
      · intro hp
        refine ⟨s, mem_jointSteps.2 ?_, p, hp, rfl, rfl⟩
        by_contra hnone
        simp only [not_or, Bool.not_eq_true, Option.isSome_eq_false_iff,
          Option.isNone_iff_eq_none] at hnone
        have hd := (differsAt_of_none (.inl hnone.1)).1 (((hf s).mem p).1 hp)
        rw [hnone.1, hnone.2] at hd
        cases hd.2

/-- A document that is missing differs from one that is there at the root. -/
theorem exists_positions_of_none (h : x = none ∨ y = none) :
    ∃ ps, Locates x y ps ∧ ∀ path, differencesIn path x y = ps.map (entry path x y) := by
  have hroot (s : Step) (p : Position) : ¬ DiffersAt x y (s :: p) := fun hd =>
    nomatch ((differsAt_of_none h).1 hd).1
  cases x with
  | none =>
    cases y with
    | none =>
      refine ⟨[], locates_nil fun p hd => ?_, fun path => rfl⟩
      cases ((differsAt_of_none h).1 hd).2
    | some w =>
      refine ⟨[[]], locates_root (.gained w) hroot, fun path => ?_⟩
      simp [differencesIn, entry, valueAt]
  | some v =>
    cases y with
    | none =>
      refine ⟨[[]], locates_root (.lost v) hroot, fun path => ?_⟩
      simp [differencesIn, entry, valueAt]
    | some w => exact absurd h (by simp)

/-- There is one entry for every position at which two documents differ. -/
theorem exists_positions (a : Json) (ha : a.Ordered) {b : Json} (hb : b.Ordered) :
    ∃ ps, Locates (some a) (some b) ps ∧
      ∀ path, differencesAt path a b = ps.map (entry path (some a) (some b)) := by
  induction a using inductionOn generalizing b with
  | parts a ih =>
    by_cases h : Entered a b
    · have hparts (s : Step) : ∃ ps, Locates (a.part? s) (b.part? s) ps ∧
          ∀ path, differencesIn path (a.part? s) (b.part? s) =
            ps.map (entry path (a.part? s) (b.part? s)) := by
        cases hv : a.part? s with
        | none => exact exists_positions_of_none (.inl rfl)
        | some v =>
          cases hw : b.part? s with
          | none => exact exists_positions_of_none (.inr rfl)
          | some w => exact ih s v hv (ha.part? hv) (hb.part? hw)
      choose f hf using hparts
      refine ⟨_, locates_of_entered ha hb h fun s => (hf s).1, fun path => ?_⟩
      rw [differencesAt_of_entered ha hb h, List.map_flatMap]
      refine List.flatMap_congr fun s _ => ?_
      rw [(hf s).2, List.map_map]
      rfl
    · have hroot (s : Step) (p : Position) : ¬ DiffersAt (some a) (some b) (s :: p) := fun hd =>
        h (differsAt_cons.1 hd).1
      cases hs : same a b with
      | true =>
        refine ⟨[], locates_nil fun p hd => ?_, fun path => ?_⟩
        · cases p with
          | nil =>
            cases differsAt_nil.1 hd with
            | changed _ hne => rw [hs] at hne; cases hne
          | cons s p => exact hroot s p hd
        · rw [differencesAt_of_not_entered h, if_pos hs]
          rfl
      | false =>
        refine ⟨[[]], locates_root (.changed h hs) hroot, fun path => ?_⟩
        rw [differencesAt_of_not_entered h, hs]
        simp [entry, valueAt]

/-- **The differences of two documents have one entry for every position at which they differ.**
These are the positions to which both documents have objects, or arrays of one length, all the way,
and at which one of them has no value, or both have values that are unequal and not compared part by
part.  The entry is the text of the position.  So there are no differences iff the documents are
the same, where an integer never equals a real number, and the differences the other way round are
a permutation. -/
theorem differences_one_per_position {old new : Json} (ho : old.Ordered) (hn : new.Ordered) :
    (∃ ps : List Position, ps.Nodup ∧ (∀ p, p ∈ ps ↔ DiffersAt (some old) (some new) p) ∧
      differences old new = ps.map (entry "" (some old) (some new))) ∧
    (differences old new = [] ↔ same old new = true) ∧
    (∀ (i : Int) (x : Binary64), same (.number (.integer i)) (.number (.real x)) = false) ∧
    (differences new old).Perm (differences old new) := by
  obtain ⟨ps, hps, htext⟩ := exists_positions old ho hn
  obtain ⟨qs, hqs, htext'⟩ := exists_positions new hn ho
  refine ⟨⟨ps, hps.nodup, hps.mem, htext ""⟩, differences_eq_nil_iff ho hn, fun i x => rfl, ?_⟩
  rw [differences, differences, htext, htext', funext (entry_comm "" (some new) (some old))]
  exact (hqs.perm hps).map _

/-- Members without a name, an item of an array, an integer against a real number, and a member on
either side alone. -/
theorem release_differences :
    let old : Json := .object [
      ("", .object [("", .int 1), ("x", .null)]), ("gone", .bool true),
      ("spec", .object [
        ("containers", .array [.object [("image", .string "a")]]), ("replicas", .int 1)])]
    let new : Json := .object [
      ("", .object [("", .int 2)]), ("added", .null),
      ("spec", .object [
        ("containers", .array [.object [("image", .string "b")]]),
        ("replicas", .number (.real ⟨false, 4503599627370496, -52⟩))])]
    old.Ordered ∧ new.Ordered ∧
      differences old new =
        [".", "x", "gone", "spec.containers[0].image", "spec.replicas", "added"] ∧
      (∃ ps : List Position, ps.Nodup ∧ (∀ p, p ∈ ps ↔ DiffersAt (some old) (some new) p) ∧
        differences old new = ps.map (entry "" (some old) (some new))) ∧
      (differences new old).Perm (differences old new) := by
  intro old new
  have ho : old.Ordered := by decide
  have hn : new.Ordered := by decide
  obtain ⟨hps, -, -, hperm⟩ := differences_one_per_position ho hn
  exact ⟨ho, hn, by decide +kernel, hps, hperm⟩

end Json

end ClusterHerald
