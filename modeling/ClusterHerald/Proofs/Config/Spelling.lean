import ClusterHerald.Config.Basic
import ClusterHerald.Proofs.Table
import Mathlib.Data.List.Nodup

/-!
# Spellings of a record

A record can be written in several ways.  A member may stand under an older name, and it may be left
out if its value is what is meant anyway.  A `Spelling` says for every place of a document which way
is taken, and `recordBy` writes the members of a record, which are its `Field`s, in this way.

Whatever the spelling, the reader of records finds what was written under the present names
(`exists_knownMembers_recordBy`), if the names that are known mean different members
(`Member.Distinct`).  So every member is read back (`memberOr_of`, `memberOf_required`,
`memberOr_optional`).
-/

namespace ClusterHerald

/-! ### Places -/

/-- A step into a document, to a member of a record or to an item of a list. -/
inductive Step where
  /-- The member with this present name. -/
  | member (name : String)
  | item (index : Nat)
deriving Repr, DecidableEq

/-- How a document is written.  A place is given by the steps that lead to it. -/
structure Spelling where
  /-- Where a member stands under an older name, if it has one. -/
  older : List Step → Bool
  /-- Where a member is left out, if its value is what is meant anyway. -/
  omits : List Step → Bool

namespace Spelling

/-- Every member is there under its present name. -/
def plain : Spelling := ⟨fun _ => false, fun _ => false⟩

/-- How the document is written to which a step leads. -/
def within (how : Spelling) (step : Step) : Spelling :=
  ⟨fun place => how.older (step :: place), fun place => how.omits (step :: place)⟩

/-- The name under which a member stands. -/
def name (how : Spelling) (member : Member) : String :=
  if how.older [] then member.older.headD member.name else member.name

@[simp] theorem within_plain (step : Step) : plain.within step = plain := rfl

@[simp] theorem omits_plain (place : List Step) : plain.omits place = false := rfl

@[simp] theorem name_plain (member : Member) : plain.name member = member.name := rfl

end Spelling

/-! ### Records -/

/-- A member of a record that is to be written. -/
structure Field where
  member : Member
  /-- The value is what is meant if the member is missing. -/
  implied : Bool
  /-- The value as a document, if there is one. -/
  document : Spelling → Option Json

namespace Field

variable {α : Type}

/-- A member that may be missing. -/
def of (member : Member) (value missing : α) [Decidable (value = missing)]
    (write : Spelling → α → Json) : Field :=
  ⟨member, decide (value = missing), fun how => some (write how value)⟩

/-- A member that may not be missing. -/
def required (member : Member) (value : α) (write : α → Json) : Field :=
  ⟨member, false, fun _ => some (write value)⟩

/-- A member that is there only if it has a value. -/
def optional (member : Member) (value : Option α) (write : α → Json) : Field :=
  ⟨member, false, fun _ => value.map write⟩

/-- What is written of a member. -/
def shown? (how : Spelling) (f : Field) : Option Json :=
  let how := how.within (.member f.member.name)
  if how.omits [] && f.implied then none else f.document how

/-- What is written of a member, with the name under which it stands. -/
def written? (how : Spelling) (f : Field) : Option (String × Json) :=
  (f.shown? how).map fun v => ((how.within (.member f.member.name)).name f.member, v)

@[simp] theorem shown?_required (how : Spelling) (member : Member) (value : α) (write : α → Json) :
    (required member value write).shown? how = some (write value) := by
  simp [shown?, required]

@[simp] theorem shown?_optional (how : Spelling) (member : Member) (value : Option α)
    (write : α → Json) : (optional member value write).shown? how = value.map write := by
  simp [shown?, optional]

@[simp] theorem written?_plain (f : Field) :
    f.written? .plain = (f.document .plain).map fun v => (f.member.name, v) := by
  simp [written?, shown?]

end Field

/-- A record as a document. -/
def recordBy (how : Spelling) (fields : List Field) : Json :=
  .ofMembers (fields.filterMap (Field.written? how))

/-! ### Names -/

namespace Member

/-- The names of different members are different, the older ones included. -/
structure Distinct (known : List Member) : Prop where
  once : (known.map name).Nodup
  meaning : ∀ k ∈ known, ∀ n ∈ k.name :: k.older, find? known n = some k

instance (known : List Member) : Decidable (Distinct known) :=
  decidable_of_iff (_ ∧ _) ⟨fun h => ⟨h.1, h.2⟩, fun h => ⟨h.once, h.meaning⟩⟩

/-- The present names of the members of a document, as far as they are known. -/
def meanings {δ : Type} (known : List Member) (ms : List (String × δ)) : List String :=
  ms.filterMap fun e => (find? known e.1).map name

end Member

theorem Spelling.find?_name {known : List Member} (h : Member.Distinct known) (how : Spelling)
    {k : Member} (hk : k ∈ known) : Member.find? known (how.name k) = some k := by
  refine h.meaning k hk _ ?_
  rw [name]
  split
  · cases k.older with
    | nil => exact List.mem_cons_self
    | cons n older => exact List.mem_cons_of_mem _ List.mem_cons_self
  · exact List.mem_cons_self

section

variable {δ : Type} {known : List Member} {found es : Entries δ} {ms : List (String × δ)}

theorem addMembers_unknown {e : String × δ} (hk : Member.find? known e.1 = none) :
    addMembers known found (e :: ms) = addMembers known found ms := by
  rw [addMembers, hk]

theorem addMembers_new {e : String × δ} {k : Member} (hk : Member.find? known e.1 = some k)
    (hfree : Entries.get? found k.name = none) :
    addMembers known found (e :: ms) = addMembers known (Entries.insert k.name e.2 found) ms := by
  have hhas : Entries.has found k.name = false := by
    rw [Entries.has, hfree]
    rfl
  rw [addMembers, hk]
  simp [hhas]

/-- Members that mean different things are all found. -/
theorem exists_addMembers (hd : (Member.meanings known ms).Nodup)
    (hfound : ∀ n ∈ Member.meanings known ms, Entries.get? found n = none) :
    ∃ es, addMembers known found ms = some es ∧
      (∀ e ∈ ms, ∀ k, Member.find? known e.1 = some k → Entries.get? es k.name = some e.2) ∧
      ∀ n, n ∉ Member.meanings known ms → Entries.get? es n = Entries.get? found n := by
  induction ms generalizing found with
  | nil => exact ⟨found, rfl, fun _ he => (List.not_mem_nil he).elim, fun _ _ => rfl⟩
  | cons e ms ih =>
    rw [Member.meanings, List.filterMap_cons] at hd hfound
    rw [Member.meanings, List.filterMap_cons]
    cases hk : Member.find? known e.1 with
    | none =>
      rw [hk] at hd hfound
      obtain ⟨es, hes, hin, hout⟩ := ih hd hfound
      refine ⟨es, (addMembers_unknown hk).trans hes, ?_, hout⟩
      intro e' he' k hk'
      obtain rfl | he' := List.mem_cons.1 he'
      · rw [hk] at hk'
        cases hk'
      · exact hin e' he' k hk'
    | some k =>
      rw [hk] at hd hfound
      obtain ⟨hnew, hd⟩ := List.nodup_cons.1 hd
      have hfree : Entries.get? found k.name = none := hfound k.name List.mem_cons_self
      have hlater : ∀ n ∈ Member.meanings known ms,
          Entries.get? (Entries.insert k.name e.2 found) n = none := by
        intro n hn
        have hne : k.name ≠ n := fun heq => hnew (heq ▸ hn)
        rw [Entries.get?_insert, if_neg hne]
        exact hfound n (List.mem_cons_of_mem _ hn)
      obtain ⟨es, hes, hin, hout⟩ := ih hd hlater
      refine ⟨es, (addMembers_new hk hfree).trans hes, ?_, ?_⟩
      · intro e' he' k' hk'
        obtain rfl | he' := List.mem_cons.1 he'
        · rw [hk] at hk'
          cases hk'
          rw [hout k.name hnew, Entries.get?_insert_self]
        · exact hin e' he' k' hk'
      · intro n hn
        obtain ⟨hne, hn⟩ := not_or.1 (mt List.mem_cons.2 hn)
        rw [hout n hn, Entries.get?_insert, if_neg (Ne.symm hne)]

end

theorem knownMembers_object {known : List Member} {ms : List (String × Json)} {es : Entries Json}
    (h : addMembers known [] ms = some es) : knownMembers known (Json.object ms) = some es := by
  simp only [knownMembers, Source.record, Option.bind_eq_bind, Option.bind_some,
    RecordForm.entries?, h]
  rfl

/-! ### What is read of a record -/

section

variable {known : List Member} {fields : List Field} {how : Spelling} {es : Entries Json}
  {α : Type}

/-- The members found are those written. -/
def Shows (how : Spelling) (es : Entries Json) : List Field → Prop
  | [] => True
  | f :: fields => Entries.get? es f.member.name = f.shown? how ∧ Shows how es fields

theorem shows_iff :
    Shows how es fields ↔ ∀ f ∈ fields, Entries.get? es f.member.name = f.shown? how := by
  induction fields with
  | nil => simp [Shows]
  | cons f fields ih => simp [Shows, ih]

theorem Field.find?_of_written {f : Field} {e : String × Json} (hk : Member.Distinct known)
    (hf : f.member ∈ known) (h : f.written? how = some e) :
    f.shown? how = some e.2 ∧ Member.find? known e.1 = some f.member := by
  obtain ⟨v, hv, rfl⟩ := Option.map_eq_some_iff.1 h
  exact ⟨hv, Spelling.find?_name hk _ hf⟩

section

variable (hk : Member.Distinct known) (hf : fields.map Field.member = known)

include hk hf

theorem pairwise_members : fields.Pairwise fun f f' =>
    f.member ∈ known ∧ f'.member ∈ known ∧ f.member.name ≠ f'.member.name := by
  have hnames : fields.Pairwise fun f f' => f.member.name ≠ f'.member.name := by
    have honce := hk.once
    rwa [← hf, List.map_map, List.Nodup, List.pairwise_map] at honce
  exact hnames.imp_of_mem fun hmem hmem' hne =>
    ⟨hf ▸ List.mem_map_of_mem hmem, hf ▸ List.mem_map_of_mem hmem', hne⟩

theorem nodup_names_written (how : Spelling) :
    (Entries.names (fields.filterMap (Field.written? how))).Nodup := by
  rw [Entries.names, List.map_filterMap, List.Nodup, List.pairwise_filterMap]
  refine (pairwise_members hk hf).imp ?_
  rintro f f' ⟨hf, hf', hne⟩ n hn n' hn' rfl
  obtain ⟨e, he, rfl⟩ := Option.map_eq_some_iff.1 hn
  obtain ⟨e', he', hname⟩ := Option.map_eq_some_iff.1 hn'
  have hfind := (Field.find?_of_written hk hf he).2
  rw [← hname, (Field.find?_of_written hk hf' he').2] at hfind
  exact hne (congrArg Member.name (Option.some.inj hfind)).symm

theorem nodup_meanings_written (how : Spelling) :
    (Member.meanings known (fields.filterMap (Field.written? how))).Nodup := by
  rw [Member.meanings, List.filterMap_filterMap, List.Nodup, List.pairwise_filterMap]
  refine (pairwise_members hk hf).imp ?_
  rintro f f' ⟨hf, hf', hne⟩ n hn n' hn' rfl
  obtain ⟨e, he, hn⟩ := Option.bind_eq_some_iff.1 hn
  obtain ⟨e', he', hn'⟩ := Option.bind_eq_some_iff.1 hn'
  rw [(Field.find?_of_written hk hf he).2] at hn
  rw [(Field.find?_of_written hk hf' he').2] at hn'
  exact hne (Option.some.inj (hn.trans hn'.symm))

end

/-- A record is read member by member, however it is written. -/
theorem exists_knownMembers_recordBy (known : List Member) (fields : List Field)
    (hk : Member.Distinct known) (hf : fields.map Field.member = known) (how : Spelling) :
    ∃ es, knownMembers known (recordBy how fields) = some es ∧ Shows how es fields := by
  have hperm := Entries.perm_ofList (nodup_names_written hk hf how)
  have hmeanings := hperm.filterMap fun e => (Member.find? known e.1).map Member.name
  have hnone (n : String) : Entries.get? ([] : Entries Json) n = none := rfl
  obtain ⟨es, hes, hin, hout⟩ := exists_addMembers
    (hmeanings.nodup_iff.2 (nodup_meanings_written hk hf how)) fun n _ => hnone n
  refine ⟨es, ?_, shows_iff.2 fun f hmem => ?_⟩
  · exact knownMembers_object hes
  · have hmember : f.member ∈ known := hf ▸ List.mem_map_of_mem hmem
    cases hv : f.shown? how with
    | some v =>
      obtain ⟨e, hw⟩ : ∃ e, f.written? how = some e := by
        rw [Field.written?, hv]
        exact ⟨_, rfl⟩
      obtain ⟨hv', hfind⟩ := Field.find?_of_written hk hmember hw
      rw [hin e (hperm.mem_iff.2 (List.mem_filterMap.2 ⟨f, hmem, hw⟩)) _ hfind, ← hv', hv]
    | none =>
      refine hout _ fun hname => ?_
      -- another member of the same name is the same member
      obtain ⟨e, he, hname⟩ := List.mem_filterMap.1 (hmeanings.mem_iff.1 hname)
      obtain ⟨f', hmem', hw⟩ := List.mem_filterMap.1 he
      obtain ⟨hv', hfind⟩ := Field.find?_of_written hk (hf ▸ List.mem_map_of_mem hmem') hw
      rw [hfind] at hname
      have hnames : (fields.map fun f => f.member.name).Nodup := by
        have honce := hk.once
        rwa [← hf, List.map_map] at honce
      obtain rfl := List.inj_on_of_nodup_map hnames hmem' hmem (Option.some.inj hname)
      rw [hv] at hv'
      cases hv'

/-! ### Members that are read back -/

variable {member : Member} {read : Json → Option α}

/-- A member that may be missing is read back if its value is. -/
theorem memberOr_of {value missing : α} [Decidable (value = missing)] {write : Spelling → α → Json}
    (hget : Entries.get? es member.name = (Field.of member value missing write).shown? how)
    (hread : ∀ how, read (write how value) = some value) :
    memberOr es member.name read missing = some value := by
  rw [memberOr, hget, Field.shown?]
  by_cases ho : (how.within (.member member.name)).omits [] = true
  · by_cases hv : value = missing
    · simp [Field.of, ho, hv]
    · simp [Field.of, ho, hv, hread]
  · simp [Field.of, ho, hread]

/-- A member that may not be missing is read back if its value is. -/
theorem memberOf_required {value : α} {write : α → Json}
    (hget : Entries.get? es member.name = (Field.required member value write).shown? how)
    (hread : read (write value) = some value) (place : Json) :
    memberOf place es member.name read = some value := by
  rw [memberOf, hget, Field.shown?_required]
  exact hread

/-- A member that is there only if it has a value is read back if the value is. -/
theorem memberOr_optional {value : Option α} {write : α → Json}
    (hget : Entries.get? es member.name = (Field.optional member value write).shown? how)
    (hread : ∀ a, readOptional read (write a) = some (some a)) :
    memberOr es member.name (readOptional read) none = some value := by
  rw [memberOr, hget, Field.shown?_optional]
  cases value with
  | none => rfl
  | some a => exact hread a

end

end ClusterHerald
