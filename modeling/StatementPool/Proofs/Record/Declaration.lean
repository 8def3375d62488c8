import StatementPool.Proofs.Record.Validation
import StatementPool.Record.Declaration
/-!
# Declarations make lawful records

What a declaration answers for an index is what the member listed there is: count, types, sizes, fields and views
for writing are all read off one position of the list (`Member.countDown_eq`). Since the members are distinct, a
write through a view is what its own field reads afterwards, and no other field (`Declaration.stored_of_writes`). So
every declaration keeps the contract of a record for every value of its structure (`Declaration.lawful`), and the
check passes exactly the values without an empty array.
-/

namespace StatementPool

/-! ## Views -/

namespace View

variable {σ : Type} {v : View σ} {g : Field}

/-- A field can be written through a view if it has the type and the length of what is there. -/
theorem writes_iff : (∃ t, v.Writes g t) ↔ g.sqlType = v.field.sqlType ∧ g.length? = v.field.length? := by
  constructor
  · rintro ⟨t, h⟩
    cases h with
    | plain x keeps => exact ⟨rfl, keeps⟩
    | nullable c keeps => exact ⟨rfl, keeps⟩
  · rintro ⟨type, length⟩
    cases v <;> cases g <;> cases type
    · exact ⟨_, .plain _ length⟩
    · exact ⟨_, .nullable _ length⟩

/-- Setting the null flag is a write of the field with that flag. -/
theorem writes_setNull (v : View σ) (null : Bool) : v.Writes (v.field.setNull null).1 (v.setNull null).1 := by
  cases v with
  | plain k now put => exact .plain now rfl
  | nullable k now put => exact .nullable (now.setNull null) rfl

theorem setNull_snd (v : View σ) (null : Bool) : (v.setNull null).2 = v.field.sqlType.isNullable := by
  cases v <;> rfl

end View

/-! ## Records of fields -/

namespace Record

/-- A record of fields in which a field of the same type and length is stored is the record of the fields with this
one. -/
theorem setField_ofFields {fs : List Field} {i : Nat} {f g : Field} (hf : fs[i]? = some f)
    (type : g.sqlType = f.sqlType) (length : g.length? = f.length?) :
    (ofFields fs).setField i g = ofFields (fs.set i g) := by
  have slots : (fs.map slotOf).modify i (fun s => { s with field := s.field.map fun _ => g }) =
      (fs.set i g).map slotOf := by
    apply List.ext_getElem?
    intro j
    rw [List.getElem?_modify, List.getElem?_map, List.getElem?_map, List.getElem?_set]
    by_cases hij : i = j
    · subst hij
      obtain ⟨hi, rfl⟩ := List.getElem?_eq_some_iff.1 hf
      simp [hi, slotOf, type, length]
    · simp [hij]
  rw [setField, ofFields, slots, ofFields, List.length_set]

theorem soundAt_ofFields {fs : List Field} {i : Nat} {f : Field} (hf : fs[i]? = some f) (hne : f.length? ≠ some 0) :
    (ofFields fs).SoundAt i f := by
  have type : (ofFields fs).typeOf i = f.sqlType := by rw [typeOf_ofFields, hf, Option.map_some, Option.getD_some]
  have size : (ofFields fs).sizeOf i = f.length?.getD 0 := by rw [sizeOf_ofFields, hf, Option.bind_some]
  have stored : (ofFields fs).field? i = some f := by rw [field?_ofFields, hf]
  refine ⟨?_, stored, type.symm, ?_, ?_⟩
  · rw [type]
    cases f <;> simp [Field.sqlType]
  · rw [type, ← f.isSome_length?, size, Option.isSome_iff_exists]
    rintro ⟨n, hn⟩
    rw [hn] at hne ⊢
    exact ⟨fun h => hne (congrArg some h), rfl⟩
  · rw [type, ← f.isSome_length?, size, Option.isSome_eq_false_iff, Option.isNone_iff_eq_none]
    intro hn
    rw [hn, Option.getD_none]

/-- A record of fields passes the check if and only if none of them is fixed and empty. -/
theorem validate_ofFields (fs : List Field) : (ofFields fs).validate = .ok () ↔ ∀ f ∈ fs, f.length? ≠ some 0 := by
  rw [validate_eq_ok]
  constructor
  · rintro ⟨sound, -⟩ f hf hempty
    obtain ⟨i, hi, rfl⟩ := List.getElem_of_mem hf
    obtain ⟨g, hg⟩ := sound i hi
    have same : fs[i] = g := by simpa [field?_ofFields, hi] using hg.stored
    have fixed : ((ofFields fs).typeOf i).isFixed = true := by
      rw [← hg.type, ← g.isSome_length?, ← same, hempty, Option.isSome_some]
    obtain ⟨hne, hlength⟩ := hg.fixed fixed
    rw [← same, hempty] at hlength
    exact hne (Option.some.inj hlength).symm
  · intro h
    have sound : ∀ i < fs.length, ∃ f, (ofFields fs).SoundAt i f := by
      intro i hi
      exact ⟨fs[i], soundAt_ofFields (List.getElem?_eq_getElem hi) (h _ (List.getElem_mem hi))⟩
    have past : fs[(ofFields fs).count]? = none := List.getElem?_eq_none (Nat.le_refl fs.length)
    refine ⟨sound, ?_, ?_⟩
    · rw [typeOf_ofFields, past, Option.map_none, Option.getD_none]
    · rw [field?_ofFields, past]

end Record

/-! ## Members -/

variable {Name : Type} {Holds : Name → Type}

namespace Member

variable (m : Member Holds) {s t : Structure Holds}

theorem type_ne_nothing : m.type ≠ .nothing := by
  cases m <;> simp [type]

@[simp] theorem sqlType_field (s : Structure Holds) : (m.field s).sqlType = m.type := by
  cases m <;> rfl

/-- The size is the length of the field that is read, and zero for a field without a length. -/
theorem size_eq (s : Structure Holds) : m.size s = (m.field s).length?.getD 0 := by
  cases m <;> rfl

/-- The slot of the member, as it is made of its three answers. -/
theorem slotOf_field (s : Structure Holds) : Record.slotOf (m.field s) = ⟨m.type, m.size s, some (m.field s)⟩ := by
  rw [Record.slotOf, m.sqlType_field s, m.size_eq s]

/-- A member reads no other member. -/
theorem field_congr (h : t m.name = s m.name) : m.field t = m.field s := by
  cases m <;> simp only [name] at h <;> simp only [field, h]

section Views

variable [DecidableEq Name] {m} {g : Field}

/-- The view for writing shows what is read. -/
@[simp] theorem field_view (m : Member Holds) (s : Structure Holds) : (m.view s).field = m.field s := by
  cases m <;> rfl

/-- After a write through its view a member reads what was written. -/
theorem field_of_writes (h : (m.view s).Writes g t) : m.field t = g := by
  cases m <;> cases h <;> simp [field]

/-- A write through the view of a member leaves every other member as it was. -/
theorem apart_of_writes (h : (m.view s).Writes g t) {name : Name} (hne : name ≠ m.name) : t name = s name := by
  cases m <;> cases h <;> exact Function.update_of_ne hne _ _

/-- The flag of a member that has none is not set anywhere. -/
theorem setNull_view_of_plain (h : m.type.isNullable = false) (null : Bool) : ((m.view s).setNull null).1 = s := by
  cases m with
  | plain name k holds => simp [view, View.setNull]
  | nullable name k holds => cases h

end Views

/-! ## Counting along the list -/

theorem count_eq (ms : List (Member Holds)) : count ms = ms.length := by
  induction ms with
  | nil => rfl
  | cons m rest ih => rw [count, ih, List.length_cons, Nat.add_comm]

/-- Counting an index down along the list finds the member at that index. -/
theorem countDown_eq {α : Type} (past : α) (answer : Member Holds → α) (ms : List (Member Holds)) (i : Nat) :
    countDown past answer ms i = (ms[i]?.map answer).getD past := by
  induction ms generalizing i with
  | nil => rfl
  | cons m rest ih =>
    cases i with
    | zero => rfl
    | succ i => exact ih i

end Member

/-! ## Answers of a declaration -/

namespace Declaration

variable (d : Declaration Holds) (s : Structure Holds) (i : Nat)

theorem count_eq : d.count = d.members.length := Member.count_eq d.members

theorem typeOf_eq : d.typeOf i = (d.members[i]?.map Member.type).getD .nothing := by
  rw [typeOf, List.getElem?_map]

theorem sizeOf_eq : d.sizeOf s i = (d.members[i]?.map (·.size s)).getD 0 := Member.countDown_eq _ _ _ _

theorem field?_eq : d.field? s i = d.members[i]?.map (·.field s) := by
  rw [field?, Member.countDown_eq]
  cases d.members[i]? <;> rfl

theorem view?_eq [DecidableEq Name] : d.view? s i = d.members[i]?.map (·.view s) := by
  rw [view?, Member.countDown_eq]
  cases d.members[i]? <;> rfl

/-- The record of a value is that of its fields in order. -/
theorem record_eq : d.record s = .ofFields (d.members.map (·.field s)) := by
  have slots : (d.record s).slots = (d.members.map (·.field s)).map Record.slotOf := by
    apply List.ext_getElem
    · simp [record, count_eq]
    · intro i h _
      have hi : i < d.members.length := by simpa [record, count_eq] using h
      simp [record, Member.slotOf_field, typeOf_eq, sizeOf_eq, field?_eq, hi]
  have count : (d.record s).count = (d.members.map (·.field s)).length := by simp [record, count_eq]
  rw [Record.ofFields, ← slots, ← count]

theorem typeOf_record : (d.record s).typeOf i = d.typeOf i := by
  rw [record_eq, Record.typeOf_ofFields, typeOf_eq, List.getElem?_map]
  cases d.members[i]? <;> simp

theorem sizeOf_record : (d.record s).sizeOf i = d.sizeOf s i := by
  rw [record_eq, Record.sizeOf_ofFields, sizeOf_eq, List.getElem?_map]
  cases d.members[i]? <;> simp [Member.size_eq]

theorem field?_record : (d.record s).field? i = d.field? s i := by
  rw [record_eq, Record.field?_ofFields, field?_eq, List.getElem?_map]

/-- There is a member at every index below the count, and at no other. -/
theorem isSome_members : d.members[i]?.isSome = true ↔ i < d.count := by
  rw [count_eq, Option.isSome_iff_exists]
  constructor
  · rintro ⟨m, hm⟩
    exact (List.getElem?_eq_some_iff.1 hm).1
  · intro hi
    exact ⟨d.members[i], List.getElem?_eq_getElem hi⟩

theorem typeOf_ne_nothing : d.typeOf i ≠ .nothing ↔ i < d.count := by
  rw [← isSome_members, typeOf_eq]
  cases d.members[i]? <;> simp [Member.type_ne_nothing]

/-- The check passes if and only if no array is empty. -/
theorem validate_record : (d.record s).validate = .ok () ↔ ∀ i f, d.field? s i = some f → f.length? ≠ some 0 := by
  rw [record_eq, Record.validate_ofFields]
  constructor
  · intro h i f hf
    rw [field?_eq, ← List.getElem?_map] at hf
    exact h f (List.mem_of_getElem? hf)
  · intro h f hf
    obtain ⟨i, hi⟩ := List.getElem?_of_mem hf
    rw [List.getElem?_map, ← field?_eq] at hi
    exact h i f hi

/-! ## Writing -/

/-- The value `t` is `s` with the field `g` at the position `i`: no other position, no other member of the structure
and nothing that the record says is different. -/
structure Stored (s : Structure Holds) (i : Nat) (g : Field) (t : Structure Holds) : Prop where
  here : d.field? t i = some g
  elsewhere : ∀ j, j ≠ i → d.field? t j = d.field? s j
  apart : ∀ name, d.members[i]?.map Member.name ≠ some name → t name = s name
  record : d.record t = (d.record s).setField i g

variable {d s i} {m n : Member Holds} {j : Nat}

/-- Members at two positions have two names. -/
theorem name_ne (hi : d.members[i]? = some m) (hj : d.members[j]? = some n) (hne : j ≠ i) : n.name ≠ m.name := by
  intro same
  have positions : (d.members.map Member.name)[j]? = (d.members.map Member.name)[i]? := by simp [hi, hj, same]
  have below : j < (d.members.map Member.name).length := by
    simpa using (List.getElem?_eq_some_iff.1 hj).1
  exact hne ((List.getElem?_inj below d.distinct).1 positions)

section Views

variable [DecidableEq Name] {t : Structure Holds} {g : Field} {v : View (Structure Holds)}

/-- Below the count there is a view for writing, and it is that of the member listed there. -/
theorem view?_eq_some : d.view? s i = some v ↔ ∃ m, d.members[i]? = some m ∧ v = m.view s := by
  simp [view?_eq, eq_comm]

/-- A write through a view is what its field reads afterwards, and changes nothing else. -/
theorem stored_of_writes (hv : d.view? s i = some v) (h : v.Writes g t) : d.Stored s i g t := by
  obtain ⟨m, hm, rfl⟩ := view?_eq_some.1 hv
  have here : d.field? t i = some g := by
    rw [field?_eq, hm, Option.map_some, Member.field_of_writes h]
  have elsewhere : ∀ j, j ≠ i → d.field? t j = d.field? s j := by
    intro j hne
    rw [field?_eq, field?_eq]
    cases hn : d.members[j]? with
    | none => rfl
    | some n =>
      have other : t n.name = s n.name := Member.apart_of_writes h (name_ne hm hn hne)
      exact congrArg some (n.field_congr other)
  have apart : ∀ name, d.members[i]?.map Member.name ≠ some name → t name = s name := by
    intro name hne
    rw [hm] at hne
    exact Member.apart_of_writes h fun same => hne (congrArg some same.symm)
  have fields : d.members.map (·.field t) = (d.members.map (·.field s)).set i g := by
    apply List.ext_getElem?
    intro j
    rw [← Record.field?_ofFields, ← record_eq, field?_record, List.getElem?_set]
    by_cases hij : i = j
    · subst hij
      simp [here, (List.getElem?_eq_some_iff.1 hm).1]
    · rw [if_neg hij, elsewhere j (Ne.symm hij), field?_eq, List.getElem?_map]
  have record : d.record t = (d.record s).setField i g := by
    have hf : (d.members.map (·.field s))[i]? = some (m.field s) := by rw [List.getElem?_map, hm, Option.map_some]
    obtain ⟨type, length⟩ := View.writes_iff.1 ⟨t, h⟩
    rw [Member.field_view] at type length
    rw [record_eq, record_eq, fields, Record.setField_ofFields hf type length]
  exact ⟨here, elsewhere, apart, record⟩

/-! ## The contract of a record -/

/-- What a declaration promises for a value of its structure. -/
structure Lawful [DecidableEq Name] (d : Declaration Holds) (s : Structure Holds) : Prop where
  answers : (d.record s).count = d.count ∧ ∀ i, (d.record s).typeOf i = d.typeOf i ∧
    (d.record s).sizeOf i = d.sizeOf s i ∧ (d.record s).field? i = d.field? s i
  typed : ∀ i, d.typeOf i ≠ .nothing ↔ i < d.count
  readable : ∀ i, (d.field? s i).isSome = true ↔ i < d.count
  writable : ∀ i, (d.view? s i).isSome = true ↔ i < d.count
  kind : ∀ i f, d.field? s i = some f → f.sqlType = d.typeOf i
  size : ∀ i, d.sizeOf s i = ((d.field? s i).bind Field.length?).getD 0
  reads : ∀ i, (d.view? s i).map View.field = d.field? s i
  writes : ∀ i v g, d.view? s i = some v →
    ((∃ t, v.Writes g t) ↔ g.sqlType = d.typeOf i ∧ g.length? = v.field.length?) ∧
      ∀ t, v.Writes g t → d.Stored s i g t
  setsNull : ∀ i v null, d.view? s i = some v →
    (v.setNull null).2 = (d.typeOf i).isNullable ∧
      ((d.typeOf i).isNullable = true → ∃ g, d.Stored s i g (v.setNull null).1 ∧ g.isNull = null ∧
        g.content = v.field.content) ∧
      ((d.typeOf i).isNullable = false → (v.setNull null).1 = s)
  checked : (d.record s).validate = .ok () ↔ ∀ i f, d.field? s i = some f → f.length? ≠ some 0

theorem field_view? : (d.view? s i).map View.field = d.field? s i := by
  simp [view?_eq, field?_eq, Function.comp_def]

theorem typeOf_of_view? (hv : d.view? s i = some v) : d.typeOf i = v.field.sqlType := by
  obtain ⟨m, hm, rfl⟩ := view?_eq_some.1 hv
  simp [typeOf_eq, hm]

theorem setNull_of_plain (hv : d.view? s i = some v) (h : (d.typeOf i).isNullable = false) (null : Bool) :
    (v.setNull null).1 = s := by
  obtain ⟨m, hm, rfl⟩ := view?_eq_some.1 hv
  refine Member.setNull_view_of_plain ?_ null
  simpa [typeOf_eq, hm] using h

theorem lawful (d : Declaration Holds) (s : Structure Holds) : d.Lawful s where
  answers := ⟨rfl, fun i => ⟨d.typeOf_record s i, d.sizeOf_record s i, d.field?_record s i⟩⟩
  typed := d.typeOf_ne_nothing
  readable i := by rw [field?_eq, Option.isSome_map, isSome_members]
  writable i := by rw [view?_eq, Option.isSome_map, isSome_members]
  kind := by
    intro i f hf
    rw [field?_eq] at hf
    obtain ⟨m, hm, rfl⟩ := Option.map_eq_some_iff.1 hf
    simp [typeOf_eq, hm]
  size i := by
    rw [sizeOf_eq, field?_eq]
    cases d.members[i]? <;> simp [Member.size_eq]
  reads _ := field_view?
  writes := by
    intro i v g hv
    rw [typeOf_of_view? hv]
    exact ⟨View.writes_iff, fun t h => stored_of_writes hv h⟩
  setsNull := by
    intro i v null hv
    refine ⟨?_, fun h => ?_, fun h => setNull_of_plain hv h null⟩
    · rw [typeOf_of_view? hv, View.setNull_snd]
    · rw [typeOf_of_view? hv] at h
      exact ⟨_, stored_of_writes hv (v.writes_setNull null), Field.isNull_setNull h null,
        v.field.content_setNull null⟩
  checked := d.validate_record s

end Views

/-- A text, and bytes behind a null flag. -/
def labelled : Declaration fun tag : Bool => if tag then Nullable (List UInt8) else String where
  members := [.plain false .text rfl, .nullable true .binary rfl]
  distinct := by decide

-- an empty array is found where it is listed, and a null one is an array all the same
example (text : String) (flag : Bool) :
    (labelled.record fun | false => text | true => (⟨[7], flag⟩ : Nullable (List UInt8))).validate = .ok () ∧
      (labelled.record fun | false => text | true => (⟨[], flag⟩ : Nullable (List UInt8))).validate =
        .error (.binding (.wrongSize 1 (.nullable .binary) 0 0)) :=
  ⟨rfl, rfl⟩

end Declaration

end StatementPool
