import StatementPool.Proofs.Field.RoundTrip
/-!
# What a field accepts

A field accepts a value exactly when its column takes it as something, and then holds this behind a cleared flag, with
nothing left of what it held before; a null sets the flag, if there is one, and nothing else; and a value that is
refused leaves the field as it was (`Field.decoding`). Every refusal is an error of conversion.
-/

namespace StatementPool

/-! ## Fields -/

namespace Field

/-- The column of the field takes the value as `x`. -/
def Takes (f : Field) (v : Value) (x : f.kind.Storage) : Prop := f.kind.Takes (f.length?.getD 0) v x

/-- The field refuses the value with an error of conversion, and is as it was. -/
def Refuses (f : Field) (v : Value) : Prop := ∃ cause, f.decode v = (f, .error (.conversion cause))

/-- What a field does with a value. -/
structure Decoding (f : Field) (v : Value) : Prop where
  /-- A null needs a flag, and sets the flag and nothing else. -/
  null : v = .null → ((f.decode v).2 = .ok () ↔ f.sqlType.isNullable = true) ∧
    ((f.decode v).2 = .ok () → (f.decode v).1.isNull = true ∧ (f.decode v).1.content = f.content)
  /-- Any other value is accepted exactly when the column takes it. -/
  accepts : v ≠ .null → ((f.decode v).2 = .ok () ↔ ∃ x, f.Takes v x)
  /-- What the column takes is then what the field holds, behind a cleared flag. -/
  stores : v ≠ .null → ∀ x, f.Takes v x → (f.decode v).1.isNull = false ∧ (f.decode v).1.content = ⟨f.kind, x⟩
  /-- Any other field of the kind and length holds the same then: nothing is left of what was there before. -/
  forgets : v ≠ .null → (f.decode v).2 = .ok () → ∀ g, f.Alike g →
    (g.decode v).2 = .ok () ∧ (g.decode v).1.content = (f.decode v).1.content
  /-- A value that is not accepted leaves storage and flag alone. -/
  refuses : (f.decode v).2 ≠ .ok () → f.Refuses v
  type : (f.decode v).1.sqlType = f.sqlType
  length : (f.decode v).1.length? = f.length?

variable {f g : Field} {v : Value} {e : Error}

/-- A field takes a value, or refuses it. -/
theorem decode_cases (hv : v ≠ .null) :
    (∃ x, f.Takes v x ∧ f.decode v = (f.store x, .ok ())) ∨ ((¬ ∃ x, f.Takes v x) ∧ f.Refuses v) := by
  cases hd : f.kind.decode f.sqlType (f.length?.getD 0) v with
  | ok x =>
    have takes : f.Takes v x := Kind.decode_eq_ok.1 hd
    exact .inl ⟨x, takes, decode_of_takes hv takes⟩
  | error e =>
    obtain ⟨cause, rfl⟩ := Kind.decode_eq_error hd
    refine .inr ⟨?_, cause, by simp [decode, Value.isNull_eq_false.2 hv, hd]⟩
    rintro ⟨x, hx⟩
    exact absurd (hd.symm.trans (Kind.decode_eq_ok.2 hx)) (by simp)

theorem Refuses.not_ok (h : f.Refuses v) : (f.decode v).2 ≠ .ok () := by
  obtain ⟨cause, heq⟩ := h
  simp [heq]

theorem accepts_iff (hv : v ≠ .null) : (f.decode v).2 = .ok () ↔ ∃ x, f.Takes v x := by
  rcases decode_cases (f := f) hv with ⟨x, hx, heq⟩ | ⟨hno, refuses⟩
  · rw [heq]
    exact iff_of_true rfl ⟨x, hx⟩
  · exact iff_of_false refuses.not_ok hno

theorem content_decode (hv : v ≠ .null) {x : f.kind.Storage} (h : f.Takes v x) :
    (f.decode v).1.isNull = false ∧ (f.decode v).1.content = ⟨f.kind, x⟩ := by
  rw [decode_of_takes hv h]
  exact content_store f x

/-- Fields of one kind and length take the same. -/
theorem Takes.alike (ha : f.Alike g) {x : f.kind.Storage} (h : f.Takes v x) :
    ∃ y, g.Takes v y ∧ (⟨g.kind, y⟩ : (k : Kind) × k.Storage) = ⟨f.kind, x⟩ := by
  unfold Takes at *
  rw [← ha.2]
  generalize f.length?.getD 0 = n at h ⊢
  have hk := ha.1
  generalize f.kind = k at x h hk ⊢
  subst hk
  exact ⟨x, h, rfl⟩

theorem refuses_of_not_ok (h : (f.decode v).2 ≠ .ok ()) : f.Refuses v := by
  by_cases hv : v = .null
  · subst hv
    cases f with
    | plain k x => exact ⟨_, rfl⟩
    | nullable k cell => exact absurd rfl h
  · rcases decode_cases (f := f) hv with ⟨x, -, heq⟩ | ⟨-, refuses⟩
    · exact absurd (congrArg Prod.snd heq) h
    · exact refuses

theorem decode_eq_error (h : (f.decode v).2 = .error e) : ∃ cause, e = .conversion cause := by
  obtain ⟨cause, heq⟩ : f.Refuses v := refuses_of_not_ok (by simp [h])
  rw [heq] at h
  cases h
  exact ⟨cause, rfl⟩

@[simp] theorem sqlType_decode (f : Field) (v : Value) : (f.decode v).1.sqlType = f.sqlType := by
  unfold Field.decode
  split
  · split <;> rfl
  · split
    · exact sqlType_store _ _
    · rfl

theorem length?_decode (f : Field) (v : Value) : (f.decode v).1.length? = f.length? := by
  by_cases hv : v = .null
  · subst hv
    cases f <;> rfl
  · rcases decode_cases (f := f) hv with ⟨x, hx, -⟩ | ⟨-, cause, heq⟩
    · have filled : f.kind.length? x = f.length? := Kind.Takes.length? hx
      exact (length?_of_content (content_decode hv hx).2).trans filled
    · rw [heq]

/-- A null that is accepted sets the flag and nothing else. -/
theorem content_decode_null (h : (f.decode .null).2 = .ok ()) :
    (f.decode .null).1.isNull = true ∧ (f.decode .null).1.content = f.content := by
  obtain ⟨accepted, set⟩ := decode_null f
  have nullable := accepted.1 h
  rw [set nullable]
  exact ⟨isNull_setNull nullable true, content_setNull f true⟩

theorem decoding (f : Field) (v : Value) : f.Decoding v where
  null := by
    rintro rfl
    exact ⟨(decode_null f).1, content_decode_null⟩
  accepts := accepts_iff
  stores := fun hv x hx => content_decode hv hx
  forgets := by
    intro hv hok g ha
    obtain ⟨x, hx⟩ := (accepts_iff hv).1 hok
    obtain ⟨y, hy, heq⟩ := hx.alike ha
    refine ⟨(accepts_iff hv).2 ⟨y, hy⟩, ?_⟩
    rw [(content_decode hv hy).2, (content_decode hv hx).2, heq]
  refuses := refuses_of_not_ok
  type := sqlType_decode f v
  length := length?_decode f v

end Field

end StatementPool
