import StatementPool.Field.Encoding
import StatementPool.Proofs.Field.Acceptance
import StatementPool.Proofs.Number.Exact
import StatementPool.Proofs.Text.Utf8
/-!
# A field reads back what a field of its kind wrote

Encoding fails for an unsigned number past the signed range and for nothing else
(`Field.encode_eq_error`). What it gives is stored by any field of the same kind and length exactly
as it was, and a null is stored by a field with a null flag (`Field.decode_encode`). Nothing is lost
as long as no 32-bit number is a NaN and the bytes of a fixed text are the code of a text.
-/

namespace StatementPool

/-! ## Columns -/

namespace Kind

/-- The numbers that no signed word of 64 bits holds. -/
def Overflows : (k : Kind) → k.Storage → Prop
  | .integer .ubigint, (x : Ranged _ _) => 9223372036854775807 < x.val
  | _, _ => False

/-- What another column of the kind reads back: numbers are no NaN, fixed texts are UTF-8. -/
def Legible : (k : Kind) → k.Storage → Prop
  | .float, (x : Binary32) => x.isNan = false
  | .char, (x : List UInt8) => Utf8.valid x = true
  | _, _ => True

/-- Only unsigned words of 64 bits leave the range of the signed ones. -/
theorem low_le_high {w : Width} (hw : w ≠ .ubigint) :
    -9223372036854775808 ≤ w.low ∧ w.high ≤ 9223372036854775807 := by
  cases w <;> first | exact absurd rfl hw | decide

theorem encode_word {n : Int} :
    (∃ e, Value.ofWord n = .error e) ↔ n < -9223372036854775808 ∨ 9223372036854775807 < n := by
  rw [← Ranged.ofInt?_eq_none]
  unfold Value.ofWord
  split
  · rename_i h
    simp [h]
  · rename_i h
    simp [h]

theorem encode_eq_error (k : Kind) (x : k.Storage) : (∃ e, k.encode x = .error e) ↔ k.Overflows x := by
  cases k with
  | integer w =>
    have lo : w.low ≤ Ranged.val x := Ranged.lo_le x
    have hi : Ranged.val x ≤ w.high := Ranged.le_hi x
    refine encode_word.trans ?_
    by_cases hw : w = .ubigint
    · subst hw
      have : Width.ubigint.low = 0 := rfl
      exact ⟨fun h => h.resolve_left (by omega), .inr⟩
    · have := low_le_high hw
      have hn : ¬ Overflows (.integer w) x := by cases w <;> simp [Overflows] at hw ⊢
      exact iff_of_false (by omega) hn
  | _ => simp [encode, Overflows]

theorem ofWord_eq_ok {n : Int} {v : Value} (h : Value.ofWord n = .ok v) :
    ∃ i : Int64Range, v = .int i ∧ i.val = n := by
  unfold Value.ofWord at h
  split at h
  · rename_i i hi
    cases h
    exact ⟨i, rfl, Ranged.ofInt?_eq_some.1 hi⟩
  · cases h

/-- What a column holds that can be read back, a column of the same kind and length takes from its value. -/
theorem takes_of_encode {k : Kind} {x : k.Storage} {v : Value} (hx : k.Legible x) (hv : k.encode x = .ok v) :
    k.Takes ((k.length? x).getD 0) v x := by
  cases k with
  | integer w =>
    obtain ⟨i, rfl, hi⟩ := ofWord_eq_ok hv
    have number : Value.HasNumber (.int i) (Ranged.val x) := hi ▸ .int i
    exact number
  | float =>
    cases hv
    exact ⟨_, rfl, Binary32.narrow_widen hx⟩
  | char =>
    cases hv
    have code : Value.HasBytes (.text (Utf8.lossy (trimZeros x))) (trimZeros x) := by
      have own := Value.HasBytes.text (Utf8.lossy (trimZeros x))
      rwa [bytes_lossy_trimZeros hx] at own
    have filled := trimZeros_append x
    have length := congrArg List.length filled
    rw [List.length_append] at length
    exact ⟨_, code, Nat.le.intro length, filled.symm⟩
  | binary =>
    cases hv
    have full : List.append x (List.replicate (List.length x - List.length x) 0) = x := by
      rw [Nat.sub_self]
      exact List.append_nil x
    exact ⟨_, .blob x, Nat.le_refl _, full.symm⟩
  | blob =>
    cases hv
    exact .blob x
  | bit =>
    cases hv
    exact .bool x
  | _ =>
    cases hv
    rfl

/-- What a column holds is not written as a null. -/
theorem encode_ne_null {k : Kind} {x : k.Storage} {v : Value} (h : k.encode x = .ok v) : v ≠ .null := by
  cases k with
  | integer _ =>
    obtain ⟨i, rfl, -⟩ := ofWord_eq_ok h
    simp
  | _ =>
    cases h
    simp

end Kind

/-! ## Fields -/

namespace Field

/-- Two fields of one kind, and of one length if the kind is fixed. -/
def Alike (f g : Field) : Prop := f.kind = g.kind ∧ f.length? = g.length?

/-- What a field holds, with its kind, also behind a null flag. -/
def content (f : Field) : (k : Kind) × k.Storage := ⟨f.kind, f.storage⟩

def Overflows (f : Field) : Prop := f.isNull = false ∧ f.kind.Overflows f.storage

/-- What the field holds can be read back, unless it is null. -/
def Legible (f : Field) : Prop := f.isNull = false → f.kind.Legible f.storage

/-- `g'` is the field `g` after it received the value of `f`: a null sets the flag and leaves the
storage alone. -/
structure Received (f g g' : Field) : Prop where
  type : g'.sqlType = g.sqlType
  value : f.isNull = false → g'.isNull = false ∧ g'.content = f.content
  null : f.isNull = true → g'.isNull = true ∧ g'.content = g.content

variable {f g : Field} {v : Value}

theorem encode_of_null (h : f.isNull = true) : f.encode = .ok .null := by
  cases f with
  | plain k x => cases h
  | nullable k cell =>
    have : cell.null = true := h
    simp [encode, Nullable.get?, this]

theorem encode_of_not_null (h : f.isNull = false) : f.encode = f.kind.encode f.storage := by
  cases f with
  | plain k x => rfl
  | nullable k cell =>
    have : cell.null = false := h
    simp [encode, Nullable.get?, this, kind, storage]

section Content

variable {k : Kind} {x : k.Storage}

theorem encode_of_content (hn : f.isNull = false) (hf : f.content = ⟨k, x⟩) : f.encode = k.encode x :=
  (encode_of_not_null hn).trans (congrArg (fun c : (k : Kind) × k.Storage => c.1.encode c.2) hf)

theorem length?_of_content (hf : f.content = ⟨k, x⟩) : f.length? = k.length? x :=
  congrArg (fun c : (k : Kind) × k.Storage => c.1.length? c.2) hf

theorem legible_of_content (hf : f.content = ⟨k, x⟩) (hx : k.Legible x) : f.Legible := by
  have same : f.kind.Legible f.storage = k.Legible x :=
    congrArg (fun c : (k : Kind) × k.Storage => c.1.Legible c.2) hf
  exact fun _ => same ▸ hx

end Content

/-- Only an unsigned number past the signed range has no value. -/
theorem encode_eq_error (f : Field) : (∃ e, f.encode = .error e) ↔ f.Overflows := by
  cases h : f.isNull with
  | true => simp [encode_of_null h, Overflows, h]
  | false => rw [encode_of_not_null h, Kind.encode_eq_error, Overflows, h, and_iff_right rfl]

/-- A null needs a flag. -/
theorem decode_null (g : Field) : ((g.decode .null).2 = .ok () ↔ g.sqlType.isNullable = true) ∧
    (g.sqlType.isNullable = true → (g.decode .null).1 = (g.setNull true).1) := by
  cases g <;> simp [decode, Value.isNull, sqlType, SqlType.isNullable, setNull]

theorem content_store (g : Field) (x : g.kind.Storage) :
    (g.store x).isNull = false ∧ (g.store x).content = ⟨g.kind, x⟩ := by
  cases g <;> exact ⟨rfl, rfl⟩

theorem isNull_setNull (h : g.sqlType.isNullable = true) (null : Bool) : (g.setNull null).1.isNull = null := by
  cases g with
  | plain k x => cases h
  | nullable k cell => rfl

theorem content_setNull (g : Field) (null : Bool) : (g.setNull null).1.content = g.content := by
  cases g <;> rfl

theorem received_null (hf : f.isNull = true) (hg : g.sqlType.isNullable = true) :
    f.Received g (g.setNull true).1 where
  type := sqlType_setNull g true
  value h := absurd (hf.symm.trans h) (by decide)
  null _ := ⟨isNull_setNull hg true, content_setNull g true⟩

/-- A field stores what its column takes. -/
theorem decode_of_takes (hv : v ≠ .null) {x : g.kind.Storage} (h : g.kind.Takes (g.length?.getD 0) v x) :
    g.decode v = (g.store x, .ok ()) := by
  simp [decode, Value.isNull_eq_false.2 hv, Kind.decode_eq_ok.2 h]

theorem exists_storage (h : f.kind = g.kind) : ∃ x : g.kind.Storage, f.content = ⟨g.kind, x⟩ := by
  unfold content
  rw [← h]
  exact ⟨f.storage, rfl⟩

/-- A field stores what a field of its kind and length wrote; only a null may be refused. -/
theorem decode_encode (ha : f.Alike g) (hl : f.Legible) (hv : f.encode = .ok v) :
    ((g.decode v).2 = .ok () ↔ (f.isNull = true → g.sqlType.isNullable = true)) ∧
      ((g.decode v).2 = .ok () → f.Received g (g.decode v).1) := by
  cases hn : f.isNull with
  | true =>
    rw [encode_of_null hn] at hv
    cases hv
    -- a null carries nothing, so the flag alone decides
    obtain ⟨hok, hset⟩ := decode_null g
    constructor
    · exact hok.trans ⟨fun h _ => h, fun h => h rfl⟩
    · intro h
      rw [hset (hok.1 h)]
      exact received_null hn (hok.1 h)
  | false =>
    rw [encode_of_not_null hn] at hv
    -- the kinds are equal but not the same term: what is known of the source is moved to the kind of `g`
    have carried : ∀ c, f.content = c →
        c.1.Legible c.2 ∧ c.1.encode c.2 = .ok v ∧ c.1.length? c.2 = g.length? := by
      rintro _ rfl
      exact ⟨hl hn, hv, ha.2⟩
    obtain ⟨x, hx⟩ := exists_storage ha.1
    obtain ⟨hlx, hvx, hlen⟩ := carried _ hx
    have takes := Kind.takes_of_encode hlx hvx
    rw [hlen] at takes
    rw [decode_of_takes (Kind.encode_ne_null hvx) takes]
    obtain ⟨hflag, hcontent⟩ := content_store g x
    constructor
    · exact iff_of_true rfl fun h => nomatch h
    · intro _
      refine ⟨sqlType_store g x, ?_, ?_⟩
      · intro _
        exact ⟨hflag, hcontent.trans hx.symm⟩
      · intro h
        rw [hn] at h
        cases h

end Field

end StatementPool
