import StatementPool.Proofs.Field.FixedText
/-!
# The value of what was decoded

A value that a field accepted has a canonical form: the value that the field then writes. Decoding the canonical
form gives it back, in every field of the same type and length, and a value that is native to the column is its own
canonical form (`Field.canonical`). Only bytes that are no text do not settle in a fixed text, and a NaN in a 32-bit
column.
-/

namespace StatementPool

namespace Kind

/-- The values that a column writes: those of its own shape, without what it adds. -/
inductive Native (length : Nat) : Kind → Value → Prop where
  | integer (w : Width) (i : Int64Range) : Native length (.integer w) (.int i)
  | float (x : Binary32) : Native length .float (.float x.widen)
  | double (x : Binary64) : Native length .double (.float x)
  | time (x : Duration) : Native length .time (.time x)
  | date (x : Date) : Native length .date (.date x)
  | datetime (x : DateTime) : Native length .datetime (.timestamp x)
  | blob (bytes : List UInt8) : Native length .blob (.blob bytes)
  | text (s : String) : Native length .text (.text s)
  | wtext (s : String) : Native length .wtext (.text s)
  | char {s : String} (bare : (Utf8.bytes s).getLast? ≠ some 0) : Native length .char (.text s)
  | binary {bytes : List UInt8} (full : bytes.length = length) : Native length .binary (.blob bytes)
  | bit (b : Bool) : Native length .bit (.bool b)

/-- The values that a column takes without keeping what they are: bytes that are no text in a fixed text, and a NaN
in a 32-bit number. -/
inductive Garbles : Kind → Value → Prop where
  | char {bytes : List UInt8} (broken : ¬ ∃ s, Utf8.bytes s = bytes) : Garbles .char (.blob bytes)
  | float {x : Binary64} (nan : x.isNan = true) : Garbles .float (.float x)

variable {k : Kind} {length : Nat} {v w : Value} {x : k.Storage}

/-- What a column takes from a value is in the range of the signed words. -/
theorem Takes.not_overflows (h : k.Takes length v x) : ¬ k.Overflows x := by
  have signed : ∀ {n : Int}, v.HasNumber n → n ≤ 9223372036854775807 := by
    rintro _ (i | _ | _)
    · exact i.le_hi
    · decide
    · decide
  cases k with
  | integer w =>
    cases w with
    | ubigint => exact not_lt.2 (signed h)
    | _ => exact id
  | _ => exact id

theorem Takes.exists_encode (h : k.Takes length v x) : ∃ w, k.encode x = .ok w := by
  cases he : k.encode x with
  | ok w => exact ⟨w, rfl⟩
  | error e => exact absurd ((encode_eq_error k x).1 ⟨e, he⟩) h.not_overflows

/-- A native value is written as it was. -/
theorem Native.encode (hn : k.Native length v) (h : k.Takes length v x) : k.encode x = .ok v := by
  cases hn with
  | integer w i =>
    have number : i.val = Ranged.val x := Option.some.inj (Value.asNumber_eq_some.2 h)
    have word : Value.ofWord i.val = .ok (.int i) := by simp [Value.ofWord]
    rw [number] at word
    exact word
  | float y =>
    obtain ⟨_, ⟨⟩, rfl⟩ := h
    exact congrArg (Except.ok ∘ Value.float) y.widen_narrow_widen
  | @char s bare =>
    obtain ⟨_, ⟨⟩, -, rfl⟩ := h
    -- the zeros that were filled in are all that is cut off
    have own : Utf8.lossy (trimZeros (Utf8.bytes s ++ List.replicate (length - (Utf8.bytes s).length) 0)) = s := by
      rw [trimZeros_append_zeros, trimZeros_eq_self bare, Utf8.lossy_bytes]
    exact congrArg (Except.ok ∘ Value.text) own
  | @binary bytes full =>
    obtain ⟨_, ⟨⟩, -, rfl⟩ := h
    have own : bytes ++ List.replicate (length - bytes.length) 0 = bytes := by simp [full]
    exact congrArg (Except.ok ∘ Value.blob) own
  | _ =>
    cases h
    rfl

/-- What a column keeps can be read back. -/
theorem Takes.legible (h : k.Takes length v x) (hg : ¬ k.Garbles v) : k.Legible x := by
  cases k with
  | float =>
    obtain ⟨y, hy, rfl⟩ := h
    have number : y.isNan = false := by
      cases v with
      | int i =>
        cases hy
        exact Binary64.isNan_ofInt i.val
      | float y' =>
        cases hy
        exact eq_false_of_ne_true fun nan => hg (.float nan)
      | _ => cases hy
    exact Binary64.isNan_narrow number
  | char =>
    obtain ⟨bytes, hb, -, rfl⟩ := h
    have code : ∃ s, Utf8.bytes s = bytes := by
      cases hb with
      | text s => exact ⟨s, rfl⟩
      | blob => exact not_not.1 fun broken => hg (.char broken)
    exact (Utf8.valid_append_zeros bytes _).trans (Utf8.valid_iff.2 code)
  | _ => trivial

end Kind

namespace Field

variable {f g g' : Field} {v w : Value}

/-- A field that received another writes what that one writes. -/
theorem Received.encode (h : f.Received g g') : g'.encode = f.encode := by
  cases hn : f.isNull with
  | true => rw [encode_of_null hn, encode_of_null (h.null hn).1]
  | false =>
    obtain ⟨hnull, hcontent⟩ := h.value hn
    rw [encode_of_not_null hn]
    exact encode_of_content hnull hcontent

theorem isNullable_of_isNull (h : f.isNull = true) : f.sqlType.isNullable = true := by
  cases f with
  | plain k x => cases h
  | nullable k cell => rfl

theorem kind_of_sqlType (h : f.sqlType = g.sqlType) : f.kind = g.kind := by
  cases f <;> cases g <;> cases h <;> rfl

/-- What a field writes that can be read back, every field of its type and length writes after it decoded it. -/
theorem encode_decode (hl : f.Legible) (hw : f.encode = .ok w) (htype : g.sqlType = f.sqlType)
    (hlength : g.length? = f.length?) : (g.decode w).2 = .ok () ∧ (g.decode w).1.encode = .ok w := by
  have alike : f.Alike g := ⟨kind_of_sqlType htype.symm, hlength.symm⟩
  obtain ⟨hok, hreceived⟩ := decode_encode alike hl hw
  have accepted := hok.2 fun hn => htype ▸ isNullable_of_isNull hn
  exact ⟨accepted, (hreceived accepted).encode.trans hw⟩

/-- What a field writes after it accepted a value settles: the fields of its type and length take it and write it
again. -/
theorem settles (hl : (f.decode v).1.Legible) (hw : (f.decode v).1.encode = .ok w) (htype : g.sqlType = f.sqlType)
    (hlength : g.length? = f.length?) : (g.decode w).2 = .ok () ∧ (g.decode w).1.encode = .ok w :=
  encode_decode hl hw (htype.trans (sqlType_decode f v).symm) (hlength.trans (length?_decode f v).symm)

/-- The value of a field after it accepted another one. -/
theorem canonical (h : (f.decode v).2 = .ok ()) :
    ∃ w, (f.decode v).1.encode = .ok w ∧ (w = .null ↔ v = .null) ∧
      (f.kind.Native (f.length?.getD 0) v → w = v) ∧
      (¬ f.kind.Garbles v → ∀ g : Field, g.sqlType = f.sqlType → g.length? = f.length? →
        (g.decode w).2 = .ok () ∧ (g.decode w).1.encode = .ok w) := by
  by_cases hv : v = .null
  · subst hv
    obtain ⟨hnull, -⟩ := content_decode_null h
    have written := encode_of_null hnull
    have legible : (f.decode .null).1.Legible := fun h => absurd (hnull.symm.trans h) (by simp)
    exact ⟨.null, written, by simp, fun _ => rfl, fun _ g => settles legible written⟩
  · obtain ⟨x, hx⟩ := (accepts_iff hv).1 h
    obtain ⟨hflag, hcontent⟩ := content_decode hv hx
    obtain ⟨w, hw⟩ := Kind.Takes.exists_encode hx
    have written := (encode_of_content hflag hcontent).trans hw
    refine ⟨w, written, iff_of_false (Kind.encode_ne_null hw) hv, ?_, ?_⟩
    · intro hn
      exact Except.ok.inj (hw.symm.trans (hn.encode hx))
    · intro hg g
      exact settles (legible_of_content hcontent (Kind.Takes.legible hx hg)) written

theorem canonical_of_short_blob :
    let f : Field := .nullable .char ⟨tornBytes, true⟩
    let g : Field := .nullable .char ⟨wholeBytes, false⟩
    (f.decode (.blob [0x61])).2 = .ok () ∧ ∃ w, (f.decode (.blob [0x61])).1.encode = .ok w ∧ w ≠ .null ∧
      (g.decode w).2 = .ok () ∧ (g.decode w).1.encode = .ok w := by
  intro f g
  have accepted : (f.decode (.blob [0x61])).2 = .ok () := rfl
  obtain ⟨w, hw, hnull, -, hsettles⟩ := canonical accepted
  have code : ¬ f.kind.Garbles (.blob [0x61]) := by
    rintro ⟨broken⟩
    exact broken ⟨"a", rfl⟩
  have notNull : w ≠ .null := fun h => absurd (hnull.1 h) (by simp)
  exact ⟨accepted, w, hw, notNull, hsettles code g rfl rfl⟩

end Field

end StatementPool
