import StatementPool.Proofs.Field.Decoding
/-!
# What comes back from a fixed text

A fixed text writes a text without a zero at its end, whatever its bytes are. A fixed text of the same length reads
this back as the same bytes if and only if they are the code of a text; otherwise what was written does not fit, or
other bytes are stored (`Field.fixed_text`).
-/

namespace StatementPool

theorem Value.Fills.unique {v : Value} {n : Nat} {x y : List UInt8} (hx : v.Fills n x) (hy : v.Fills n y) : x = y := by
  obtain ⟨_, hx, -, rfl⟩ := hx
  obtain ⟨_, hy, -, rfl⟩ := hy
  cases hx <;> cases hy <;> rfl

namespace Field

/-- The field accepts the value, and then holds these bytes of a fixed text and is not null. -/
def ReadsAs (g : Field) (v : Value) (bs : List UInt8) : Prop :=
  (g.decode v).2 = .ok () ∧ (g.decode v).1.isNull = false ∧ (g.decode v).1.content = ⟨.char, bs⟩

variable {f g : Field} {v : Value} {n : Nat} {bs : List UInt8}

theorem ReadsAs.unique {bs' : List UInt8} (h : g.ReadsAs v bs) (h' : g.ReadsAs v bs') : bs = bs' := by
  cases h.2.2.symm.trans h'.2.2
  rfl

/-- A fixed text takes what fills it, or refuses the value. -/
theorem decode_char (hk : g.kind = .char) (hl : g.length? = some n) (hv : v ≠ .null) :
    (∃ x, v.Fills n x ∧ g.ReadsAs v x) ∨ ((¬ ∃ x, v.Fills n x) ∧ g.Refuses v) := by
  have length : g.length?.getD 0 = n := by rw [hl]; rfl
  rcases decode_cases (f := g) hv with ⟨x, hx, -⟩ | ⟨hno, refuses⟩
  · obtain ⟨hnull, hcontent⟩ := content_decode hv hx
    have accepted := (accepts_iff hv).2 ⟨x, hx⟩
    -- what the column takes, moved to the kind of fixed texts
    have column : ∀ {k : Kind} (x : k.Storage), k = .char → k.Takes n v x →
        ∃ y : List UInt8, v.Fills n y ∧ (⟨k, x⟩ : (k : Kind) × k.Storage) = ⟨.char, y⟩ := by
      rintro _ x rfl h
      exact ⟨x, h, rfl⟩
    rw [Takes, length] at hx
    obtain ⟨y, hy, heq⟩ := column x hk hx
    exact .inl ⟨y, hy, accepted, hnull, hcontent.trans heq⟩
  · have column : ∀ {k : Kind}, k = .char → (∃ x, v.Fills n x) → ∃ x : k.Storage, k.Takes n v x := by
      rintro _ rfl h
      exact h
    refine .inr ⟨fun h => hno ?_, refuses⟩
    rw [show g.Takes v = g.kind.Takes n v from congrArg (g.kind.Takes · v) length]
    exact column hk h

theorem readsAs_iff (hk : g.kind = .char) (hl : g.length? = some n) (hv : v ≠ .null) :
    g.ReadsAs v bs ↔ v.Fills n bs := by
  rcases decode_char hk hl hv with ⟨x, hx, reads⟩ | ⟨hno, refuses⟩
  · constructor
    · intro h
      rwa [h.unique reads]
    · intro h
      rwa [h.unique hx]
  · constructor
    · intro h
      exact absurd h.1 refuses.not_ok
    · intro h
      exact absurd ⟨bs, h⟩ hno

/-- The text of a fixed field fills the field as it was if and only if this was the code of a text. -/
theorem fills_own_text (bs : List UInt8) :
    Value.Fills (.text (Utf8.lossy (trimZeros bs))) bs.length bs ↔ ∃ t, Utf8.bytes t = bs := by
  constructor
  · rintro ⟨_, ⟨⟩, -, heq⟩
    rw [heq, ← Utf8.valid_iff, Utf8.valid_append_zeros, Utf8.valid_bytes]
  · intro ht
    exact Kind.takes_of_encode (k := .char) (Utf8.valid_iff.2 ht) rfl

/-- What a fixed text writes, and what a fixed text of the same length makes of it. -/
theorem fixed_text (hn : f.isNull = false) (hf : f.content = ⟨.char, bs⟩) :
    ∃ s, f.encode = .ok (.text s) ∧ (Utf8.bytes s).getLast? ≠ some 0 ∧
      ∀ g : Field, g.kind = .char → g.length? = some bs.length →
        (g.ReadsAs (.text s) bs ↔ ∃ t, Utf8.bytes t = bs) ∧
        ((¬ ∃ t, Utf8.bytes t = bs) → g.Refuses (.text s) ∨ ∃ other, other ≠ bs ∧ g.ReadsAs (.text s) other) := by
  refine ⟨_, encode_of_content hn hf, fun h => getLast?_trimZeros bs (Utf8.getLast?_bytes_lossy h), ?_⟩
  intro g hk hl
  have restores := (readsAs_iff hk hl (by simp)).trans (fills_own_text bs)
  refine ⟨restores, ?_⟩
  intro ht
  rcases decode_char hk hl (v := .text (Utf8.lossy (trimZeros bs))) (by simp)
    with ⟨x, -, reads⟩ | ⟨-, refuses⟩
  · refine .inr ⟨x, ?_, reads⟩
    rintro rfl
    exact ht (restores.1 reads)
  · exact .inl refuses

/-- The code of a text with two letters and a zero. -/
def wholeBytes : List UInt8 := [0x61, 0xC3, 0xA9, 0]

/-- A letter and the beginning of a code without its end. -/
def tornBytes : List UInt8 := [0x61, 0xC3, 0, 0]

theorem fixed_text_of_four_bytes :
    (∃ s, encode (.plain .char wholeBytes) = .ok (.text s) ∧
      ReadsAs (.nullable .char ⟨tornBytes, true⟩) (.text s) wholeBytes) ∧
    ∃ s, encode (.nullable .char ⟨tornBytes, false⟩) = .ok (.text s) ∧
      ¬ ReadsAs (.plain .char wholeBytes) (.text s) tornBytes := by
  constructor
  · obtain ⟨s, hs, -, hread⟩ := fixed_text (f := .plain .char wholeBytes) rfl rfl
    exact ⟨s, hs, (hread (.nullable .char ⟨tornBytes, true⟩) rfl rfl).1.2 ⟨"aé\x00", rfl⟩⟩
  · obtain ⟨s, hs, -, hread⟩ := fixed_text (f := .nullable .char ⟨tornBytes, false⟩) rfl rfl
    have broken : ¬ ∃ t, Utf8.bytes t = tornBytes := by
      rw [← Utf8.valid_iff]
      simp [tornBytes, Utf8.valid, Utf8.scan, Utf8.lead?, Utf8.follow]
    exact ⟨s, hs, fun h => broken ((hread (.plain .char wholeBytes) rfl rfl).1.1 h)⟩

end Field

end StatementPool
