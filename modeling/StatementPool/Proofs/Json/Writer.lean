import StatementPool.Json.Writer
import StatementPool.Proofs.Json.Grammar
/-!
# What is written

What is written between two quotes spells the string (`spells_escape`), an object that is written is the text of an
object with its members in their order (`isObject_writeObject`), and a list is that of its elements
(`isList_writeList`).
-/

namespace StatementPool.Json

/-! ## Strings -/

theorem isHex_hexDigit {d : Nat} (h : d < 16) : IsHex d (Numeral.hexDigit d) := ⟨h, .inl rfl⟩

/-- The escape of a control without a short one. -/
theorem spellsChar_control {c : Char} (h : c.toNat < 0x20) :
    SpellsChar c
      ['\\', 'u', '0', '0', Numeral.hexDigit (c.toNat / 16), Numeral.hexDigit (c.toNat % 16)] := by
  have digits : IsHex4 (((0 * 16 + 0) * 16 + c.toNat / 16) * 16 + c.toNat % 16)
      ['0', '0', Numeral.hexDigit (c.toNat / 16), Numeral.hexDigit (c.toNat % 16)] :=
    .mk (isHex_hexDigit (by decide)) (isHex_hexDigit (by decide)) (isHex_hexDigit (by omega))
      (isHex_hexDigit (Nat.mod_lt _ (by decide)))
  have number : ((0 * 16 + 0) * 16 + c.toNat / 16) * 16 + c.toNat % 16 = c.toNat := by omega
  rw [number] at digits
  have spelled := SpellsChar.code digits (fun h' => by have := h'.1; omega) (fun h' => by have := h'.1; omega)
  rwa [Char.ofNat_toNat] at spelled

theorem spellsChar_escape (c : Char) : SpellsChar c (escape c) := by
  unfold escape
  split_ifs with quote backslash backspace tab newline feed carriage control
  · subst quote
    exact .short (by decide)
  · subst backslash
    exact .short (by decide)
  · subst backspace
    exact .short (by decide)
  · subst tab
    exact .short (by decide)
  · subst newline
    exact .short (by decide)
  · subst feed
    exact .short (by decide)
  · subst carriage
    exact .short (by decide)
  · exact spellsChar_control control
  · exact .plain ⟨quote, backslash, Nat.not_lt.1 control⟩

/-- What is written between the quotes spells the string. -/
theorem spells_escape (s : List Char) : Spells s (s.flatMap escape) := by
  induction s with
  | nil => exact .nil
  | cons c s ih => exact .cons (spellsChar_escape c) ih

/-! ## Objects -/

/-- A member as it is written, without spaces. -/
theorem isMember_write (name : String) (value : List Char) :
    IsMember name value (writeString name ++ ':' :: value) := by
  refine ⟨_, [], [], spells_escape name.toList, .nil, .nil, ?_⟩
  simp [writeString]

theorem areMembers_writeItems (m : String × List Char) (ms : MemberTexts) :
    AreMembers (m :: ms) (writeItems ((m :: ms).map fun (name, value) => writeString name ++ ':' :: value)) := by
  induction ms generalizing m with
  | nil => exact .last (isMember_write m.1 m.2)
  | cons m' ms ih => exact .more (isMember_write m.1 m.2) .nil .nil (ih m')

/-- An object that is written has the given members. -/
theorem isObject_writeObject (ms : MemberTexts) : IsObject ms (writeObject ms) := by
  match ms with
  | [] => exact .empty .nil
  | m :: ms => exact .members .nil (areMembers_writeItems m ms) .nil

/-! ## Lists -/

theorem areElements_writeItems (v : List Char) (vs : List (List Char)) :
    AreElements (v :: vs) (writeItems (v :: vs)) := by
  induction vs generalizing v with
  | nil => exact .last
  | cons v' vs ih => exact .more .nil .nil (ih v')

/-- A list that is written has the given elements. -/
theorem isList_writeList (vs : List (List Char)) : IsList vs (writeList vs) := by
  match vs with
  | [] => exact .empty .nil
  | v :: vs => exact .elements .nil (areElements_writeItems v vs) .nil

end StatementPool.Json
