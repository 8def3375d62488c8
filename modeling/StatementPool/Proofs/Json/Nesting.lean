import Mathlib.Data.List.Forall2
import StatementPool.Proofs.Json.Reader
/-!
# Reading lists, pairs and variants

A list is read element by element (`readList_isList`), a pair as a list of two (`readPair_isList`), a variant as its
name alone (`readVariant_bare`) or as an object with the name as its only key (`readVariant_isObject`). Whatever stands
behind the key of such an object, it is read as a value of the variant with this name or not at all (`readVariant_key`).
-/

namespace StatementPool.Json

variable {α β : Type} {expected : String} {sp rest cs : List Char} {c : Char}

/-! ## Elements -/

section Elements

variable {r : Reader α} {a : α} {v front : List Char} {first : Bool}

/-- A text that begins with a token other than the end of a list. -/
def Begins (cs : List Char) : Prop := ∃ c tail, cs = c :: tail ∧ isSpace c = false ∧ c ≠ ']'

theorem begins_ofNat (n : Nat) : Begins (Numeral.ofNat n) := by
  obtain ⟨d, tail, hds, digit, -⟩ := AreSomeDigits.cases ⟨Numeral.ofNat_ne_nil n, Numeral.areDigits_ofNat n⟩
  exact ⟨d, tail, hds, isSpace_digit digit, Numeral.ne_of_isDigit digit rfl⟩

/-- A reader takes a text as one element of a list. -/
structure TakesElement (r : Reader α) (cs : List Char) (a : α) : Prop where
  begins : Begins cs
  takes : TakesText r cs a

theorem nextElement_close (first : Bool) (spaces : Spaces sp) : nextElement first (sp ++ ']' :: rest) = .ok none := by
  simp [nextElement, dropSpace_spaces spaces, isSpace]

theorem nextElement_inFront (h : InFront first front) (token : isSpace c = false) (more : c ≠ ']') :
    nextElement first (front ++ c :: rest) = .ok (some (c :: rest)) := by
  cases h with
  | first spaces => simp [nextElement, dropSpace_spaces spaces, token, more]
  | next left right =>
    simp only [List.append_assoc, List.cons_append, nextElement]
    rw [dropSpace_spaces left rfl]
    simp [dropSpace_spaces right token, more]

theorem readElement_close (first : Bool) (spaces : Spaces sp) :
    readElement r first (sp ++ ']' :: rest) = .ok (none, ']' :: rest) := by
  rw [readElement, nextElement_close first spaces]
  simp [dropSpace_spaces spaces, isSpace]

theorem readElement_inFront (inFront : InFront first front) (h : TakesElement r v a) (ends : Ends rest) :
    readElement r first (front ++ (v ++ rest)) = .ok (some a, rest) := by
  obtain ⟨⟨c, tail, rfl, token, more⟩, takes⟩ := h
  have read : r (c :: tail ++ rest) = .ok (a, rest) := takes [] rest .nil ends
  rw [List.cons_append] at read ⊢
  rw [readElement, nextElement_inFront inFront token more]
  simp only [read, Except.map]

/-- The numeral of an integer begins like a number. -/
theorem takesElement_ofInt {lo hi : Int} (x : Ranged lo hi) (lower : -9223372036854775808 ≤ x.val)
    (upper : x.val ≤ maxWord) : TakesElement (readRange expected lo hi) (Numeral.ofInt x.val) x where
  begins := by
    cases x.val with
    | ofNat n => exact begins_ofNat n
    | negSucc n => exact ⟨'-', _, rfl, rfl, by decide⟩
  takes := readRange_ofInt x lower upper

theorem takesElement_byte (b : UInt8) : TakesElement readByte (Numeral.ofNat b.toNat) b where
  begins := begins_ofNat b.toNat
  takes := readByte_ofNat b

theorem closeList_spaces (spaces : Spaces sp) : closeList (sp ++ ']' :: rest) = (rest, none) := by
  simp [closeList, dropSpace_spaces spaces, isSpace]

end Elements

/-! ## Lists and pairs -/

section Lists

variable {r : Reader α} {s : Reader β} {a : α} {b : β} {as : List α} {v w front after : List Char}
  {vs : List (List Char)} {first : Bool}

theorem readElements_close (first : Bool) (spaces : Spaces sp) :
    readElements r first (sp ++ ']' :: rest) = .ok ([], ']' :: rest) := by
  rw [readElements, readElement_close first spaces]

theorem readElements_cons (inFront : InFront first front) (h : TakesElement r v a) (ends : Ends rest) :
    readElements r first (front ++ (v ++ rest)) =
      (readElements r false rest).map fun (as, rest) => (a :: as, rest) := by
  -- an element is not empty, so what is left is shorter and the reader goes on
  have shorter : rest.length < (front ++ (v ++ rest)).length := by
    obtain ⟨⟨c, tail, rfl, -⟩, -⟩ := h
    simp only [List.length_append, List.length_cons]
    omega
  rw [readElements, readElement_inFront inFront h ends]
  simp only [dif_pos shorter]

/-- All elements of a text are read, up to the closing bracket. -/
theorem readElements_areElements (text : AreElements vs cs) (takes : List.Forall₂ (TakesElement r) vs as)
    (inFront : InFront first front) (right : Spaces after) :
    readElements r first (front ++ (cs ++ (after ++ ']' :: rest))) = .ok (as, ']' :: rest) := by
  -- in front of the first element stand the spaces behind the bracket, in front of any other one a comma
  induction text generalizing as first front with
  | last =>
    obtain _ | ⟨head, tail⟩ := takes
    cases tail
    rw [readElements_cons inFront head (.spaces right (.cons (by decide))), readElements_close false right]
    rfl
  | more left right' _ ih =>
    obtain _ | ⟨head, tail⟩ := takes
    simp only [List.append_assoc, List.cons_append]
    rw [readElements_cons inFront head (.spaces left (.cons (by decide)))]
    have others := ih tail (.next left right')
    simp only [List.append_assoc, List.cons_append] at others
    rw [others]
    rfl

/-- A list is read as what its elements are read as. -/
theorem readList_isList (text : IsList vs cs) (takes : List.Forall₂ (TakesElement r) vs as) :
    TakesText (readList r) cs as := by
  intro sp rest spaces _
  obtain ⟨inner, rfl, read⟩ : ∃ inner, cs = '[' :: inner ∧
      readElements r true (inner ++ rest) = .ok (as, ']' :: rest) := by
    cases text with
    | empty inside =>
      cases takes
      refine ⟨_, rfl, ?_⟩
      rw [List.append_assoc]
      exact readElements_close true inside
    | elements left elements right =>
      refine ⟨_, rfl, ?_⟩
      simp only [List.append_assoc]
      exact readElements_areElements elements takes (.first left) right
  have closed : closeList (']' :: rest) = (rest, none) := closeList_spaces .nil
  refine readValue_token spaces rfl ?_
  simp [read, close, closed]

theorem AreElements.single (h : AreElements [v] cs) : cs = v := by
  cases h with
  | last => rfl
  | more _ _ others => cases others

/-- The text of a list with two elements. -/
theorem IsList.two (h : IsList [v, w] cs) :
    ∃ front before behind after, Spaces front ∧ Spaces before ∧ Spaces behind ∧ Spaces after ∧
      cs = '[' :: (front ++ (v ++ (before ++ ',' :: (behind ++ (w ++ (after ++ [']'])))))) := by
  cases h with
  | elements left elements right =>
    cases elements with
    | more before behind others =>
      obtain rfl := others.single
      exact ⟨_, _, _, _, left, before, behind, right, by simp⟩

/-- A list of two elements is read as their pair. -/
theorem readPair_isList (text : IsList [v, w] cs) (takes : TakesElement r v a) (takes' : TakesElement s w b) :
    TakesText (readPair r s) cs (a, b) := by
  intro sp rest spaces _
  obtain ⟨front, before, behind, after, left, beforeComma, behindComma, right, rfl⟩ := text.two
  have read : readElement r true (front ++ (v ++ (before ++ ',' :: (behind ++ (w ++ (after ++ ']' :: rest)))))) =
      .ok (some a, before ++ ',' :: (behind ++ (w ++ (after ++ ']' :: rest)))) :=
    readElement_inFront (.first left) takes (.spaces beforeComma (.cons (by decide)))
  have read' : readElement s false (before ++ ',' :: behind ++ (w ++ (after ++ ']' :: rest))) =
      .ok (some b, after ++ ']' :: rest) :=
    readElement_inFront (.next beforeComma behindComma) takes' (.spaces right (.cons (by decide)))
  simp only [List.append_assoc, List.cons_append, List.nil_append] at read' ⊢
  refine readValue_token spaces rfl ?_
  simp [readTwo, read, read', close, closeList_spaces right]

end Lists

/-! ## Variants -/

section Variants

variable {variants : List (String × Variant α)} {name : String} {x : Variant α} {r : Reader α} {a : α}
  {key value : List Char}

/-- What stands under a name in a list of variants. -/
def Stands (variants : List (String × Variant α)) (name : String) (x : Variant α) : Prop :=
  (variants.find? (·.1 == name)).map Prod.snd = some x

theorem readVariantName_spells (known : Stands variants name x) (spells : Spells name.toList key) :
    TakesText (readVariantName expected variants) ('"' :: (key ++ ['"'])) x := by
  refine readText_spells spells ?_
  obtain ⟨entry, found, rfl⟩ := Option.map_eq_some_iff.1 known
  simp only [String.ofList_toList, found]

/-- A variant that carries nothing is read from its name. -/
theorem readVariant_bare (known : Stands variants name (.bare a)) (spells : Spells name.toList key) :
    TakesText (readVariant expected variants) ('"' :: (key ++ ['"'])) a := by
  intro sp rest spaces ends
  have named : readVariantName expected variants ([] ++ ('"' :: (key ++ ['"']) ++ rest)) = .ok (.bare a, rest) :=
    readVariantName_spells known spells [] rest .nil ends
  simp only [List.nil_append, List.cons_append, List.append_assoc] at named ⊢
  rw [readVariant, dropSpace_spaces spaces rfl]
  simp only [if_true, named]

/-- What was read behind the key of a variant is the variant if the object ends behind it. -/
def closeVariant (inner : Except Fault (α × List Char)) : Except Fault (α × List Char) :=
  match inner with
  | .error f => .error f
  | .ok (a, rest) =>
    match dropSpace rest with
    | [] => .error (.here .endInObject [])
    | d :: after => if d = '\x7d' then .ok (a, after) else .error (.here .noValue (d :: after))

theorem closeVariant_eq_ok {inner : Except Fault (α × List Char)} (h : closeVariant inner = .ok (a, rest)) :
    ∃ rest', inner = .ok (a, rest') := by
  match inner with
  | .error f => cases h
  | .ok (a', rest') =>
    simp only [closeVariant] at h
    split at h
    · cases h
    · split at h
      · cases h
        exact ⟨rest', rfl⟩
      · cases h

/-- Behind the key of an object stands the value of the variant with this name. -/
theorem readVariant_key {before after : List Char} (known : Stands variants name (.carrying r)) (spaces : Spaces sp)
    (left : Spaces before) (spells : Spells name.toList key) (right : Spaces after) :
    readVariant expected variants (sp ++ '\x7b' :: (before ++ '"' :: (key ++ '"' :: (after ++ ':' :: rest)))) =
      closeVariant (r rest) := by
  have ends : Ends (after ++ ':' :: rest) := .spaces right (.cons (by decide))
  have named : readVariantName expected variants (before ++ ('"' :: (key ++ ['"']) ++ (after ++ ':' :: rest))) =
      .ok (.carrying r, after ++ ':' :: rest) := readVariantName_spells known spells before _ left ends
  simp only [List.cons_append, List.append_assoc, List.nil_append] at named
  have first : nextKey true (before ++ '"' :: (key ++ '"' :: (after ++ ':' :: rest))) = .ok (some _) :=
    nextKey_inFront (.first left)
  rw [readVariant, dropSpace_spaces spaces rfl]
  simp only [readVariantKey, first, named, readColon_spaces right]
  rfl

theorem AreMembers.single (h : AreMembers [(name, value)] cs) : IsMember name value cs := by
  cases h with
  | last member => exact member
  | more _ _ _ others => cases others

/-- An object whose only key is the name of a variant is read as the variant with the value that stands there. -/
theorem readVariant_isObject (text : IsObject [(name, value)] cs) (known : Stands variants name (.carrying r))
    (takes : TakesText r value a) : TakesText (readVariant expected variants) cs a := by
  intro sp rest spaces _
  cases text with
  | members left members right =>
    obtain ⟨key, before, behind, spells, beforeColon, behindColon, rfl⟩ := members.single
    simp only [List.cons_append, List.append_assoc, List.nil_append]
    rw [readVariant_key known spaces left spells beforeColon,
      takes behind _ behindColon (.spaces right (.cons (by decide))), closeVariant, dropSpace_spaces right rfl]
    rfl

/-- Whatever an object with the name of a variant as its only key is read as, it is a value of that variant. -/
theorem exists_of_readVariant (text : IsObject [(name, value)] cs) (known : Stands variants name (.carrying r))
    (h : readVariant expected variants cs = .ok (a, rest)) : ∃ inner rest', r inner = .ok (a, rest') := by
  cases text with
  | members left members right =>
    obtain ⟨key, before, behind, spells, beforeColon, -, rfl⟩ := members.single
    simp only [List.cons_append, List.append_assoc] at h
    rw [← List.nil_append ('\x7b' :: _), readVariant_key known .nil left spells beforeColon] at h
    exact ⟨_, closeVariant_eq_ok h⟩

end Variants

end StatementPool.Json
