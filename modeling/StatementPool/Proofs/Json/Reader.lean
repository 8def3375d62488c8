import StatementPool.Json.Reader
import StatementPool.Proofs.Json.Skip
import StatementPool.Proofs.Json.Writer
/-!
# Reading values and objects

What a typed reader takes of the texts that the grammar describes: the numeral of a word (`readWord_ofNat`), a string
between quotes (`readText_spells`) and an object whose members change a state one after the other
(`Schema.read_isObject`). A document is such a text with spaces around it (`parse_document`). All of them absorb the
spaces in front and leave what follows.
-/

namespace StatementPool.Json

variable {sp rest : List Char} {c : Char}

/-- A reader takes a text, whatever spaces stand in front of it and whatever follows. -/
def TakesText {α : Type} (r : Reader α) (cs : List Char) (a : α) : Prop :=
  ∀ sp rest, Spaces sp → Ends rest → r (sp ++ (cs ++ rest)) = .ok (a, rest)

theorem TakesText.map {α β : Type} {r : Reader α} {cs : List Char} {a : α} (f : α → β) (h : TakesText r cs a) :
    TakesText (fun cs => (r cs).map fun p => (f p.1, p.2)) cs (f a) := by
  intro sp rest spaces ends
  simp only [h sp rest spaces ends, Except.map]

/-! ## Scalars -/

section Scalars

variable {α : Type} {expected : String}

theorem readValue_token {accept : Char → List Char → Option (Except Fault (α × List Char))}
    {result : Except Fault (α × List Char)} (spaces : Spaces sp) (token : isSpace c = false)
    (accepted : accept c rest = some result) : readValue expected accept (sp ++ c :: rest) = result := by
  simp [readValue, dropSpace_spaces spaces token, accepted]

/-- A string between quotes is read as what it spells. -/
theorem readText_spells {meaning : String → Except Cause α} {a : α} {s cs : List Char} (spells : Spells s cs)
    (means : meaning (String.ofList s) = .ok a) : TakesText (readText expected meaning) ('"' :: (cs ++ ['"'])) a := by
  intro sp rest spaces _
  refine readValue_token spaces rfl ?_
  simp [readString_spells spells, means]

/-- A string that is written is read back, and then has its meaning. -/
theorem readText_writeString {meaning : String → Except Cause α} {a : α} {s : String} (means : meaning s = .ok a) :
    TakesText (readText expected meaning) (writeString s) a :=
  readText_spells (spells_escape s.toList) (by rw [String.ofList_toList, means])

theorem readNumeric_ofNat {meaning : Number → Except Cause α} {a : α} {n : Nat} (fits : n ≤ maxWord)
    (means : meaning (.unsigned n) = .ok a) : TakesText (readNumeric expected meaning) (Numeral.ofNat n) a := by
  intro sp rest spaces ends
  have read := readNumber_ofNat fits ends
  obtain ⟨d, tail, hds, digit, -⟩ := AreSomeDigits.cases ⟨Numeral.ofNat_ne_nil n, Numeral.areDigits_ofNat n⟩
  rw [hds, List.cons_append] at read ⊢
  refine readValue_token spaces (isSpace_digit digit) ?_
  simp [Numeral.ne_of_isDigit digit (show Numeral.isDigit '-' = false from rfl), digit, read, means]

/-- The numeral of a number in range is read back. -/
theorem readRange_ofNat {lo hi : Int} {n : Nat} (fits : n ≤ maxWord) (lower : lo ≤ n) (upper : n ≤ hi) :
    TakesText (readRange expected lo hi) (Numeral.ofNat n) ⟨n, lower, upper⟩ := by
  refine readNumeric_ofNat fits ?_
  simp only [Number.toRange, Ranged.ofInt?_eq_some.2 (show (⟨n, lower, upper⟩ : Ranged lo hi).val = n from rfl)]

/-- The numeral of an integer in range is read back, with its sign. -/
theorem readRange_ofInt {lo hi : Int} (x : Ranged lo hi) (lower : -9223372036854775808 ≤ x.val)
    (upper : x.val ≤ maxWord) : TakesText (readRange expected lo hi) (Numeral.ofInt x.val) x := by
  obtain ⟨i, lo_le, le_hi⟩ := x
  cases i with
  | ofNat n => exact readRange_ofNat (by simpa using upper) lo_le le_hi
  | negSucc n =>
    intro sp rest spaces ends
    have read : readNumber false (Numeral.ofNat (n + 1) ++ rest) = .ok (.negative (Int.negSucc n), rest) :=
      readNumber_opposite (by omega) (by simp only at lower; omega) ends
    have inRange : Ranged.ofInt? lo hi (Int.negSucc n) = some ⟨Int.negSucc n, lo_le, le_hi⟩ :=
      Ranged.ofInt?_eq_some.2 rfl
    refine readValue_token spaces rfl ?_
    simp [read, Number.toRange, inRange]

theorem readNull_null : TakesText readNull "null".toList () := fun _ _ spaces _ => readValue_token spaces rfl rfl

theorem readBool_true : TakesText readBool "true".toList true := fun _ _ spaces _ => readValue_token spaces rfl rfl

theorem readBool_false : TakesText readBool "false".toList false := fun _ _ spaces _ => readValue_token spaces rfl rfl

/-- The numeral of a word is read back, by way of the range that the words cover. -/
theorem readWord_ofNat {hi : Int} {n : Nat} {a : α} (word : Nat → α) (upper : n ≤ hi) (small : hi ≤ maxWord)
    (same : word n = a) :
    TakesText (fun cs => (readRange expected 0 hi cs).map fun p => (word p.1.val.toNat, p.2)) (Numeral.ofNat n) a := by
  subst same
  have fits : n ≤ maxWord := by omega
  exact (readRange_ofNat fits (Int.natCast_nonneg n) upper).map fun x => word x.val.toNat

theorem readWord64_ofNat (n : UInt64) : TakesText (readWord64 expected) (Numeral.ofNat n.toNat) n := by
  have upper : (n.toNat : Int) ≤ 18446744073709551615 := by have := n.toNat_lt; omega
  exact readWord_ofNat UInt64.ofNat upper (by decide) UInt64.ofNat_toNat

theorem readWord32_ofNat (n : UInt32) : TakesText readWord32 (Numeral.ofNat n.toNat) n := by
  have upper : (n.toNat : Int) ≤ 4294967295 := by have := n.toNat_lt; omega
  exact readWord_ofNat UInt32.ofNat upper (by decide) UInt32.ofNat_toNat

theorem readByte_ofNat (n : UInt8) : TakesText readByte (Numeral.ofNat n.toNat) n := by
  have upper : (n.toNat : Int) ≤ 255 := by have := n.toNat_lt; omega
  exact readWord_ofNat UInt8.ofNat upper (by decide) UInt8.ofNat_toNat

end Scalars

/-! ## Members -/

section Members

variable {σ : Type} {member : σ → String → Member σ} {state state' : σ} {name : String} {value cs : List Char}

/-- What a member does to the state: its value is read, or it means nothing and its value is any. -/
inductive TakesMember (member : σ → String → Member σ) : σ → String × List Char → σ → Prop where
  | known {state state' : σ} {name : String} {value : List Char} {r : Reader σ} (known : member state name = .known r)
    (takes : TakesText r value state') : TakesMember member state (name, value) state'
  | unknown {state : σ} {name : String} {value : List Char} (unknown : member state name = .unknown)
    (derives : Derives .value value) : TakesMember member state (name, value) state

/-- What members do to the state, one after the other. -/
inductive TakesMembers (member : σ → String → Member σ) : σ → MemberTexts → σ → Prop where
  | nil {state : σ} : TakesMembers member state [] state
  | cons {state state' state'' : σ} {m : String × List Char} {ms : MemberTexts}
    (head : TakesMember member state m state') (tail : TakesMembers member state' ms state'') :
    TakesMembers member state (m :: ms) state''

theorem readColon_spaces (spaces : Spaces sp) : readColon (sp ++ ':' :: rest) = .ok rest := by
  simp [readColon, dropSpace_spaces spaces, isSpace]

theorem nextKey_close (first : Bool) (spaces : Spaces sp) : nextKey first (sp ++ '\x7d' :: rest) = .ok none := by
  simp [nextKey, dropSpace_spaces spaces, isSpace]

/-- What stands in front of a member: spaces, with a comma between them unless it is the first member. -/
inductive InFront : Bool → List Char → Prop where
  | first {sp : List Char} (spaces : Spaces sp) : InFront true sp
  | next {before after : List Char} (left : Spaces before) (right : Spaces after) :
    InFront false (before ++ ',' :: after)

theorem nextKey_inFront {first : Bool} {front : List Char} (h : InFront first front) :
    nextKey first (front ++ '"' :: rest) = .ok (some rest) := by
  cases h with
  | first spaces => simp [nextKey, dropSpace_spaces spaces, isSpace]
  | next left right =>
    simp [nextKey, dropSpace_spaces left, dropSpace_spaces right, isSpace]

theorem readMembers_close (first : Bool) (spaces : Spaces sp) :
    readMembers member state first (sp ++ '\x7d' :: rest) = .ok (state, '\x7d' :: rest) := by
  rw [readMembers, nextKey_close first spaces]
  simp [dropSpace_spaces spaces, isSpace]

/-- One member is read. -/
theorem readMembers_member {first : Bool} {front : List Char} (inFront : InFront first front)
    (text : IsMember name value cs) (takes : TakesMember member state (name, value) state') (ends : Ends rest) :
    readMembers member state first (front ++ (cs ++ rest)) = readMembers member state' false rest := by
  obtain ⟨spelled, before, after, spells, left, right, rfl⟩ := text
  simp only [List.append_assoc, List.cons_append]
  have shorter : rest.length <
      (front ++ '"' :: (spelled ++ '"' :: (before ++ ':' :: (after ++ (value ++ rest))))).length := by
    simp only [List.length_append, List.length_cons]
    omega
  rw [readMembers, nextKey_inFront inFront]
  simp only [readString_spells spells, String.ofList_toList, readColon_spaces left]
  cases takes with
  | known known takes => simp only [known, takes _ _ right ends, dif_pos shorter]
  | unknown unknown derives =>
    simp only [unknown, skipValue_derives derives right ends, Except.map, dif_pos shorter]

/-- All members of a text are read, up to the closing bracket. -/
theorem readMembers_areMembers {ms : MemberTexts} {after front : List Char} {first : Bool} (text : AreMembers ms cs)
    (takes : TakesMembers member state ms state') (inFront : InFront first front) (right : Spaces after) :
    readMembers member state first (front ++ (cs ++ (after ++ '\x7d' :: rest))) = .ok (state', '\x7d' :: rest) := by
  induction text generalizing state first front with
  | last text =>
    obtain _ | ⟨head, tail⟩ := takes
    cases tail
    rw [readMembers_member inFront text head (.spaces right (.cons (by decide))), readMembers_close false right]
  | more text left right' _ ih =>
    obtain _ | ⟨head, tail⟩ := takes
    simp only [List.append_assoc, List.cons_append]
    rw [readMembers_member inFront text head (.spaces left (.cons (by decide)))]
    have others := ih tail (.next left right')
    simpa only [List.append_assoc, List.cons_append] using others

end Members

/-! ## Objects and documents -/

section Objects

variable {σ α : Type} {s : Schema σ α} {state : σ} {ms : MemberTexts} {cs : List Char} {a : α}

theorem closeObject_bracket : closeObject ('\x7d' :: rest) = (rest, none) := by
  have token : dropSpace ([] ++ '\x7d' :: rest) = '\x7d' :: rest := dropSpace_spaces .nil rfl
  simp only [List.nil_append] at token
  simp [closeObject, token]

/-- An object is read as what its members make of the state in the end. -/
theorem Schema.read_isObject (text : IsObject ms cs) (takes : TakesMembers s.member s.start ms state)
    (finishes : s.finish state = .ok a) : TakesText s.read cs a := by
  intro sp rest spaces _
  obtain ⟨inner, rfl, read⟩ : ∃ inner, cs = '\x7b' :: inner ∧
      readMembers s.member s.start true (inner ++ rest) = .ok (state, '\x7d' :: rest) := by
    cases text with
    | empty inside =>
      cases takes
      refine ⟨_, rfl, ?_⟩
      rw [List.append_assoc]
      exact readMembers_close true inside
    | members left members right =>
      refine ⟨_, rfl, ?_⟩
      simp only [List.append_assoc]
      exact readMembers_areMembers members takes (.first left) right
  refine readValue_token spaces rfl ?_
  simp [read, finishes, close, closeObject_bracket]

/-- A text is read as a document, with spaces around it. -/
theorem parse_document {r : Reader α} {before after : List Char} (takes : TakesText r cs a) (left : Spaces before)
    (right : Spaces after) : parse r (String.ofList (before ++ (cs ++ after))) = .ok a := by
  have ends : Ends after := List.append_nil after ▸ Ends.spaces right .nil
  simp [parse, takes before after left ends, dropSpace_all right]

/-- What is written is read back as a document. -/
theorem parse_written {r : Reader α} (takes : TakesText r cs a) : parse r (String.ofList cs) = .ok a := by
  have read := parse_document takes .nil .nil
  rwa [List.append_nil, List.nil_append] at read

/-- A document that is read begins with a value that is. -/
theorem exists_of_parse {r : Reader α} {text : String} (h : parse r text = .ok a) :
    ∃ rest, r text.toList = .ok (a, rest) := by
  simp only [parse] at h
  split at h
  · cases h
  · rename_i b rest read
    split at h
    · cases h
      exact ⟨rest, read⟩
    · cases h

end Objects

end StatementPool.Json
