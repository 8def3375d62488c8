import StatementPool.Json.Skip
import StatementPool.Proofs.Number.Numeral
/-!
# The grammar of JSON texts

Which texts are values (`Derives`), which texts spell a string (`Spells`) and which texts are objects with given members
(`IsObject`) or lists with given elements (`IsList`), as relations that do not mention a reader. A string that has a
meaning has no unpaired surrogate; the strings inside a value that nobody asks for may have them. Spaces stand around
brackets, commas and colons, never in a token.
-/

namespace StatementPool.Json

/-- A text that may stand between tokens. -/
def Spaces (cs : List Char) : Prop := ∀ c ∈ cs, isSpace c = true

instance (cs : List Char) : Decidable (Spaces cs) := decidable_of_iff (cs.all isSpace = true) List.all_eq_true

theorem Spaces.nil : Spaces [] := fun _ h => nomatch h

/-! ## Strings -/

/-- A character that stands for itself in a string. -/
def IsPlain (c : Char) : Prop := c ≠ '"' ∧ c ≠ '\\' ∧ 0x20 ≤ c.toNat

/-- The characters that follow a backslash, and what they mean there. -/
def shortEscapes : List (Char × Char) :=
  [('"', '"'), ('\\', '\\'), ('/', '/'), ('b', '\x08'), ('f', '\x0c'), ('n', '\n'), ('r', '\r'), ('t', '\t')]

/-- A hexadecimal digit in lower or in upper case. -/
def IsHex (d : Nat) (c : Char) : Prop := d < 16 ∧ (c = Numeral.hexDigit d ∨ c = (Numeral.hexDigit d).toUpper)

/-- Four hexadecimal digits and their number. -/
inductive IsHex4 : Nat → List Char → Prop where
  | mk {x y z w : Nat} {a b c d : Char} (first : IsHex x a) (second : IsHex y b) (third : IsHex z c)
    (fourth : IsHex w d) : IsHex4 (((x * 16 + y) * 16 + z) * 16 + w) [a, b, c, d]

/-- The first half of a surrogate pair. -/
def IsLeading (n : Nat) : Prop := 0xD800 ≤ n ∧ n ≤ 0xDBFF

/-- The second half of a surrogate pair. -/
def IsTrailing (n : Nat) : Prop := 0xDC00 ≤ n ∧ n ≤ 0xDFFF

/-- A character and a text that spells it inside a string. -/
inductive SpellsChar : Char → List Char → Prop where
  | plain {c : Char} (plain : IsPlain c) : SpellsChar c [c]
  | short {e c : Char} (known : (e, c) ∈ shortEscapes) : SpellsChar c ['\\', e]
  | code {n : Nat} {ds : List Char} (digits : IsHex4 n ds) (leading : ¬ IsLeading n) (trailing : ¬ IsTrailing n) :
    SpellsChar (Char.ofNat n) ('\\' :: 'u' :: ds)
  | pair {n m : Nat} {ds es : List Char} (digits : IsHex4 n ds) (leading : IsLeading n) (digits' : IsHex4 m es)
    (trailing : IsTrailing m) :
    SpellsChar (Char.ofNat ((n - 0xD800) * 0x400 + (m - 0xDC00) + 0x10000))
      ('\\' :: 'u' :: (ds ++ '\\' :: 'u' :: es))

/-- A text and what spells it between two quotes. -/
inductive Spells : List Char → List Char → Prop where
  | nil : Spells [] []
  | cons {c : Char} {s cs rest : List Char} (head : SpellsChar c cs) (tail : Spells s rest) :
    Spells (c :: s) (cs ++ rest)

/-- One character of a string, or one escape, whatever it means. -/
inductive IsStringItem : List Char → Prop where
  | plain {c : Char} (plain : IsPlain c) : IsStringItem [c]
  | short {e c : Char} (known : (e, c) ∈ shortEscapes) : IsStringItem ['\\', e]
  | code {n : Nat} {ds : List Char} (digits : IsHex4 n ds) : IsStringItem ('\\' :: 'u' :: ds)

/-- What may stand between two quotes. -/
inductive IsString : List Char → Prop where
  | nil : IsString []
  | cons {cs rest : List Char} (head : IsStringItem cs) (tail : IsString rest) : IsString (cs ++ rest)

/-! ## Numbers -/

/-- Digits, one at least. -/
def AreSomeDigits (ds : List Char) : Prop := ds ≠ [] ∧ Numeral.AreDigits ds

/-- The digits before a point: no zero in front of others. -/
def IsWhole (ds : List Char) : Prop := AreSomeDigits ds ∧ (ds.head? = some '0' → ds = ['0'])

inductive IsFraction : List Char → Prop where
  | none : IsFraction []
  | point {ds : List Char} (digits : AreSomeDigits ds) : IsFraction ('.' :: ds)

inductive IsExponent : List Char → Prop where
  | none : IsExponent []
  | mark {c : Char} {sign ds : List Char} (letter : c = 'e' ∨ c = 'E') (signed : sign ∈ [[], ['+'], ['-']])
    (digits : AreSomeDigits ds) : IsExponent (c :: (sign ++ ds))

/-- A number without its sign. -/
inductive IsMagnitude : List Char → Prop where
  | mk {ds cs es : List Char} (whole : IsWhole ds) (fraction : IsFraction cs) (exponent : IsExponent es) :
    IsMagnitude (ds ++ (cs ++ es))

/-! ## Values -/

def Bracket.opening : Bracket → Char
  | .list => '['
  | .object => '\x7b'

/-- What a text may be: a value, one item inside a bracket, or all items inside a bracket that is not empty. -/
inductive Part where
  | value
  | item (b : Bracket)
  | items (b : Bracket)

/-- The texts of values and of their parts. -/
inductive Derives : Part → List Char → Prop where
  | word {cs : List Char} (known : cs ∈ ["null".toList, "true".toList, "false".toList]) : Derives .value cs
  | number {cs : List Char} (magnitude : IsMagnitude cs) : Derives .value cs
  | negative {cs : List Char} (magnitude : IsMagnitude cs) : Derives .value ('-' :: cs)
  | string {cs : List Char} (content : IsString cs) : Derives .value ('"' :: (cs ++ ['"']))
  | empty {b : Bracket} {inner : List Char} (spaces : Spaces inner) :
    Derives .value (b.opening :: (inner ++ [b.closing]))
  | bracket {b : Bracket} {before cs after : List Char} (left : Spaces before) (items : Derives (.items b) cs)
    (right : Spaces after) : Derives .value (b.opening :: (before ++ (cs ++ (after ++ [b.closing]))))
  | element {cs : List Char} (value : Derives .value cs) : Derives (.item .list) cs
  | member {key before after cs : List Char} (name : IsString key) (left : Spaces before) (right : Spaces after)
    (value : Derives .value cs) : Derives (.item .object) ('"' :: (key ++ '"' :: (before ++ ':' :: (after ++ cs))))
  | last {b : Bracket} {cs : List Char} (item : Derives (.item b) cs) : Derives (.items b) cs
  | more {b : Bracket} {cs before after rest : List Char} (item : Derives (.item b) cs) (left : Spaces before)
    (right : Spaces after) (items : Derives (.items b) rest) :
    Derives (.items b) (cs ++ (before ++ ',' :: (after ++ rest)))

/-! ## Objects with given members -/

/-- The members of an object, by name and with the texts of their values. -/
abbrev MemberTexts := List (String × List Char)

/-- The text of one member. -/
def IsMember (name : String) (value cs : List Char) : Prop :=
  ∃ key before after, Spells name.toList key ∧ Spaces before ∧ Spaces after ∧
    cs = '"' :: (key ++ '"' :: (before ++ ':' :: (after ++ value)))

/-- The text of members with commas between them. -/
inductive AreMembers : MemberTexts → List Char → Prop where
  | last {name : String} {value cs : List Char} (member : IsMember name value cs) : AreMembers [(name, value)] cs
  | more {name : String} {value cs before after rest : List Char} {ms : MemberTexts}
    (member : IsMember name value cs) (left : Spaces before) (right : Spaces after) (others : AreMembers ms rest) :
    AreMembers ((name, value) :: ms) (cs ++ (before ++ ',' :: (after ++ rest)))

/-- The text of an object with the given members, in their order. -/
inductive IsObject : MemberTexts → List Char → Prop where
  | empty {inner : List Char} (spaces : Spaces inner) : IsObject [] ('\x7b' :: (inner ++ ['\x7d']))
  | members {ms : MemberTexts} {before cs after : List Char} (left : Spaces before) (members : AreMembers ms cs)
    (right : Spaces after) : IsObject ms ('\x7b' :: (before ++ (cs ++ (after ++ ['\x7d']))))

/-- The texts of the values that members of a name have. -/
def valuesOf (name : String) (ms : MemberTexts) : List (List Char) := (ms.filter (·.1 = name)).map Prod.snd

/-! ## Lists with given elements -/

/-- The texts of elements with commas between them. -/
inductive AreElements : List (List Char) → List Char → Prop where
  | last {value : List Char} : AreElements [value] value
  | more {value before after rest : List Char} {vs : List (List Char)} (left : Spaces before) (right : Spaces after)
    (others : AreElements vs rest) : AreElements (value :: vs) (value ++ (before ++ ',' :: (after ++ rest)))

/-- The text of a list with the given texts of its elements, in their order. -/
inductive IsList : List (List Char) → List Char → Prop where
  | empty {inner : List Char} (spaces : Spaces inner) : IsList [] ('[' :: (inner ++ [']']))
  | elements {vs : List (List Char)} {before cs after : List Char} (left : Spaces before) (elements : AreElements vs cs)
    (right : Spaces after) : IsList vs ('[' :: (before ++ (cs ++ (after ++ [']']))))

/-! ## What follows a value -/

/-- No character of a number follows. -/
def Ends (rest : List Char) : Prop :=
  ∀ c, rest.head? = some c → Numeral.isDigit c = false ∧ c ≠ '.' ∧ c ≠ 'e' ∧ c ≠ 'E'

end StatementPool.Json
