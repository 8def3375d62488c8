import StatementPool.Number.Layout
/-!
# Templates

A template says how one value is laid out: the fill character, the alignment, a forced sign,
leading zeros, the least width and a precision. Numbers stand to the right by default and put
leading zeros after their sign; texts stand to the left and ignore sign and zeros.
-/

namespace StatementPool

/-- Where a value stands within its width. -/
inductive Align where
  | left
  | center
  | right

structure Template where
  fill : Char
  align : Option Align
  /-- Whether a number that is not negative shows a plus sign. -/
  plus : Bool
  /-- Whether a number is filled with zeros behind its sign. -/
  zero : Bool
  width : Nat
  precision : Option Nat

namespace Template

/-- The layout that leaves everything to the value. -/
def bare : Template := ⟨' ', none, false, false, 0, none⟩

/-! ## Reading a template -/

def alignOf? : Char → Option Align
  | '<' => some .left
  | '^' => some .center
  | '>' => some .right
  | _ => none

/-- Take an alignment, with a fill character in front of it if there is one. -/
def readAlign (t : Template) : List Char → Template × List Char
  | [] => (t, [])
  | [a] => match alignOf? a with
    | some x => ({ t with align := some x }, [])
    | none => (t, [a])
  | c :: a :: rest => match alignOf? a with
    | some x => ({ t with fill := c, align := some x }, rest)
    | none => match alignOf? c with
      | some x => ({ t with align := some x }, a :: rest)
      | none => (t, c :: a :: rest)

/-- Take the flags for a sign and for leading zeros. -/
def readFlags (t : Template) (cs : List Char) : Template × List Char :=
  let (t, cs) := match cs with
    | '+' :: rest => ({ t with plus := true }, rest)
    | _ => (t, cs)
  match cs with
  | '0' :: rest => ({ t with zero := true }, rest)
  | _ => (t, cs)

def readWidth (t : Template) (cs : List Char) : Template × List Char :=
  ({ t with width := Numeral.toNat (cs.takeWhile Numeral.isDigit) }, cs.dropWhile Numeral.isDigit)

/-- Take a precision behind a point, and nothing else. -/
def readPrecision (t : Template) : List Char → Option Template
  | [] => some t
  | '.' :: ds =>
    if ds.isEmpty || !ds.all Numeral.isDigit then none
    else some { t with precision := some (Numeral.toNat ds) }
  | _ => none

/-- The template that stands between braces, its parts behind a colon. -/
def ofText? (s : String) : Option Template :=
  match s.toList with
  | '\x7b' :: rest =>
    match rest.reverse with
    | '\x7d' :: inner =>
      match inner.reverse with
      | [] => some bare
      | ':' :: cs =>
        let (t, cs) := readAlign bare cs
        let (t, cs) := readFlags t cs
        let (t, cs) := readWidth t cs
        readPrecision t cs
      | _ => none
    | _ => none
  | _ => none

/-! ## Laying out a value -/

/-- Fill a body up to the width, standing where the template says or else at `side`. -/
def pad (t : Template) (side : Align) (body : List Char) : List Char :=
  let gap := t.width - body.length
  let (before, after) := match t.align.getD side with
    | .left => (0, gap)
    | .center => (gap / 2, gap - gap / 2)
    | .right => (gap, 0)
  List.replicate before t.fill ++ body ++ List.replicate after t.fill

/-- Lay out a number from its sign and its magnitude. -/
def signed (t : Template) (sign : List Char) (body : List Char) : List Char :=
  if t.zero then sign ++ List.replicate (t.width - sign.length - body.length) '0' ++ body
  else t.pad .right (sign ++ body)

def sign (t : Template) (negative : Bool) : List Char :=
  if negative then ['-'] else if t.plus then ['+'] else []

/-- Lay out an integer; the precision means nothing to it. -/
def int (t : Template) (i : Int) : String :=
  String.ofList (t.signed (t.sign (i < 0)) (Numeral.ofNat i.natAbs))

/-- Lay out a binary number, with the places that the precision asks for. -/
def float (t : Template) (f : Format) (x : Unpacked) : String :=
  String.ofList <| match x with
    | .nan => t.signed [] ['N', 'a', 'N']
    | .infinite s => t.signed (t.sign s) ['i', 'n', 'f']
    | .finite s m e =>
      t.signed (t.sign s) (match t.precision with
        | some places => fixedPlaces places m e
        | none => NumberLayout.plain.magnitude f m e)

/-- Lay out a text, cut to the precision. -/
def text (t : Template) (s : String) : String :=
  String.ofList (t.pad .left (match t.precision with
    | some n => s.toList.take n
    | none => s.toList))

end Template

end StatementPool
