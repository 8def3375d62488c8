import StatementPool.Json.Number
/-!
# Skipping a JSON value

A value that nobody asks for is passed over by a machine with a stack of open brackets. The same
machine reads a whole document strictly: then numbers and strings are read to the end, a comma
before a closing bracket is named as such, and brackets may nest 127 deep.
-/

namespace StatementPool.Json

/-- How a value is passed over. -/
inductive Manner where
  | skip
  | whole
  deriving DecidableEq

inductive Bracket where
  | list
  | object
  deriving DecidableEq

inductive Phase where
  | value
  /-- The key of a member, its colon and then a value. -/
  | key
  /-- The end of the innermost bracket, or more in it; `after` says whether a value was read. -/
  | close (after : Bool)

/-- A phase that may hand on to another one without taking anything comes later. -/
def Phase.rank : Phase → Nat
  | .close _ => 1
  | _ => 0

/-- What is looked for inside a bracket. -/
def Bracket.item : Bracket → Phase
  | .list => .value
  | .object => .key

def Bracket.closing : Bracket → Char
  | .list => ']'
  | .object => '\x7d'

/-- The fault of a text that ends inside a bracket. -/
def Bracket.endCause : Bracket → Cause
  | .list => .endInList
  | .object => .endInObject

/-- The fault of a value that neither a comma nor the closing bracket follows. -/
def Bracket.openCause : Bracket → Cause
  | .list => .noListEnd
  | .object => .noObjectEnd

namespace Manner

def string (m : Manner) (cs : List Char) : Except Fault (List Char) :=
  match m with
  | .skip => skipString cs
  | .whole => (readString cs).map Prod.snd

def number (m : Manner) (positive : Bool) (cs : List Char) : Except Fault (List Char) :=
  match m with
  | .skip => skipNumber cs
  | .whole => (readNumber positive cs).map Prod.snd

/-- Pass over a value without brackets that begins with a given character. -/
def scalar (m : Manner) (c : Char) (cs : List Char) : Except Fault (List Char) :=
  if c = 'n' then readWord ['u', 'l', 'l'] cs
  else if c = 't' then readWord ['r', 'u', 'e'] cs
  else if c = 'f' then readWord ['a', 'l', 's', 'e'] cs
  else if c = '-' then m.number false cs
  else if Numeral.isDigit c then m.number true (c :: cs)
  else if c = '"' then m.string cs
  else .error (.next .noValue (c :: cs))

/-- What a strict reader says about the text behind a comma. -/
def afterComma (m : Manner) (b : Bracket) (cs : List Char) : Except Fault Unit :=
  match m with
  | .skip => .ok ()
  | .whole =>
    match dropSpace cs with
    | [] => .error (.here .endInValue [])
    | c :: rest =>
      if c = b.closing then .error (.next .trailingComma (c :: rest))
      else match b with
        | .list => .ok ()
        | .object => if c = '"' then .ok () else .error (.next .keyNotString (c :: rest))

/-- Whether one more bracket may be opened inside `depth` open ones. -/
def mayOpen (m : Manner) (depth : Nat) : Bool :=
  match m with
  | .skip => true
  | .whole => depth + 1 < 128

end Manner

def Bracket.ofChar? (c : Char) : Option Bracket :=
  if c = '[' then some .list else if c = '\x7b' then some .object else none

/-- Run the machine until no bracket is open. -/
def walk (m : Manner) (phase : Phase) (stack : List Bracket) (cs : List Char) :
    Except Fault (List Char) :=
  match phase with
  | .value =>
    match _hs : dropSpace cs with
    | [] => .error (.here .endInValue [])
    | c :: rest =>
      match Bracket.ofChar? c with
      | some b =>
        if m.mayOpen stack.length then walk m (.close false) (b :: stack) rest
        else .error (.next .tooDeep (c :: rest))
      | none =>
        match m.scalar c rest with
        | .error f => .error f
        | .ok rest' =>
          if _h : rest'.length < cs.length then walk m (.close true) stack rest'
          else .error (.here .noValue rest')
  | .key =>
    match _hs : dropSpace cs with
    | [] => .error (.here .endInObject [])
    | c :: rest =>
      if c = '"' then
        match m.string rest with
        | .error f => .error f
        | .ok rest' =>
          match dropSpace rest' with
          | [] => .error (.here .endInObject [])
          | d :: after =>
            if d = ':' then
              if _h : after.length < cs.length then walk m .value stack after
              else .error (.here .noColon after)
            else .error (.next .noColon (d :: after))
      else .error (.next .keyNotString (c :: rest))
  | .close after =>
    match stack with
    | [] => .ok cs
    | b :: stack =>
      match _hs : dropSpace cs with
      | [] => .error (.here b.endCause [])
      | c :: rest =>
        if c = b.closing then walk m (.close true) stack rest
        else if after then
          if c = ',' then
            match m.afterComma b rest with
            | .error f => .error f
            | .ok () => walk m b.item (b :: stack) rest
          else .error (.next b.openCause (c :: rest))
        else walk m b.item (b :: stack) (c :: rest)
termination_by (cs.length, phase.rank)
decreasing_by
  all_goals simp_wf
  · have := dropSpace_length_le cs; rw [_hs] at this; simp only [List.length_cons] at this
    exact Prod.Lex.left _ _ (by omega)
  · exact Prod.Lex.left _ _ (by assumption)
  · exact Prod.Lex.left _ _ (by assumption)
  · have := dropSpace_length_le cs; rw [_hs] at this; simp only [List.length_cons] at this
    exact Prod.Lex.left _ _ (by omega)
  · have := dropSpace_length_le cs; rw [_hs] at this; simp only [List.length_cons] at this
    exact Prod.Lex.left _ _ (by omega)
  · have := dropSpace_length_le cs; rw [_hs] at this; simp only [List.length_cons] at this
    rcases Nat.lt_or_eq_of_le this with hlt | heq
    · exact Prod.Lex.left _ _ (by simpa using hlt)
    · rw [← heq]
      exact Prod.Lex.right _ (by cases b <;> simp [Bracket.item, Phase.rank])

def skipValue (cs : List Char) : Except Fault (List Char) := walk .skip .value [] cs

/-- What is wrong with a text that should be one JSON value. -/
def defect? (s : String) : Option String :=
  match walk .whole .value [] s.toList with
  | .error f => some (f.message s.toList)
  | .ok rest => match dropSpace rest with
    | [] => none
    | rest => some ((Fault.next .trailingCharacters rest).message s.toList)

end StatementPool.Json
