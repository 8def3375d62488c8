import StatementPool.Options.Json
import StatementPool.Proofs.Json.Reader
/-!
# Options survive JSON

Reading options goes member by member: a field that was not given yet takes its value, and any other member leaves the
draft as it is (`Draft.Becomes`). So an object with some of the fields, in any order and among members that mean
nothing, reads as the options with the given and the standard values, or as what is wrong with them
(`parse_becomes`). `parse_json` says so of the text that options are written as, and of all those objects.
-/

namespace StatementPool.Options

open Json (Spaces Spells IsObject MemberTexts Derives valuesOf TakesText TakesMember TakesMembers)

/-! ## Fields -/

/-- The text of a number is its numeral: no sign, no fraction and no exponent. -/
def IsNumeral (n : Nat) (cs : List Char) : Prop := cs = Numeral.ofNat n

/-- The text of a string stands between quotes and may spell it in any way. -/
def IsQuoted (s : String) (cs : List Char) : Prop := ∃ key, Spells s.toList key ∧ cs = '"' :: (key ++ ['"'])

/-- A field was `x`, the texts of the values that its members have are `vs`, and then it is `y`: there is one such
member at most, and only if the field had no value. -/
inductive Given {α : Type} (IsText : α → List Char → Prop) : Option α → List (List Char) → Option α → Prop where
  | kept {x : Option α} : Given IsText x [] x
  | taken {a : α} {v : List Char} (text : IsText a v) : Given IsText none [v] (some a)

theorem Given.cons {α : Type} {IsText : α → List Char → Prop} {x y : Option α} {v : List Char} {vs : List (List Char)}
    (h : Given IsText x (v :: vs) y) : ∃ a, x = none ∧ IsText a v ∧ y = some a ∧ vs = [] := by
  cases h with
  | taken text => exact ⟨_, rfl, text, rfl, rfl⟩

/-! ## Drafts -/

def fieldNames : List String := ["max_threads", "message_type", "thread_name"]

/-- The members of an object make the draft `d` of the draft `c`: every field is given once at most, by a member with
its name, and the other members have any values. -/
structure Draft.Becomes (c : Draft) (ms : MemberTexts) (d : Draft) : Prop where
  threads : Given (fun n => IsNumeral n.toNat) c.maxThreads (valuesOf "max_threads" ms) d.maxThreads
  type : Given (fun n => IsNumeral n.toNat) c.messageType (valuesOf "message_type" ms) d.messageType
  name : Given IsQuoted c.threadName (valuesOf "thread_name" ms) d.threadName
  others : ∀ m ∈ ms, m.1 ∉ fieldNames → Derives .value m.2

section Reading

variable {c d : Draft} {ms : MemberTexts} {name : String} {v : List Char}

theorem takes_threads {n : UInt64} (absent : c.maxThreads = none) (text : IsNumeral n.toNat v) :
    TakesMember member c ("max_threads", v) { c with maxThreads := some n } := by
  subst text
  have known : member c "max_threads" =
      .known fun cs => (readThreads cs).map fun p => ({ c with maxThreads := some p.1 }, p.2) := by
    simp [member, absent]
  exact .known known ((Json.readWord64_ofNat n).map fun n => { c with maxThreads := some n })

theorem takes_type {n : UInt32} (absent : c.messageType = none) (text : IsNumeral n.toNat v) :
    TakesMember member c ("message_type", v) { c with messageType := some n } := by
  subst text
  have known : member c "message_type" =
      .known fun cs => (readMessageType cs).map fun p => ({ c with messageType := some p.1 }, p.2) := by
    simp [member, absent]
  exact .known known ((Json.readWord32_ofNat n).map fun n => { c with messageType := some n })

theorem takes_name {s : String} (absent : c.threadName = none) (text : IsQuoted s v) :
    TakesMember member c ("thread_name", v) { c with threadName := some s } := by
  obtain ⟨key, spells, rfl⟩ := text
  have known : member c "thread_name" =
      .known fun cs => (readName cs).map fun p => ({ c with threadName := some p.1 }, p.2) := by
    simp [member, absent]
  have read : TakesText readName ('"' :: (key ++ ['"'])) s :=
    Json.readText_spells spells (by rw [String.ofList_toList])
  exact .known known (read.map fun s => { c with threadName := some s })

theorem valuesOf_same : valuesOf name ((name, v) :: ms) = v :: valuesOf name ms := by simp [valuesOf]

theorem valuesOf_other {other : String} (h : name ≠ other) : valuesOf other ((name, v) :: ms) = valuesOf other ms := by
  simp [valuesOf, h]

/-- The first member is taken, and the others make the same draft of what it leaves. -/
theorem Draft.Becomes.cons (h : c.Becomes ((name, v) :: ms) d) :
    ∃ c', TakesMember member c (name, v) c' ∧ c'.Becomes ms d := by
  obtain ⟨threads, type, text, others⟩ := h
  have rest : ∀ m ∈ ms, m.1 ∉ fieldNames → Derives .value m.2 := fun m hm => others m (List.mem_cons_of_mem _ hm)
  by_cases isThreads : name = "max_threads"
  · subst isThreads
    rw [valuesOf_same] at threads
    rw [valuesOf_other (by decide)] at type text
    obtain ⟨n, absent, isText, given, noMore⟩ := threads.cons
    exact ⟨_, takes_threads absent isText, ⟨by rw [noMore, given]; exact .kept, type, text, rest⟩⟩
  by_cases isType : name = "message_type"
  · subst isType
    rw [valuesOf_same] at type
    rw [valuesOf_other (by decide)] at threads text
    obtain ⟨n, absent, isText, given, noMore⟩ := type.cons
    exact ⟨_, takes_type absent isText, ⟨threads, by rw [noMore, given]; exact .kept, text, rest⟩⟩
  by_cases isName : name = "thread_name"
  · subst isName
    rw [valuesOf_same] at text
    rw [valuesOf_other (by decide)] at threads type
    obtain ⟨s, absent, isText, given, noMore⟩ := text.cons
    exact ⟨_, takes_name absent isText, ⟨threads, type, by rw [noMore, given]; exact .kept, rest⟩⟩
  · rw [valuesOf_other isThreads] at threads
    rw [valuesOf_other isType] at type
    rw [valuesOf_other isName] at text
    have derives := others (name, v) List.mem_cons_self (by simp [fieldNames, isThreads, isType, isName])
    exact ⟨c, .unknown (by simp [member, isThreads, isType, isName]) derives, ⟨threads, type, text, rest⟩⟩

/-- The reader makes of a draft what the members make of it. -/
theorem Draft.Becomes.takes (h : c.Becomes ms d) : TakesMembers member c ms d := by
  induction ms generalizing c with
  | nil =>
    obtain ⟨threads, type, text, -⟩ := h
    obtain rfl : c = d := by
      cases c
      cases d
      cases threads
      cases type
      cases text
      rfl
    exact .nil
  | cons m ms ih =>
    obtain ⟨c', head, tail⟩ := h.cons
    exact .cons head (ih tail)

/-- An object with spaces around it is read as the options of its members, or as what is wrong with them. -/
theorem parse_becomes {before body after : List Char} (left : Spaces before) (object : IsObject ms body)
    (right : Spaces after) (h : Draft.empty.Becomes ms d) :
    parse (String.ofList (before ++ (body ++ after))) = d.options.validate.map fun _ => d.options := by
  have read := Json.parse_document (Json.Schema.read_isObject (s := schema) object h.takes rfl) left right
  rw [parse, read]
  rfl

end Reading

/-! ## Options that are written -/

/-- What options are written as gives every field once. -/
theorem becomes_json (o : Options) :
    Draft.empty.Becomes
      [("max_threads", Numeral.ofNat o.maxThreads.toNat), ("message_type", Numeral.ofNat o.messageType.toNat),
        ("thread_name", Json.writeString o.threadName)]
      ⟨some o.maxThreads, some o.messageType, some o.threadName⟩ where
  threads := .taken rfl
  type := .taken rfl
  name := .taken ⟨_, Json.spells_escape _, rfl⟩
  others m hm unknown := by
    simp only [List.mem_cons, List.not_mem_nil, or_false] at hm
    obtain rfl | rfl | rfl := hm <;> simp [fieldNames] at unknown

/-- Options that are written are read back if they are valid, and otherwise the answer is what is wrong with them. An
object with any of the fields in any order, each once at most, and with any other members is read as the options in
which a missing field has its standard value, and again valid options are the answer or what is wrong with them is. -/
theorem parse_json (o : Options) (d : Draft) {ms : MemberTexts} {before body after : List Char}
    (left : Spaces before) (object : IsObject ms body) (right : Spaces after) (h : Draft.empty.Becomes ms d) :
    parse o.json = (o.validate.map fun _ => o) ∧
      parse (String.ofList (before ++ (body ++ after))) = d.options.validate.map fun _ => d.options := by
  refine ⟨?_, parse_becomes left object right h⟩
  have written := parse_becomes .nil (Json.isObject_writeObject _) .nil (becomes_json o)
  rwa [List.append_nil, List.nil_append] at written

/-- An unknown member in front of one of the fields. -/
def noteMembers : MemberTexts := [("note", "[null,-1.5e3]".toList), ("max_threads", ['4'])]

theorem parse_json_of_note :
    parse standard.json = .ok standard ∧
      parse " \x7b\"note\":[null,-1.5e3],\"max_threads\":4\x7d " = .ok { standard with maxThreads := 4 } := by
  have whole : Json.IsWhole ['1'] := ⟨⟨nofun, by decide⟩, nofun⟩
  have fraction : Json.IsFraction ".5".toList := .point ⟨nofun, by decide⟩
  have exponent : Json.IsExponent ('e' :: ([] ++ ['3'])) := .mark (.inl rfl) (by decide) ⟨nofun, by decide⟩
  have number : Json.IsMagnitude "1.5e3".toList := .mk whole fraction exponent
  have null : Derives .value "null".toList := .word (by decide)
  have items : Derives (.items .list) "null,-1.5e3".toList :=
    .more (.element null) .nil .nil (.last (.element (.negative number)))
  have note : Derives .value "[null,-1.5e3]".toList := .bracket (b := .list) .nil items .nil
  have becomes : Draft.empty.Becomes noteMembers ⟨some 4, none, none⟩ := by
    refine ⟨.taken ?_, .kept, .kept, fun m hm unknown => ?_⟩
    · exact show ['4'] = Numeral.ofNat 4 by rw [Numeral.ofNat]; rfl
    · simp only [noteMembers, List.mem_cons, List.not_mem_nil, or_false] at hm
      obtain rfl | rfl := hm
      · exact note
      · exact absurd unknown (by decide)
  have spaces : Spaces [' '] := by decide
  have text : String.ofList ([' '] ++ (Json.writeObject noteMembers ++ [' '])) =
      " \x7b\"note\":[null,-1.5e3],\"max_threads\":4\x7d " := by decide
  obtain ⟨written, read⟩ :=
    parse_json standard ⟨some 4, none, none⟩ spaces (Json.isObject_writeObject noteMembers) spaces becomes
  rw [text] at read
  exact ⟨written.trans rfl, read.trans rfl⟩

end StatementPool.Options
