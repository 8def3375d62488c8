import StatementPool.Proofs.Json.Number
import StatementPool.Proofs.Json.Text
/-!
# Passing over a value

The machine that passes over a value nobody asks for takes exactly what the grammar derives (`walk_derives`), however
deep the brackets nest, and so a skipped value ends where its text ends (`skipValue_derives`).
-/

namespace StatementPool.Json

variable {b : Bracket} {stack : List Bracket} {sp cs rest : List Char} {c : Char}

/-! ## Single steps -/

theorem Bracket.isSpace_opening (b : Bracket) : isSpace b.opening = false := by cases b <;> rfl

theorem Bracket.isSpace_closing (b : Bracket) : isSpace b.closing = false := by cases b <;> rfl

theorem Bracket.ofChar?_opening (b : Bracket) : Bracket.ofChar? b.opening = some b := by cases b <;> rfl

theorem Bracket.ends_closing (b : Bracket) : Ends (b.closing :: rest) := by
  cases b <;> exact .cons (by decide)

theorem walk_open (spaces : Spaces sp) :
    walk .skip .value stack (sp ++ b.opening :: rest) = walk .skip (.close false) (b :: stack) rest := by
  rw [walk, dropSpace_spaces spaces b.isSpace_opening]
  simp [b.ofChar?_opening, Manner.mayOpen]

theorem walk_close (after : Bool) (spaces : Spaces sp) :
    walk .skip (.close after) (b :: stack) (sp ++ b.closing :: rest) = walk .skip (.close true) stack rest := by
  rw [walk, dropSpace_spaces spaces b.isSpace_closing]
  simp

theorem walk_done (after : Bool) : walk .skip (.close after) [] rest = .ok rest := by rw [walk]

theorem walk_comma (spaces : Spaces sp) :
    walk .skip (.close true) (b :: stack) (sp ++ ',' :: rest) = walk .skip b.item (b :: stack) rest := by
  have other : ',' ≠ b.closing := by cases b <;> decide
  rw [walk, dropSpace_spaces spaces rfl]
  simp [other, Manner.afterComma]

theorem walk_first (spaces : Spaces sp) (token : isSpace c = false) (other : c ≠ b.closing) :
    walk .skip (.close false) (b :: stack) (sp ++ c :: rest) = walk .skip b.item (b :: stack) (c :: rest) := by
  rw [walk, dropSpace_spaces spaces token]
  simp [other]

/-- A value without brackets is passed over as a whole. -/
theorem walk_scalar (spaces : Spaces sp) (token : isSpace c = false) (scalar : Bracket.ofChar? c = none)
    (taken : Manner.skip.scalar c (cs ++ rest) = .ok rest) :
    walk .skip .value stack (sp ++ (c :: cs ++ rest)) = walk .skip (.close true) stack rest := by
  rw [List.cons_append, walk, dropSpace_spaces spaces token]
  simp only [scalar, taken]
  rw [dif_pos]
  simp only [List.length_append, List.length_cons]
  omega

theorem walk_key {key before : List Char} (spaces : Spaces sp) (name : IsString key) (left : Spaces before) :
    walk .skip .key stack (sp ++ '"' :: (key ++ '"' :: (before ++ ':' :: rest))) = walk .skip .value stack rest := by
  rw [walk.eq_2, dropSpace_spaces spaces rfl]
  have colon : dropSpace (before ++ ':' :: rest) = ':' :: rest := dropSpace_spaces left rfl
  simp only [if_true, Manner.string, skipString_isString name, colon]
  rw [dif_pos]
  simp only [List.length_append, List.length_cons]
  omega

/-! ## Derivations -/

namespace Part

/-- Where the machine stands in front of the part. -/
def phase : Part → Phase
  | value => .value
  | item b => b.item
  | items b => b.item

/-- The bracket that the part stands in, if the part goes on to its end. -/
def inside : Part → List Bracket
  | items b => [b]
  | _ => []

end Part

theorem isSpace_digit {d : Char} (digit : Numeral.isDigit d = true) : isSpace d = false := by
  refine Bool.eq_false_iff.2 fun space => ?_
  obtain rfl | rfl | rfl | rfl := isSpace_eq_true.1 space <;> exact absurd digit (by decide)

/-- A part begins with a token that closes no bracket. -/
theorem Derives.first {p : Part} (h : Derives p cs) :
    ∃ c tail, cs = c :: tail ∧ isSpace c = false ∧ ∀ b : Bracket, c ≠ b.closing := by
  have other {c : Char} (h : c ≠ ']' ∧ c ≠ '\x7d') (b : Bracket) : c ≠ b.closing := by
    cases b
    · exact h.1
    · exact h.2
  induction h with
  | word known =>
    simp only [List.mem_cons, List.not_mem_nil, or_false] at known
    obtain rfl | rfl | rfl := known <;> exact ⟨_, _, rfl, rfl, other (by decide)⟩
  | number magnitude =>
    obtain ⟨whole, -, -⟩ := magnitude
    obtain ⟨d, tail, rfl, digit, -⟩ := whole.1.cases
    exact ⟨d, _, rfl, isSpace_digit digit, other ⟨Numeral.ne_of_isDigit digit rfl, Numeral.ne_of_isDigit digit rfl⟩⟩
  | element _ ih => exact ih
  | last _ ih => exact ih
  | more _ _ _ _ ih _ =>
    obtain ⟨c, tail, rfl, token⟩ := ih
    exact ⟨c, _, rfl, token⟩
  | @empty b _ _ => exact ⟨b.opening, _, rfl, b.isSpace_opening, other (by cases b <;> decide)⟩
  | @bracket b _ _ _ _ _ _ _ => exact ⟨b.opening, _, rfl, b.isSpace_opening, other (by cases b <;> decide)⟩
  | _ => exact ⟨_, _, rfl, rfl, other (by decide)⟩

/-- The first character of a number and the rest of it. -/
theorem scalar_magnitude (h : IsMagnitude cs) (ends : Ends rest) :
    ∃ d tail, cs = d :: tail ∧ Numeral.isDigit d = true ∧ Manner.skip.scalar d (tail ++ rest) = .ok rest := by
  have skipped := skipNumber_isMagnitude h ends
  obtain ⟨d, tail, rfl, digit⟩ : ∃ d tail, cs = d :: tail ∧ Numeral.isDigit d = true := by
    obtain ⟨whole, -, -⟩ := h
    obtain ⟨d, tail, rfl, digit, -⟩ := whole.1.cases
    exact ⟨d, _, rfl, digit⟩
  have other {c : Char} (h : Numeral.isDigit c = false) : d ≠ c := Numeral.ne_of_isDigit digit h
  refine ⟨d, tail, rfl, digit, ?_⟩
  rw [Manner.scalar, if_neg (other rfl), if_neg (other rfl), if_neg (other rfl), if_neg (other rfl), if_pos digit]
  exact skipped

/-- The machine takes a part as far as its text goes. -/
theorem walk_derives {p : Part} (h : Derives p cs) (spaces : Spaces sp) (ends : Ends rest) :
    walk .skip p.phase (p.inside ++ stack) (sp ++ (cs ++ rest)) =
      walk .skip (.close true) (p.inside ++ stack) rest := by
  -- the brackets around a part and the text behind it differ from those of the parts inside
  induction h generalizing stack sp rest with
  | word known =>
    simp only [List.mem_cons, List.not_mem_nil, or_false] at known
    obtain rfl | rfl | rfl := known <;> exact walk_scalar spaces rfl rfl rfl
  | number magnitude =>
    obtain ⟨d, tail, rfl, digit, taken⟩ := scalar_magnitude magnitude ends
    refine walk_scalar spaces (isSpace_digit digit) ?_ taken
    rw [Bracket.ofChar?, if_neg (Numeral.ne_of_isDigit digit rfl), if_neg (Numeral.ne_of_isDigit digit rfl)]
  | negative magnitude => exact walk_scalar spaces rfl rfl (skipNumber_isMagnitude magnitude ends)
  | string content =>
    refine walk_scalar spaces rfl rfl ?_
    rw [List.append_assoc]
    exact skipString_isString content
  | @empty b inner inside =>
    simp only [List.cons_append, List.append_assoc, List.nil_append]
    exact (walk_open spaces).trans (walk_close false inside)
  | @bracket b before cs after left items right ih =>
    obtain ⟨c, tail, rfl, token, other⟩ := items.first
    have inner : walk .skip b.item (b :: stack) ([] ++ (c :: tail ++ (after ++ b.closing :: rest))) =
        walk .skip (.close true) (b :: stack) (after ++ b.closing :: rest) :=
      ih .nil (.spaces right b.ends_closing)
    simp only [List.cons_append, List.append_assoc, List.nil_append] at inner ⊢
    calc walk .skip .value stack (sp ++ b.opening :: (before ++ c :: (tail ++ (after ++ b.closing :: rest))))
        = walk .skip (.close false) (b :: stack) (before ++ c :: (tail ++ (after ++ b.closing :: rest))) :=
          walk_open spaces
      _ = walk .skip b.item (b :: stack) (c :: (tail ++ (after ++ b.closing :: rest))) :=
          walk_first left token (other b)
      _ = walk .skip (.close true) (b :: stack) (after ++ b.closing :: rest) := inner
      _ = walk .skip (.close true) stack rest := walk_close true right
  | element _ ih => exact ih spaces ends
  | member name left right _ ih =>
    simp only [List.cons_append, List.append_assoc]
    exact (walk_key spaces name left).trans (ih right ends)
  | last _ ih => exact ih spaces ends
  | @more b cs before after rest' _ left right _ ih ih' =>
    simp only [List.cons_append, List.append_assoc]
    calc walk .skip b.item (b :: stack) (sp ++ (cs ++ (before ++ ',' :: (after ++ (rest' ++ rest)))))
        = walk .skip (.close true) (b :: stack) (before ++ ',' :: (after ++ (rest' ++ rest))) :=
          ih spaces (.spaces left (.cons (by decide)))
      _ = walk .skip b.item (b :: stack) (after ++ (rest' ++ rest)) := walk_comma left
      _ = walk .skip (.close true) (b :: stack) rest := ih' right ends

/-- A value that nobody asks for is passed over as far as its text goes. -/
theorem skipValue_derives (h : Derives .value cs) (spaces : Spaces sp) (ends : Ends rest) :
    skipValue (sp ++ (cs ++ rest)) = .ok rest := by
  have taken : walk .skip .value [] (sp ++ (cs ++ rest)) = walk .skip (.close true) [] rest :=
    walk_derives h spaces ends
  rw [skipValue, taken, walk_done]

end StatementPool.Json
