import ClauseTemplates.Proofs.Expression.Derivation
import ClauseTemplates.Proofs.Scan.Language

namespace ClauseTemplates.Expression

open Scan Scanner Reading

/-- The scanner of the operators of a tier. -/
def Tier.operators : Tier → TokenScanner BinaryOp
  | .disjunction => operator .orOr .or
  | .conjunction => operator .andAnd .and
  | .equality => orElse (operator .eqEq .eq) (operator .notEq .ne)
  | .comparison => choice [operator .le .le, operator .lt .lt, operator .ge .ge, operator .gt .gt]
  | .sum => orElse (operator .plus .add) (operator .minus .sub)
  | .product =>
    orElse (orElse (operator .star .mul) (operator .slash .div)) (operator .percent .rem)

/-- The scanner of the phrases of a kind, over the scanner of whole expressions inside them. -/
def Phrase.reader (expr : TokenScanner Expression) : Phrase → TokenScanner Expression
  | .whole => conditional expr
  | .tier .disjunction => disjunction expr
  | .tier .conjunction => conjunction expr
  | .tier .equality => equality expr
  | .tier .comparison => comparison expr
  | .tier .sum => sum expr
  | .tier .product => product expr
  | .unary => Reading.unary expr
  | .accessed => postfixed expr
  | .atom => Reading.atom expr

theorem reader_tier (expr : TokenScanner Expression) (t : Tier) :
    (Phrase.tier t).reader expr = leftChain (t.operand.reader expr) t.operators := by
  cases t <;> rfl

/-- What stands around the arguments of a call. -/
def arguments (expr : TokenScanner Expression) : TokenScanner (List Expression) :=
  enclosed .openParen .closeParen (separated expr (mark .comma) false false)

def elements (expr : TokenScanner Expression) : TokenScanner (List Expression) :=
  enclosed .openBracket .closeBracket (separated expr (mark .comma) false true)

section

variable {expr : TokenScanner Expression} {offset : Nat} {rest : List Token}

theorem read?_mark (m : Mark) (offset : Nat) (rest : List Token) :
    read? (mark m) ⟨offset, rest⟩ =
      match rest with
      | [] => none
      | t :: more => if t = .mark m then some ((), ⟨offset + 1, more⟩) else none := by
  rw [mark, read?_token]
  cases rest with
  | nil => rfl
  | cons t more =>
    dsimp only
    split <;> rfl

@[simp] theorem read?_mark_self (m : Mark) (offset : Nat) (more : List Token) :
    read? (mark m) ⟨offset, .mark m :: more⟩ = some ((), ⟨offset + 1, more⟩) := by
  rw [read?_mark]
  exact if_pos rfl

@[simp] theorem read?_name (offset : Nat) (text : List Char) (more : List Token) :
    read? name ⟨offset, .name text :: more⟩ = some (String.ofList text, ⟨offset + 1, more⟩) := by
  rw [name, read?_token]
  rfl

theorem read?_mark_exactly (m : Mark) (c : Cursor Token) :
    read? (mark m) c = read? (exactly [.mark m]) c := by
  obtain ⟨offset, rest⟩ := c
  rw [read?_mark]
  cases rest with
  | nil => rfl
  | cons t more =>
    by_cases ht : t = .mark m
    · subst ht
      exact (if_pos rfl).trans (read?_exactly [Token.mark m] offset more).symm
    · have hnot : ¬ [Token.mark m] <+: t :: more := fun h =>
        ht (List.cons_prefix_cons.mp h).1.symm
      exact (if_neg ht).trans (read?_exactly_none hnot).symm

/-- A tier reads the marks that are its operators. -/
theorem read?_operators (t : Tier) (offset : Nat) (rest : List Token) :
    read? t.operators ⟨offset, rest⟩ =
      match rest with
      | .mark m :: more => (t.operator? m).map fun op => (op, ⟨offset + 1, more⟩)
      | _ => none := by
  cases rest with
  | nil => cases t <;> rfl
  | cons u more =>
    cases u with
    | mark m =>
      cases t <;> cases m <;>
        simp [Tier.operators, Tier.operator?, operator, read?_choice, read?_mark]
    | _ =>
      cases t <;> simp [Tier.operators, operator, read?_choice, read?_mark]

theorem read?_enclosed (opening closing : Mark) (p : TokenScanner α) (offset : Nat)
    (rest : List Token) :
    read? (enclosed opening closing p) ⟨offset, rest⟩ =
      (read? (mark opening) ⟨offset, rest⟩).bind fun x => (read? p x.2).bind fun y =>
        (read? (mark closing) y.2).map fun z => (y.1, z.2) := by
  simp only [enclosed, read?_bind, read?_pure, Option.map_eq_bind]
  rfl

/-- The first token tells which atom it is, but for calls: a name without arguments stands alone. -/
theorem read?_atom (expr : TokenScanner Expression) (offset : Nat) (rest : List Token) :
    read? (atom expr) ⟨offset, rest⟩ =
      match rest with
      | .number text :: more =>
        (numberValue? text).map fun value => (.literal value, ⟨offset + 1, more⟩)
      | .str text :: more => some (.literal (.str (String.ofList text)), ⟨offset + 1, more⟩)
      | .trueWord :: more => some (.literal (.bool true), ⟨offset + 1, more⟩)
      | .falseWord :: more => some (.literal (.bool false), ⟨offset + 1, more⟩)
      | .nullWord :: more => some (.literal .null, ⟨offset + 1, more⟩)
      | .name function :: more =>
        ((read? (arguments expr) ⟨offset + 1, more⟩).map fun x =>
          (.call (String.ofList function) x.1, x.2)).or
            (some (.ident (String.ofList function), ⟨offset + 1, more⟩))
      | .mark .openBracket :: _ =>
        (read? (elements expr) ⟨offset, rest⟩).map fun x => (.array x.1, x.2)
      | .mark .openParen :: _ => read? (enclosed .openParen .closeParen expr) ⟨offset, rest⟩
      | _ => none := by
  have hcalls : read? (do
        let function ← name
        let arguments ← arguments expr
        pure (Expression.call function arguments)) ⟨offset, rest⟩ =
      (read? name ⟨offset, rest⟩).bind fun x =>
        (read? (arguments expr) x.2).map fun y => (Expression.call x.1 y.1, y.2) := by
    simp only [read?_bind, read?_pure, Option.map_eq_bind]
    rfl
  have harrays : read? (do pure (Expression.array (← elements expr))) ⟨offset, rest⟩ =
      (read? (elements expr) ⟨offset, rest⟩).map fun x => (Expression.array x.1, x.2) := by
    simp only [read?_bind, read?_pure, Option.map_eq_bind]
    rfl
  change read? (choice [_, do
    let function ← name
    let arguments ← arguments expr
    pure (Expression.call function arguments), _, do pure (Expression.array (← elements expr)), _]) _ = _
  simp only [read?_choice_cons, read?_choice_nil, hcalls, harrays]
  cases rest with
  | nil => simp [elements, numberLiteral, otherLiteral, read?_enclosed, name, read?_mark]
  | cons u more =>
    cases u with
    | mark m =>
      cases m <;> simp [numberLiteral, otherLiteral, read?_enclosed, elements, name, read?_mark]
    | number text =>
      cases h : numberValue? text <;>
        simp [numberLiteral, otherLiteral, read?_enclosed, elements, name, read?_mark, h, Except.toOption]
    | _ => simp [numberLiteral, otherLiteral, read?_enclosed, elements, name, read?_mark]

theorem read?_leftChain (operand : TokenScanner Expression) (op : TokenScanner BinaryOp)
    (c : Cursor Token) :
    read? (leftChain operand op) c =
      (read? operand c).bind fun x =>
        (read? (many (do pure (← op, ← operand)) 0) x.2).map fun y =>
          (y.1.foldl Operation.apply x.1, y.2) := by
  simp only [leftChain, read?_bind, read?_pure, Option.map_eq_bind]
  rfl

theorem read?_postfixed (expr : TokenScanner Expression) (c : Cursor Token) :
    read? (postfixed expr) c =
      (read? (atom expr) c).bind fun x =>
        (read? (many (access expr) 0) x.2).map fun y => (y.1.foldl Access.apply x.1, y.2) := by
  simp only [postfixed, read?_bind, read?_pure, Option.map_eq_bind]
  rfl

/-- The scanner of a sign. -/
def sign : TokenScanner (Expression → Expression) :=
  orElse (do mark .minus; pure neg) (do mark .bang; pure not)

theorem read?_unary (expr : TokenScanner Expression) (c : Cursor Token) :
    read? (unary expr) c =
      (read? (many sign 0) c).bind fun x =>
        (read? (postfixed expr) x.2).map fun y =>
          (x.1.foldr (fun wrap e => wrap e) y.1, y.2) := by
  simp only [unary, sign, read?_bind, read?_pure, Option.map_eq_bind]
  rfl

/-- The scanner of what stands behind a condition. -/
def branches (expr : TokenScanner Expression) : TokenScanner (Expression × Expression) := do
  mark .question
  let whenTrue ← expr
  mark .colon
  let whenFalse ← expr
  pure (whenTrue, whenFalse)

theorem read?_conditional (expr : TokenScanner Expression) (c : Cursor Token) :
    read? (conditional expr) c =
      (read? (disjunction expr) c).map fun x =>
        match read? (branches expr) x.2 with
        | some y => (.cond x.1 y.1.1 y.1.2, y.2)
        | none => x := by
  change read? (disjunction expr >>= fun condition => optional (branches expr) >>= fun _ => _) c = _
  rw [read?_bind, Option.map_eq_bind]
  congr 1
  funext x
  rw [read?_bind, read?_optional, Option.bind_some, Function.comp_apply]
  cases read? (branches expr) x.2 <;> rfl

end

end ClauseTemplates.Expression
