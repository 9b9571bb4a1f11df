import ClauseTemplates.Expression.Grammar
import Mathlib.Data.List.Forall2

namespace ClauseTemplates.Expression

open Reading

/-- The binary operators that bind equally tight, from the loosest on. -/
inductive Tier
  | disjunction | conjunction | equality | comparison | sum | product
  deriving DecidableEq

/-- The operator that a mark stands for between operands of a tier. -/
def Tier.operator? : Tier → Mark → Option BinaryOp
  | .disjunction, .orOr => some .or
  | .conjunction, .andAnd => some .and
  | .equality, .eqEq => some .eq
  | .equality, .notEq => some .ne
  | .comparison, .lt => some .lt
  | .comparison, .le => some .le
  | .comparison, .gt => some .gt
  | .comparison, .ge => some .ge
  | .sum, .plus => some .add
  | .sum, .minus => some .sub
  | .product, .star => some .mul
  | .product, .slash => some .div
  | .product, .percent => some .rem
  | _, _ => none

/-- The kinds of phrases that expressions are built of. -/
inductive Phrase
  | whole
  | tier (t : Tier)
  | unary
  | accessed
  | atom
  deriving DecidableEq

/-- What stands between the operators of a tier. -/
def Tier.operand : Tier → Phrase
  | .disjunction => .tier .conjunction
  | .conjunction => .tier .equality
  | .equality => .tier .comparison
  | .comparison => .tier .sum
  | .sum => .tier .product
  | .product => .unary

/-- How far a tier's operators reach: less than those of the tiers around it. -/
def Tier.looseness : Tier → ℕ
  | .product => 2
  | .sum => 3
  | .comparison => 4
  | .equality => 5
  | .conjunction => 6
  | .disjunction => 7

def Phrase.looseness : Phrase → ℕ
  | .atom => 0
  | .accessed => 1
  | .unary => 1
  | .tier t => t.looseness
  | .whole => 8

theorem Tier.operand_tighter (t : Tier) : t.operand.looseness < t.looseness := by
  cases t <;> decide

/-- Tokens that are values by themselves. A number token without a finite value is none. -/
inductive Literal : Token → Json → Prop
  | number {text : List Char} {value : Json} : numberValue? text = some value →
      Literal (.number text) value
  | str (text : List Char) : Literal (.str text) (.str (String.ofList text))
  | true : Literal .trueWord (.bool true)
  | false : Literal .falseWord (.bool false)
  | null : Literal .nullWord .null

mutual

/-- The tokens of the phrases of each kind, and the expressions that these are. -/
inductive Derives : Phrase → List Token → Expression → Prop
  | plain {ts : List Token} {e : Expression} : Derives (.tier .disjunction) ts e → Derives .whole ts e
  | cond {ts us vs : List Token} {c a b : Expression} : Derives (.tier .disjunction) ts c →
      Derives .whole us a → Derives .whole vs b →
      Derives .whole (ts ++ .mark .question :: (us ++ .mark .colon :: vs)) (.cond c a b)
  | operand {t : Tier} {ts : List Token} {e : Expression} : Derives t.operand ts e → Derives (.tier t) ts e
  | operation {t : Tier} {m : Mark} {op : BinaryOp} {ts us : List Token} {lhs rhs : Expression} :
      Derives (.tier t) ts lhs → t.operator? m = some op → Derives t.operand us rhs →
      Derives (.tier t) (ts ++ .mark m :: us) (.binary op lhs rhs)
  | unsigned {ts : List Token} {e : Expression} : Derives .accessed ts e → Derives .unary ts e
  | neg {ts : List Token} {e : Expression} : Derives .unary ts e →
      Derives .unary (.mark .minus :: ts) (.neg e)
  | not {ts : List Token} {e : Expression} : Derives .unary ts e →
      Derives .unary (.mark .bang :: ts) (.not e)
  | direct {ts : List Token} {e : Expression} : Derives .atom ts e → Derives .accessed ts e
  | member {ts : List Token} {target : Expression} (name : List Char) : Derives .accessed ts target →
      Derives .accessed (ts ++ [.mark .dot, .name name]) (.member target (String.ofList name))
  | index {ts us : List Token} {target key : Expression} : Derives .accessed ts target →
      Derives .whole us key →
      Derives .accessed (ts ++ .mark .openBracket :: (us ++ [.mark .closeBracket])) (.index target key)
  | literal {t : Token} {value : Json} : Literal t value → Derives .atom [t] (.literal value)
  | ident (name : List Char) : Derives .atom [.name name] (.ident (String.ofList name))
  | nullary (function : List Char) :
      Derives .atom [.name function, .mark .openParen, .mark .closeParen]
        (.call (String.ofList function) [])
  | call {us : List Token} {arguments : List Expression} (function : List Char) :
      DerivesEach us arguments →
      Derives .atom (.name function :: .mark .openParen :: (us ++ [.mark .closeParen]))
        (.call (String.ofList function) arguments)
  | empty : Derives .atom [.mark .openBracket, .mark .closeBracket] (.array [])
  | array {us : List Token} {items : List Expression} : DerivesEach us items →
      Derives .atom (.mark .openBracket :: (us ++ [.mark .closeBracket])) (.array items)
  | trailing {us : List Token} {items : List Expression} : DerivesEach us items →
      Derives .atom (.mark .openBracket :: (us ++ [.mark .comma, .mark .closeBracket])) (.array items)
  | parenthesized {us : List Token} {e : Expression} : Derives .whole us e →
      Derives .atom (.mark .openParen :: (us ++ [.mark .closeParen])) e

/-- Expressions, at least one, with commas between them. -/
inductive DerivesEach : List Token → List Expression → Prop
  | one {ts : List Token} {e : Expression} : Derives .whole ts e → DerivesEach ts [e]
  | more {ts us : List Token} {e : Expression} {es : List Expression} : Derives .whole ts e →
      DerivesEach us es → DerivesEach (ts ++ .mark .comma :: us) (e :: es)

end

section

variable {t : Tier} {ts : List Token} {e : Expression}

/-- An operator of a tier with the operand behind it. -/
inductive Operation (t : Tier) : List Token → BinaryOp × Expression → Prop
  | mk {m : Mark} {op : BinaryOp} {us : List Token} {rhs : Expression} : t.operator? m = some op →
      Derives t.operand us rhs → Operation t (.mark m :: us) (op, rhs)

def Operation.apply (lhs : Expression) (x : BinaryOp × Expression) : Expression := .binary x.1 lhs x.2

/-- The name of a field or the key of an item behind a value. -/
inductive Accessing : List Token → Access → Prop
  | member (name : List Char) : Accessing [.mark .dot, .name name] (.member (String.ofList name))
  | index {us : List Token} {key : Expression} : Derives .whole us key →
      Accessing (.mark .openBracket :: (us ++ [.mark .closeBracket])) (.index key)

/-- A sign in front of an operand. -/
inductive Sign : List Token → (Expression → Expression) → Prop
  | neg : Sign [.mark .minus] neg
  | not : Sign [.mark .bang] not

theorem Derives.operations (h : Derives (.tier t) ts e) {texts : List (List Token)}
    {pairs : List (BinaryOp × Expression)} (hall : List.Forall₂ (Operation t) texts pairs) :
    Derives (.tier t) (ts ++ texts.flatten) (pairs.foldl Operation.apply e) := by
  induction hall generalizing ts e with
  | nil => simpa using h
  | cons hx _ ih =>
    obtain ⟨hm, hr⟩ := hx
    have hmore := ih (.operation h hm hr)
    simpa [Operation.apply] using hmore

/-- A chain of operators of one tier begins with an operand and is grouped from the left. -/
theorem Derives.chain : ∀ {ts : List Token} {e : Expression}, Derives (.tier t) ts e →
    ∃ us first texts pairs, Derives t.operand us first ∧ List.Forall₂ (Operation t) texts pairs ∧
      ts = us ++ texts.flatten ∧ e = pairs.foldl Operation.apply first
  | _, _, .operand h => ⟨_, _, [], [], h, .nil, by simp, rfl⟩
  | _, _, .operation hl hm hr => by
    obtain ⟨us, first, texts, pairs, hfirst, hall, rfl, rfl⟩ := hl.chain
    have hlast := List.Forall₂.cons (Operation.mk hm hr) .nil
    exact ⟨us, first, _, _, hfirst, List.rel_append hall hlast, by simp, by simp [Operation.apply]⟩

theorem Derives.accesses (h : Derives .accessed ts e) {texts : List (List Token)}
    {keys : List Access} (hall : List.Forall₂ Accessing texts keys) :
    Derives .accessed (ts ++ texts.flatten) (keys.foldl Access.apply e) := by
  induction hall generalizing ts e with
  | nil => simpa using h
  | cons hx _ ih =>
    cases hx with
    | member name =>
      have hmore := ih (.member name h)
      simpa [Access.apply] using hmore
    | index hk =>
      have hmore := ih (.index h hk)
      simpa [Access.apply] using hmore

theorem Derives.path : ∀ {ts : List Token} {e : Expression}, Derives .accessed ts e →
    ∃ us first texts keys, Derives .atom us first ∧ List.Forall₂ Accessing texts keys ∧
      ts = us ++ texts.flatten ∧ e = keys.foldl Access.apply first
  | _, _, .direct h => ⟨_, _, [], [], h, .nil, by simp, rfl⟩
  | _, _, .member name h => by
    obtain ⟨us, first, texts, keys, hfirst, hall, rfl, rfl⟩ := h.path
    have hlast := List.Forall₂.cons (Accessing.member name) .nil
    exact ⟨us, first, _, _, hfirst, List.rel_append hall hlast, by simp, by simp [Access.apply]⟩
  | _, _, .index h hk => by
    obtain ⟨us, first, texts, keys, hfirst, hall, rfl, rfl⟩ := h.path
    have hlast := List.Forall₂.cons (Accessing.index hk) .nil
    exact ⟨us, first, _, _, hfirst, List.rel_append hall hlast, by simp, by simp [Access.apply]⟩

theorem Derives.signs (h : Derives .accessed ts e) {texts : List (List Token)}
    {wraps : List (Expression → Expression)} (hall : List.Forall₂ Sign texts wraps) :
    Derives .unary (texts.flatten ++ ts) (wraps.foldr (fun wrap e => wrap e) e) := by
  induction hall with
  | nil => exact .unsigned h
  | cons hx _ ih =>
    cases hx with
    | neg => exact .neg ih
    | not => exact .not ih

theorem Derives.signed : ∀ {ts : List Token} {e : Expression}, Derives .unary ts e →
    ∃ us operand texts wraps, Derives .accessed us operand ∧ List.Forall₂ Sign texts wraps ∧
      ts = texts.flatten ++ us ∧ e = wraps.foldr (fun wrap e => wrap e) operand
  | _, _, .unsigned h => ⟨_, _, [], [], h, .nil, rfl, rfl⟩
  | _, _, .neg h => by
    obtain ⟨us, operand, texts, wraps, hoperand, hall, rfl, rfl⟩ := h.signed
    exact ⟨us, operand, _, _, hoperand, .cons .neg hall, rfl, rfl⟩
  | _, _, .not h => by
    obtain ⟨us, operand, texts, wraps, hoperand, hall, rfl, rfl⟩ := h.signed
    exact ⟨us, operand, _, _, hoperand, .cons .not hall, rfl, rfl⟩

theorem DerivesEach.ofList {texts : List (List Token)} {es : List Expression}
    (hall : List.Forall₂ (Derives .whole) texts es) : ∀ {ts : List Token} {e : Expression},
    Derives .whole ts e → DerivesEach (ts ++ texts.flatMap ([.mark .comma] ++ ·)) (e :: es) := by
  induction hall with
  | nil =>
    intro ts e h
    simpa using DerivesEach.one h
  | cons hx _ ih =>
    intro ts e h
    simpa using DerivesEach.more h (ih hx)

theorem DerivesEach.toList : ∀ {ts : List Token} {es : List Expression}, DerivesEach ts es →
    ∃ us first texts later, Derives .whole us first ∧ List.Forall₂ (Derives .whole) texts later ∧
      ts = us ++ texts.flatMap ([.mark .comma] ++ ·) ∧ es = first :: later
  | _, _, .one h => ⟨_, _, [], [], h, .nil, by simp, rfl⟩
  | _, _, .more h hs => by
    obtain ⟨us, first, texts, later, hfirst, hall, rfl, rfl⟩ := hs.toList
    exact ⟨_, _, us :: texts, first :: later, h, .cons hfirst hall, by simp, rfl⟩

end

end ClauseTemplates.Expression
