import ClauseTemplates.Proofs.Template.Analyzes

namespace ClauseTemplates

/-- Where markup can put a node. -/
inductive Level
  | block
  | item
  | inline
  deriving DecidableEq

/-- The level of an element that holds others, and that of what it holds. -/
def Frame.levels? : Frame → Option (Level × Level)
  | .document _ => none
  | .paragraph => some (.block, .inline)
  | .heading _ => some (.block, .inline)
  | .blockQuote => some (.block, .block)
  | .list _ _ => some (.block, .item)
  | .item => some (.item, .block)
  | .clause _ _ _ => none
  | .emph => some (.inline, .inline)
  | .strong => some (.inline, .inline)

def Leaf.level? : Leaf → Option Level
  | .codeBlock _ _ => some .block
  | .thematicBreak => some .block
  | .text _ => some .inline
  | .code _ => some .inline
  | .softbreak => some .inline
  | .linebreak => some .inline
  | .fragment _ => none
  | .formula _ _ => none

mutual

/-- The shape of what markup is read to: every node stands at a level where markup can put it. -/
def Node.At : Level → Node → Prop
  | level, .variable _ => level = .inline
  | level, .enumVariable _ => level = .inline
  | level, .formula _ => level = .inline
  | level, .conditional _ _ whenTrue whenFalse =>
    level = .inline ∧ Node.EachAt .inline whenTrue ∧ Node.EachAt .inline whenFalse
  | level, .optional _ _ whenSome whenNone =>
    level = .inline ∧ Node.EachAt .inline whenSome ∧ Node.EachAt .inline whenNone
  | level, .within _ _ children => level = .inline ∧ Node.EachAt .inline children
  | level, .list _ _ _ children => level = .block ∧ Node.EachAt .block children
  | level, .join _ _ _ children => level = .inline ∧ Node.EachAt .inline children
  | level, .clause name _ _ _ children =>
    level = .block ∧ name.toList.all Markup.isNamePart = true ∧ Node.EachAt .block children
  | _, .contract _ _ => False
  | level, .leaf l => l.level? = some level
  | level, .markup frame children =>
    ∃ inner, frame.levels? = some (level, inner) ∧ Node.EachAt inner children

def Node.EachAt : Level → List Node → Prop
  | _, [] => True
  | level, n :: rest => n.At level ∧ Node.EachAt level rest

end

namespace Node

theorem eachAt_iff {level : Level} {ns : List Node} : EachAt level ns ↔ ∀ n ∈ ns, n.At level := by
  induction ns with
  | nil => simp [EachAt]
  | cons n ns ih => simp [EachAt, ih]

end Node

namespace Markup

mutual

theorem at_named {level : Level} : ∀ (n : Node) (counts : Counts), n.At level →
    (named counts n).1.At level
  | .variable _, _, h => by rwa [named]
  | .enumVariable _, _, h => by rwa [named]
  | .formula _, _, h => by
    rw [named]
    exact h
  | .conditional name condition whenTrue whenFalse, counts, ⟨hl, ht, hf⟩ => by
    rw [named]
    exact ⟨hl, eachAt_namedAll whenTrue _ ht, eachAt_namedAll whenFalse _ hf⟩
  | .optional _ _ whenSome whenNone, counts, ⟨hl, hs, hn⟩ => by
    rw [named]
    exact ⟨hl, eachAt_namedAll whenSome _ hs, eachAt_namedAll whenNone _ hn⟩
  | .within _ _ children, counts, ⟨hl, hc⟩ => by
    rw [named]
    exact ⟨hl, eachAt_namedAll children _ hc⟩
  | .list _ _ _ children, counts, ⟨hl, hc⟩ => by
    rw [named]
    exact ⟨hl, eachAt_namedAll children _ hc⟩
  | .join _ _ _ children, counts, ⟨hl, hc⟩ => by
    rw [named]
    exact ⟨hl, eachAt_namedAll children _ hc⟩
  | .clause _ _ _ _ children, counts, ⟨hl, hn, hc⟩ => by
    rw [named]
    exact ⟨hl, hn, eachAt_namedAll children _ hc⟩
  | .contract _ _, _, h => h.elim
  | .leaf _, _, h => by rwa [named]
  | .markup _ children, counts, ⟨inner, hl, hc⟩ => by
    rw [named]
    exact ⟨inner, hl, eachAt_namedAll children _ hc⟩

theorem eachAt_namedAll {level : Level} : ∀ (ns : List Node) (counts : Counts),
    Node.EachAt level ns → Node.EachAt level (namedAll counts ns).1
  | [], _, _ => by
    rw [namedAll]
    exact trivial
  | n :: rest, counts, ⟨hn, hrest⟩ => by
    rw [namedAll]
    exact ⟨at_named n counts hn, eachAt_namedAll rest _ hrest⟩

end

end Markup

namespace Binding

variable {schema : Schema}

mutual

theorem at_binds {level : Level} : ∀ {scope : Option Target} {n m : Node}, Binds schema scope n m →
    n.At level → m.At level
  | _, _, _, .variable _ _ _ _ _, h => h
  | _, _, _, .enumerated _ _ _, h => h
  | _, _, _, .enumVariable _ _, h => h
  | _, _, _, .formula _ _, h => h
  | _, _, _, .flag _ _ _ ha hb, ⟨hl, ht, hf⟩ => ⟨hl, eachAt_bindsAll ha ht, eachAt_bindsAll hb hf⟩
  | _, _, _, .condition _ _ ha hb, ⟨hl, ht, hf⟩ => ⟨hl, eachAt_bindsAll ha ht, eachAt_bindsAll hb hf⟩
  | _, _, _, .optional _ _ _ ha hb, ⟨hl, hs, hn⟩ => ⟨hl, eachAt_bindsAll ha hs, eachAt_bindsAll hb hn⟩
  | _, _, _, .within _ _ _ ha, ⟨hl, hc⟩ => ⟨hl, eachAt_bindsAll ha hc⟩
  | _, _, _, .list _ _ _ _ ha, ⟨hl, hc⟩ => ⟨hl, eachAt_bindsAll ha hc⟩
  | _, _, _, .join _ _ _ _ ha, ⟨hl, hc⟩ => ⟨hl, eachAt_bindsAll ha hc⟩
  | _, _, _, .clause _ _ _ _ _ ha, ⟨hl, hn, hc⟩ => ⟨hl, hn, eachAt_bindsAll ha hc⟩
  | _, _, _, .leaf _ _, h => h
  | _, _, _, .markup _ ha, ⟨inner, hl, hc⟩ => ⟨inner, hl, eachAt_bindsAll ha hc⟩

theorem eachAt_bindsAll {level : Level} : ∀ {scope : Option Target} {ns ms : List Node},
    BindsAll schema scope ns ms → Node.EachAt level ns → Node.EachAt level ms
  | _, _, _, .nil _, _ => trivial
  | _, _, _, .cons hm hrest, ⟨hn, hns⟩ => ⟨at_binds hm hn, eachAt_bindsAll hrest hns⟩

end

end Binding

namespace Formulas

mutual

theorem at_analyzes {level : Level} : ∀ {n m : Node}, Analyzes n m → n.At level → m.At level
  | _, _, .variable _, h => h
  | _, _, .enumVariable _, h => h
  | _, _, .formula _, h => h
  | _, _, .conditional _ _ ha hb, ⟨hl, ht, hf⟩ => ⟨hl, eachAt_analyzesAll ha ht, eachAt_analyzesAll hb hf⟩
  | _, _, .optional _ _ ha hb, ⟨hl, hs, hn⟩ => ⟨hl, eachAt_analyzesAll ha hs, eachAt_analyzesAll hb hn⟩
  | _, _, .within _ _ ha, ⟨hl, hc⟩ => ⟨hl, eachAt_analyzesAll ha hc⟩
  | _, _, .list _ _ _ ha, ⟨hl, hc⟩ => ⟨hl, eachAt_analyzesAll ha hc⟩
  | _, _, .join _ _ _ ha, ⟨hl, hc⟩ => ⟨hl, eachAt_analyzesAll ha hc⟩
  | _, _, .clause _ _ _ _ ha, ⟨hl, hn, hc⟩ => ⟨hl, hn, eachAt_analyzesAll ha hc⟩
  | _, _, .leaf _, h => h
  | _, _, .markup _ ha, ⟨inner, hl, hc⟩ => ⟨inner, hl, eachAt_analyzesAll ha hc⟩

theorem eachAt_analyzesAll {level : Level} : ∀ {ns ms : List Node}, AnalyzesAll ns ms →
    Node.EachAt level ns → Node.EachAt level ms
  | _, _, .nil, _ => trivial
  | _, _, .cons hm hrest, ⟨hn, hns⟩ => ⟨at_analyzes hm hn, eachAt_analyzesAll hrest hns⟩

end

end Formulas

end ClauseTemplates
