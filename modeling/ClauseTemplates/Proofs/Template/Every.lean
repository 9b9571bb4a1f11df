import ClauseTemplates.Template

namespace ClauseTemplates

mutual

/-- The node and all nodes inside it have a property. -/
def Node.Every (P : Node → Prop) : Node → Prop
  | .variable v => P (.variable v)
  | .enumVariable v => P (.enumVariable v)
  | .formula f => P (.formula f)
  | .conditional name condition whenTrue whenFalse =>
    P (.conditional name condition whenTrue whenFalse) ∧ Node.EveryAll P whenTrue ∧
      Node.EveryAll P whenFalse
  | .optional name type whenSome whenNone =>
    P (.optional name type whenSome whenNone) ∧ Node.EveryAll P whenSome ∧ Node.EveryAll P whenNone
  | .within name type children => P (.within name type children) ∧ Node.EveryAll P children
  | .list name kind type children => P (.list name kind type children) ∧ Node.EveryAll P children
  | .join name type separator children =>
    P (.join name type separator children) ∧ Node.EveryAll P children
  | .clause name type src condition children =>
    P (.clause name type src condition children) ∧ Node.EveryAll P children
  | .contract type children => P (.contract type children) ∧ Node.EveryAll P children
  | .leaf l => P (.leaf l)
  | .markup frame children => P (.markup frame children) ∧ Node.EveryAll P children

def Node.EveryAll (P : Node → Prop) : List Node → Prop
  | [] => True
  | n :: rest => n.Every P ∧ Node.EveryAll P rest

end

namespace Node

variable {P Q : Node → Prop}

theorem everyAll_iff {ns : List Node} : EveryAll P ns ↔ ∀ n ∈ ns, n.Every P := by
  induction ns with
  | nil => simp [EveryAll]
  | cons n ns ih => simp [EveryAll, ih]

theorem everyAll_of_mem_pair {as bs ns : List Node} (ha : EveryAll P as) (hb : EveryAll P bs)
    (h : ns ∈ [as, bs]) : EveryAll P ns := by
  have hor : ns = as ∨ ns = bs := by simpa using h
  rcases hor with rfl | rfl
  · exact ha
  · exact hb

theorem Every.children {ns : List Node} : ∀ {n : Node}, n.Every P → ns ∈ n.childLists → EveryAll P ns
  | .conditional _ _ _ _, h, hns => everyAll_of_mem_pair h.2.1 h.2.2 hns
  | .optional _ _ _ _, h, hns => everyAll_of_mem_pair h.2.1 h.2.2 hns
  | .within _ _ _, h, hns => List.mem_singleton.mp hns ▸ h.2
  | .list _ _ _ _, h, hns => List.mem_singleton.mp hns ▸ h.2
  | .join _ _ _ _, h, hns => List.mem_singleton.mp hns ▸ h.2
  | .clause _ _ _ _ _, h, hns => List.mem_singleton.mp hns ▸ h.2
  | .contract _ _, h, hns => List.mem_singleton.mp hns ▸ h.2
  | .markup _ _, h, hns => List.mem_singleton.mp hns ▸ h.2

mutual

theorem Every.mono (hPQ : ∀ n, P n → Q n) : ∀ n : Node, n.Every P → n.Every Q
  | .variable _, h => hPQ _ h
  | .enumVariable _, h => hPQ _ h
  | .formula _, h => hPQ _ h
  | .conditional _ _ whenTrue whenFalse, ⟨h, ht, hf⟩ =>
    ⟨hPQ _ h, EveryAll.mono hPQ whenTrue ht, EveryAll.mono hPQ whenFalse hf⟩
  | .optional _ _ whenSome whenNone, ⟨h, hs, hn⟩ =>
    ⟨hPQ _ h, EveryAll.mono hPQ whenSome hs, EveryAll.mono hPQ whenNone hn⟩
  | .within _ _ children, ⟨h, hc⟩ => ⟨hPQ _ h, EveryAll.mono hPQ children hc⟩
  | .list _ _ _ children, ⟨h, hc⟩ => ⟨hPQ _ h, EveryAll.mono hPQ children hc⟩
  | .join _ _ _ children, ⟨h, hc⟩ => ⟨hPQ _ h, EveryAll.mono hPQ children hc⟩
  | .clause _ _ _ _ children, ⟨h, hc⟩ => ⟨hPQ _ h, EveryAll.mono hPQ children hc⟩
  | .contract _ children, ⟨h, hc⟩ => ⟨hPQ _ h, EveryAll.mono hPQ children hc⟩
  | .leaf _, h => hPQ _ h
  | .markup _ children, ⟨h, hc⟩ => ⟨hPQ _ h, EveryAll.mono hPQ children hc⟩

theorem EveryAll.mono (hPQ : ∀ n, P n → Q n) : ∀ ns : List Node, EveryAll P ns → EveryAll Q ns
  | [], _ => trivial
  | n :: rest, ⟨hn, hrest⟩ => ⟨Every.mono hPQ n hn, EveryAll.mono hPQ rest hrest⟩

end

mutual

theorem every_of_forall (hP : ∀ n, P n) : ∀ n : Node, n.Every P
  | .variable _ => hP _
  | .enumVariable _ => hP _
  | .formula _ => hP _
  | .conditional _ _ whenTrue whenFalse =>
    ⟨hP _, everyAll_of_forall hP whenTrue, everyAll_of_forall hP whenFalse⟩
  | .optional _ _ whenSome whenNone =>
    ⟨hP _, everyAll_of_forall hP whenSome, everyAll_of_forall hP whenNone⟩
  | .within _ _ children => ⟨hP _, everyAll_of_forall hP children⟩
  | .list _ _ _ children => ⟨hP _, everyAll_of_forall hP children⟩
  | .join _ _ _ children => ⟨hP _, everyAll_of_forall hP children⟩
  | .clause _ _ _ _ children => ⟨hP _, everyAll_of_forall hP children⟩
  | .contract _ children => ⟨hP _, everyAll_of_forall hP children⟩
  | .leaf _ => hP _
  | .markup _ children => ⟨hP _, everyAll_of_forall hP children⟩

theorem everyAll_of_forall (hP : ∀ n, P n) : ∀ ns : List Node, EveryAll P ns
  | [] => trivial
  | n :: rest => ⟨every_of_forall hP n, everyAll_of_forall hP rest⟩

end

end Node

end ClauseTemplates
