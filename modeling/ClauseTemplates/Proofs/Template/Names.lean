import ClauseTemplates.Template.Node

namespace ClauseTemplates.Node

mutual

/-- The names that a node looks up in its own scope. -/
def names : Node → List String
  | .variable v => [v.name]
  | .enumVariable v => [v.name]
  | .formula _ => []
  | .conditional name _ whenTrue _ => name :: namesAll whenTrue
  | .optional name _ _ _ => [name]
  | .within name _ _ => [name]
  | .list name _ _ _ => [name]
  | .join name _ _ _ => [name]
  | .clause name _ _ _ _ => [name]
  | .contract _ children => namesAll children
  | .leaf _ => []
  | .markup _ children => namesAll children

def namesAll : List Node → List String
  | [] => []
  | n :: rest => names n ++ namesAll rest

end

mutual

/-- The names among these of blocks that open a scope of their own. -/
def blocks : Node → List String
  | .variable _ => []
  | .enumVariable _ => []
  | .formula _ => []
  | .conditional _ _ whenTrue _ => blocksAll whenTrue
  | .optional name _ _ _ => [name]
  | .within name _ _ => [name]
  | .list name _ _ _ => [name]
  | .join name _ _ _ => [name]
  | .clause name _ _ _ _ => [name]
  | .contract _ children => blocksAll children
  | .leaf _ => []
  | .markup _ children => blocksAll children

def blocksAll : List Node → List String
  | [] => []
  | n :: rest => blocks n ++ blocksAll rest

end

mutual

theorem blocks_subset : ∀ (n : Node), n.blocks ⊆ n.names
  | .variable _ => by simp [blocks]
  | .enumVariable _ => by simp [blocks]
  | .formula _ => by simp [blocks]
  | .conditional name _ whenTrue _ => by
    rw [blocks, names]
    exact List.subset_cons_of_subset name (blocksAll_subset whenTrue)
  | .optional _ _ _ _ => by simp [blocks, names]
  | .within _ _ _ => by simp [blocks, names]
  | .list _ _ _ _ => by simp [blocks, names]
  | .join _ _ _ _ => by simp [blocks, names]
  | .clause _ _ _ _ _ => by simp [blocks, names]
  | .contract _ children => by
    rw [blocks, names]
    exact blocksAll_subset children
  | .leaf _ => by simp [blocks]
  | .markup _ children => by
    rw [blocks, names]
    exact blocksAll_subset children

theorem blocksAll_subset : ∀ (ns : List Node), blocksAll ns ⊆ namesAll ns
  | [] => by simp [blocksAll]
  | n :: rest => by
    rw [blocksAll, namesAll]
    exact List.append_subset.mpr
      ⟨List.subset_append_of_subset_left _ (blocks_subset n),
        List.subset_append_of_subset_right _ (blocksAll_subset rest)⟩

end

/-- No other node of the scope names the property of a block. -/
def Exclusive (blocks names : List String) : Prop := ∀ name ∈ blocks, names.count name ≤ 1

namespace Exclusive

variable {blocks more names others : List String}

theorem left (h : Exclusive (blocks ++ more) (names ++ others)) : Exclusive blocks names := by
  intro name hname
  have hc := h name (List.mem_append_left _ hname)
  rw [List.count_append] at hc
  omega

theorem right (h : Exclusive (blocks ++ more) (names ++ others)) : Exclusive more others := by
  intro name hname
  have hc := h name (List.mem_append_right _ hname)
  rw [List.count_append] at hc
  omega

theorem not_mem_right (h : Exclusive (blocks ++ more) (names ++ others)) (hsub : blocks ⊆ names)
    {name : String} (hname : name ∈ blocks) : name ∉ others := by
  intro ho
  have hc := h name (List.mem_append_left _ hname)
  have h₁ := List.count_pos_iff.mpr (hsub hname)
  have h₂ := List.count_pos_iff.mpr ho
  rw [List.count_append] at hc
  omega

theorem not_mem_left (h : Exclusive (blocks ++ more) (names ++ others)) (hsub : more ⊆ others)
    {name : String} (hname : name ∈ more) : name ∉ names := by
  intro ho
  have hc := h name (List.mem_append_right _ hname)
  have h₁ := List.count_pos_iff.mpr (hsub hname)
  have h₂ := List.count_pos_iff.mpr ho
  rw [List.count_append] at hc
  omega

theorem tail {name : String} (h : Exclusive blocks (name :: names)) : Exclusive blocks names := by
  intro other hother
  have hc := h other hother
  rw [List.count_cons] at hc
  omega

theorem head {name : String} (h : Exclusive blocks (name :: names)) (hsub : blocks ⊆ names) :
    name ∉ blocks := by
  intro hname
  have hc := h name hname
  have hpos := List.count_pos_iff.mpr (hsub hname)
  rw [List.count_cons_self] at hc
  omega

end Exclusive

end ClauseTemplates.Node
