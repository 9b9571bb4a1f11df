import ClauseTemplates.Entry.Table

namespace ClauseTemplates

mutual

/-- The entries that the variables of a node request. -/
def Node.keys : Node → List EntryKey
  | .variable v =>
    if v.identifiedBy.isSome then [] else v.type.toList.map fun type => ⟨type, v.format⟩
  | .enumVariable _ => []
  | .formula _ => []
  | .conditional _ _ whenTrue whenFalse => Node.keysAll whenTrue ++ Node.keysAll whenFalse
  | .optional _ _ whenSome whenNone => Node.keysAll whenSome ++ Node.keysAll whenNone
  | .within _ _ children => Node.keysAll children
  | .list _ _ _ children => Node.keysAll children
  | .join _ _ _ children => Node.keysAll children
  | .clause _ _ _ _ children => Node.keysAll children
  | .contract _ children => Node.keysAll children
  | .leaf _ => []
  | .markup _ children => Node.keysAll children

def Node.keysAll : List Node → List EntryKey
  | [] => []
  | n :: rest => n.keys ++ Node.keysAll rest

end

end ClauseTemplates
