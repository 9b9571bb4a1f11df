import ClauseTemplates.Template.Node

namespace ClauseTemplates

/-- A block that shows the record of a property. -/
inductive Step
  | within (name : String)
  | clause (name : String) (src : Option String)
  deriving DecidableEq

def Step.name : Step → String
  | within name => name
  | clause name _ => name

/-- Where a template shows a variable: the blocks around it, from outside, and its name. -/
structure Place where
  steps : List Step
  shown : String
  deriving DecidableEq

namespace Place

def path (p : Place) : List String := p.steps.map Step.name ++ [p.shown]

def inside (step : Step) (p : Place) : Place := ⟨step :: p.steps, p.shown⟩

@[simp] theorem path_inside (step : Step) (p : Place) : (p.inside step).path = step.name :: p.path :=
  rfl

end Place

mutual

/-- The places of the variables that are shown whatever the data: those in no branch, no item and no
clause with a condition. -/
def Node.places : Node → List Place
  | .variable v => [⟨[], v.name⟩]
  | .enumVariable v => [⟨[], v.name⟩]
  | .formula _ => []
  | .conditional _ _ _ _ => []
  | .optional _ _ _ _ => []
  | .within name _ children => (Node.placesAll children).map (Place.inside (.within name))
  | .list _ _ _ _ => []
  | .join _ _ _ _ => []
  | .clause name _ src condition children =>
    if condition.isSome then []
    else (Node.placesAll children).map (Place.inside (.clause name src))
  | .contract _ children => Node.placesAll children
  | .leaf _ => []
  | .markup _ children => Node.placesAll children

def Node.placesAll : List Node → List Place
  | [] => []
  | n :: rest => n.places ++ Node.placesAll rest

end

end ClauseTemplates
