import ClauseTemplates.Expression.Grammar
import ClauseTemplates.Template.Node

namespace ClauseTemplates.Formulas

def checkCode (condition : Option String) : Except ExpressionError Unit := do
  match condition with
  | some code => let _ ← Expression.read code
  | none => pure ()

mutual

/-- Records the names that every formula reads, and checks the code of every condition. -/
def analyze : Node → Except ExpressionError Node
  | .formula f => do
    pure (.formula { f with dependencies := (← Expression.read f.code).freeIdentifiers })
  | .conditional name condition whenTrue whenFalse => do
    checkCode condition
    let whenTrue ← analyzeAll whenTrue
    pure (.conditional name condition whenTrue (← analyzeAll whenFalse))
  | .optional name type whenSome whenNone => do
    let whenSome ← analyzeAll whenSome
    pure (.optional name type whenSome (← analyzeAll whenNone))
  | .within name type children => do pure (.within name type (← analyzeAll children))
  | .list name kind type children => do pure (.list name kind type (← analyzeAll children))
  | .join name type separator children => do
    pure (.join name type separator (← analyzeAll children))
  | .clause name type src condition children => do
    checkCode condition
    pure (.clause name type src condition (← analyzeAll children))
  | .contract type children => do pure (.contract type (← analyzeAll children))
  | .markup frame children => do pure (.markup frame (← analyzeAll children))
  | .variable v => .ok (.variable v)
  | .enumVariable v => .ok (.enumVariable v)
  | .leaf l => .ok (.leaf l)

def analyzeAll : List Node → Except ExpressionError (List Node)
  | [] => .ok []
  | node :: rest => do
    let node ← analyze node
    pure (node :: (← analyzeAll rest))

end

mutual

/-- The formulas inside a node, in the order of the document. -/
def collect : Node → List Formula
  | .formula f => [f]
  | .conditional _ _ whenTrue whenFalse => collectAll whenTrue ++ collectAll whenFalse
  | .optional _ _ whenSome whenNone => collectAll whenSome ++ collectAll whenNone
  | .within _ _ children => collectAll children
  | .list _ _ _ children => collectAll children
  | .join _ _ _ children => collectAll children
  | .clause _ _ _ _ children => collectAll children
  | .contract _ children => collectAll children
  | .markup _ children => collectAll children
  | .variable _ => []
  | .enumVariable _ => []
  | .leaf _ => []

def collectAll : List Node → List Formula
  | [] => []
  | node :: rest => collect node ++ collectAll rest

end

end ClauseTemplates.Formulas
