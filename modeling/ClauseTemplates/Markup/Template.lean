import ClauseTemplates.Markup.Block

namespace ClauseTemplates.Markup

/-- How many formulas and conditions have been named. -/
structure Counts where
  formulas : Nat
  conditions : Nat

def nameFormula (f : Formula) (counts : Counts) : Formula × Counts :=
  if f.name = "" then
    ({ f with name := "formula_" ++ toString (counts.formulas + 1) },
      { counts with formulas := counts.formulas + 1 })
  else (f, counts)

def nameCondition (name : String) (condition : Option String) (counts : Counts) :
    String × Counts :=
  if name = "" ∧ condition.isSome then
    ("condition_" ++ toString (counts.conditions + 1),
      { counts with conditions := counts.conditions + 1 })
  else (name, counts)

mutual

/-- Names formulas and evaluated conditions by their place in the document. -/
def named (counts : Counts) : Node → Node × Counts
  | .formula f =>
    let (f, counts) := nameFormula f counts
    (.formula f, counts)
  | .conditional name condition whenTrue whenFalse =>
    let (name, counts) := nameCondition name condition counts
    let (whenTrue, counts) := namedAll counts whenTrue
    let (whenFalse, counts) := namedAll counts whenFalse
    (.conditional name condition whenTrue whenFalse, counts)
  | .optional name type whenSome whenNone =>
    let (whenSome, counts) := namedAll counts whenSome
    let (whenNone, counts) := namedAll counts whenNone
    (.optional name type whenSome whenNone, counts)
  | .within name type children =>
    let (children, counts) := namedAll counts children
    (.within name type children, counts)
  | .list name kind type children =>
    let (children, counts) := namedAll counts children
    (.list name kind type children, counts)
  | .join name type separator children =>
    let (children, counts) := namedAll counts children
    (.join name type separator children, counts)
  | .clause name type src condition children =>
    let (children, counts) := namedAll counts children
    (.clause name type src condition children, counts)
  | .contract type children =>
    let (children, counts) := namedAll counts children
    (.contract type children, counts)
  | .markup frame children =>
    let (children, counts) := namedAll counts children
    (.markup frame children, counts)
  | .variable v => (.variable v, counts)
  | .enumVariable v => (.enumVariable v, counts)
  | .leaf l => (.leaf l, counts)

def namedAll (counts : Counts) : List Node → List Node × Counts
  | [] => ([], counts)
  | node :: rest =>
    let (node, counts) := named counts node
    let (rest, counts) := namedAll counts rest
    (node :: rest, counts)

end

/-- Reads markup into the nodes of an unbound template. -/
def read (markup : String) : Except MarkupError (List Node) := do
  let lines := linesOf markup.toList
  let nodes ← readBlocks (weight lines + 1) lines
  pure (namedAll ⟨0, 0⟩ nodes).1

end ClauseTemplates.Markup
