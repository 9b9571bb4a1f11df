import ClauseTemplates.Markup.Inline
import ClauseTemplates.Template.Node

namespace ClauseTemplates.Fragment

/-- How the value of a property is shown: an array in brackets with its elements joined. -/
def valueNodes (p : Property) (name : String) : List Node :=
  if p.array then
    [.text "[",
     .join name none Markup.defaultSeparator [.variable (.unbound thisName none)],
     .text "]"]
  else [.variable (.unbound name none)]

/-- The name of a property and its value, with `lead` in front. Inside the block of an optional
property the current value is the property itself. -/
def entry (lead : String) (p : Property) : List Node :=
  let label := Node.text (lead ++ p.name ++ " ")
  if p.optional then [.optional p.name none (label :: valueNodes p thisName) []]
  else label :: valueNodes p p.name

/-- The template of a record: the name and value of each property that the system does not write,
with a separator before all but the first. -/
def ofDeclaration (d : Declaration) : List Node :=
  match d.properties.filter fun p => !p.isSystem with
  | [] => []
  | first :: rest => entry "" first ++ rest.flatMap (entry Markup.defaultSeparator)

end ClauseTemplates.Fragment
