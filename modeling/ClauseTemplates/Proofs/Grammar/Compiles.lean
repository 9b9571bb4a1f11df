import ClauseTemplates.Proofs.Grammar.Compiled

namespace ClauseTemplates

mutual

/-- The types of blocks are known, and each value that is shown is a reference or has a text
program. -/
def Node.Compiles (schema : Schema) : Node → Prop
  | .variable v => v.type.isSome = true ∧ (v.identifiedBy.isSome = true ∨
    ∃ program, Entry.compile schema ⟨v.type.getD "", v.format⟩ = .ok (.scalar program))
  | .enumVariable _ => True
  | .formula _ => True
  | .conditional _ _ whenTrue whenFalse =>
    Node.CompilesAll schema whenTrue ∧ Node.CompilesAll schema whenFalse
  | .optional _ type whenSome whenNone => type.isSome = true ∧
    Node.CompilesAll schema whenSome ∧ Node.CompilesAll schema whenNone
  | .within _ type children => type.isSome = true ∧ Node.CompilesAll schema children
  | .list _ _ type children => type.isSome = true ∧ Node.CompilesAll schema children
  | .join _ type _ children => type.isSome = true ∧ Node.CompilesAll schema children
  | .clause _ type _ _ children => type.isSome = true ∧ Node.CompilesAll schema children
  | .contract _ children => Node.CompilesAll schema children
  | .leaf _ => True
  | .markup _ children => Node.CompilesAll schema children

def Node.CompilesAll (schema : Schema) : List Node → Prop
  | [] => True
  | n :: rest => n.Compiles schema ∧ Node.CompilesAll schema rest

end

namespace Compiling

variable {schema : Schema} {settings : Settings} {nesting : List Nesting}
  {compound : String → List Node → Compiling Unit}

theorem always_bound {Good : CompileState → Prop} (name : String) {type : Option String}
    (h : type.isSome = true) : Always Good (bound name type) (type.getD "") := by
  cases type with
  | some type => exact always_pure type
  | none => cases h

theorem always_variableValue {v : Variable} (h : (Node.variable v).Compiles schema) :
    Always (Stands schema settings nesting) (variableValue compound v) (Grammar.ofValue schema v) := by
  rw [Node.Compiles] at h
  obtain ⟨htype, h⟩ := h
  unfold variableValue
  refine (always_bound v.name htype).bind ?_
  unfold Grammar.ofValue
  dsimp only
  split
  · exact always_pure _
  · rename_i hid
    obtain ⟨program, hprogram⟩ := h.resolve_left hid
    rw [hprogram]
    exact (always_entry hprogram).bind (always_pure _)

theorem always_inBlocks {each : Compiling (List (Grammar × Bool))} {blocks : List (Grammar × Bool)}
    (h : Always (Stands schema settings nesting) each blocks) :
    Always (Stands schema settings nesting) (inBlocks each)
      (Grammar.ofBlocks (nesting.flatMap Nesting.margin) blocks) :=
  always_margin.bind (h.bind (always_pure _))

variable (kind : TemplateKind)

mutual

theorem always_node : ∀ (n : Node) (nesting : List Nesting), n.Compiles schema →
    Always (Stands schema settings nesting) (node kind compound n)
      (Grammar.ofNode schema kind settings (nesting.flatMap Nesting.margin) n)
  | .variable v, nesting, h => by
    rw [node, Grammar.ofNode]
    exact (always_variableValue h).bind (always_pure _)
  | .enumVariable v, nesting, _ => by
    rw [node, Grammar.ofNode]
    exact always_pure _
  | .formula f, nesting, _ => by
    rw [node, Grammar.ofNode]
    exact always_pure _
  | .conditional name condition whenTrue whenFalse, nesting, ⟨htrue, hfalse⟩ => by
    rw [node, Grammar.ofNode]
    refine (always_inlines whenTrue nesting htrue).bind
      ((always_inlines whenFalse nesting hfalse).bind ?_)
    split <;> exact always_pure _
  | .optional name type whenSome whenNone, nesting, ⟨htype, hsome, hnone⟩ => by
    rw [node, Grammar.ofNode]
    exact (always_bound name htype).bind ((always_elementType _).bind
      ((always_inlines whenSome nesting hsome).bind ((always_inlines whenNone nesting hnone).bind
        (always_pure _))))
  | .within name type children, nesting, ⟨htype, h⟩ => by
    rw [node, Grammar.ofNode]
    exact (always_bound name htype).bind ((always_inlines children nesting h).bind (always_pure _))
  | .list name listKind type children, nesting, ⟨htype, h⟩ => by
    rw [node, Grammar.ofNode]
    have hitem := always_inside
      (always_inBlocks (always_each children (nesting ++ [.item listKind]) h))
    rw [flatMap_margin] at hitem
    refine (always_bound name htype).bind (always_margin.bind (hitem.bind ?_))
    refine Always.get_bind fun s hs => ?_
    rw [hs.settings]
    exact (always_elementType _).bind (always_pure _)
  | .join name type separator children, nesting, ⟨htype, h⟩ => by
    rw [node, Grammar.ofNode]
    exact (always_bound name htype).bind ((always_inlines children nesting h).bind
      ((always_elementType _).bind (always_pure _)))
  | .clause name type src condition children, nesting, ⟨htype, h⟩ => by
    rw [node, Grammar.ofNode]
    refine (always_bound name htype).bind ((always_inBlocks (always_each children nesting h)).bind ?_)
    dsimp only
    split
    · refine (always_region name src _).bind (Always.get_bind fun s hs => ?_)
      rw [hs.settings]
      exact always_pure _
    · refine (always_pure _).bind (Always.get_bind fun s hs => ?_)
      rw [hs.settings]
      exact always_pure _
  | .contract type children, nesting, h => by
    rw [node, Grammar.ofNode]
    exact always_inBlocks (always_each children nesting h)
  | .leaf l, nesting, _ => by
    rw [node, Grammar.ofNode]
    exact always_leaf l
  | .markup frame children, nesting, h => by
    have hblocks := always_inBlocks (always_each children nesting h)
    have hinlines := always_inlines children nesting h
    cases frame with
    | document data =>
      rw [node, Grammar.ofNode]
      exact hblocks
    | item =>
      rw [node, Grammar.ofNode]
      exact hblocks
    | paragraph =>
      rw [node, Grammar.ofNode]
      exact hinlines
    | heading level =>
      rw [node, Grammar.ofNode]
      exact hinlines.bind (always_pure _)
    | blockQuote =>
      rw [node, Grammar.ofNode]
      have hbody := always_inside (always_inBlocks (always_each children (nesting ++ [.quote]) h))
      rw [flatMap_margin] at hbody
      exact hbody.bind (always_pure _)
    | list listKind start =>
      rw [node, Grammar.ofNode]
      exact always_listItems listKind [] start.toNat children nesting h
    | clause name src data =>
      rw [node, Grammar.ofNode]
      exact hblocks.bind (always_region name src _)
    | emph =>
      rw [node, Grammar.ofNode]
      exact hinlines.bind (always_pure _)
    | strong =>
      rw [node, Grammar.ofNode]
      exact hinlines.bind (always_pure _)

theorem always_each : ∀ (ns : List Node) (nesting : List Nesting), Node.CompilesAll schema ns →
    Always (Stands schema settings nesting) (eachBlock kind compound ns)
      (Grammar.ofEach schema kind settings (nesting.flatMap Nesting.margin) ns)
  | [], nesting, _ => by
    rw [eachBlock, Grammar.ofEach]
    exact always_pure _
  | n :: rest, nesting, ⟨hn, hrest⟩ => by
    rw [eachBlock, Grammar.ofEach]
    exact (always_node n nesting hn).bind ((always_each rest nesting hrest).bind (always_pure _))

theorem always_inlines : ∀ (ns : List Node) (nesting : List Nesting), Node.CompilesAll schema ns →
    Always (Stands schema settings nesting) (inlines kind compound ns)
      (Grammar.ofInlines schema kind settings (nesting.flatMap Nesting.margin) ns)
  | [], nesting, _ => by
    rw [inlines, Grammar.ofInlines]
    exact always_pure _
  | n :: rest, nesting, ⟨hn, hrest⟩ => by
    rw [inlines, Grammar.ofInlines]
    exact (always_node n nesting hn).bind ((always_inlines rest nesting hrest).bind (always_pure _))

theorem always_listItems (listKind : ListKind) : ∀ (lead : List Char) (number : Nat) (ns : List Node)
    (nesting : List Nesting), Node.CompilesAll schema ns →
    Always (Stands schema settings nesting) (listItems kind compound listKind lead number ns)
      (Grammar.ofItems schema kind settings (nesting.flatMap Nesting.margin) listKind lead number ns)
  | lead, number, [], nesting, _ => by
    rw [listItems, Grammar.ofItems]
    exact always_pure _
  | lead, number, n :: rest, nesting, ⟨hn, hrest⟩ => by
    rw [listItems, Grammar.ofItems]
    have hitem := always_inside (always_node n (nesting ++ [.item listKind]) hn)
    rw [flatMap_margin] at hitem
    refine Always.get_bind fun s hs => ?_
    rw [hs.settings]
    exact hitem.bind (always_margin.bind
      ((always_listItems listKind _ _ rest nesting hrest).bind (always_pure _)))

end

end Compiling

end ClauseTemplates
