import ClauseTemplates.Proofs.Grammar.Compiled
import ClauseTemplates.Proofs.Template.Every

namespace ClauseTemplates

/-- A repetition of a grammar: what stands between its items, whether there has to be one, and what
reads them. -/
structure Region where
  separator : List Char
  nonempty : Bool
  item : ValueGrammar

/-- What holds of the repetitions that joins are compiled to. -/
def Node.Joins (P : Region → Prop) : Node → Prop
  | .join _ _ separator _ => ∀ item, P ⟨Text.escaped separator.toList, false, item⟩
  | _ => True

/-- It holds of the repetitions that lists are compiled to. -/
def Region.Listed (P : Region → Prop) : Prop :=
  ∀ margin item, P ⟨Markdown.newline margin, true, item⟩

/-- Items of lists stand on lines of their own. -/
theorem Region.listed_of_separator {P : Region → Prop} (h : ∀ r : Region, r.separator ≠ [] → P r) :
    Region.Listed P := by
  intro margin item
  have hline : Markdown.newline margin ≠ [] := by simp [Markdown.newline]
  exact h ⟨_, true, item⟩ hline

namespace Grammar

mutual

/-- The repetitions of a grammar, but for those of the records of compound types. -/
def regions : Grammar → List Region
  | .text _ => []
  | .seq first second => regions first ++ regions second
  | .either first second => regions first ++ regions second
  | .flagged branch _ _ => regions branch
  | .slot _ value => valueRegions value
  | .formula => []
  | .orderedMark => []
  | .optionally body => regions body

def valueRegions : ValueGrammar → List Region
  | .scalar _ => []
  | .reference _ => []
  | .enum _ => []
  | .compound _ => []
  | .record _ _ body => regions body
  | .element _ body => regions body
  | .items separator nonempty item => ⟨separator, nonempty, item⟩ :: valueRegions item

end

section

variable {P : Region → Prop}

theorem regions_assemble {separator : List Char} (blocks : List (Grammar × Bool))
    (h : ∀ block ∈ blocks, ∀ r ∈ regions block.1, P r) :
    (∀ r ∈ regions (Compiling.assemble separator blocks).1, P r) ∧
      ∀ r ∈ regions (Compiling.assemble separator blocks).2, P r := by
  induction blocks with
  | nil => simp [Compiling.assemble, regions, nothing]
  | cons block rest ih =>
    obtain ⟨g, elidable⟩ := block
    obtain ⟨hfirst, hlater⟩ := ih fun b hb => h b (List.mem_cons_of_mem _ hb)
    have hg : ∀ r ∈ regions g, P r := h _ List.mem_cons_self
    have hboth : ∀ r ∈ regions g ++ regions (Compiling.assemble separator rest).2, P r :=
      List.forall_mem_append.mpr ⟨hg, hlater⟩
    unfold Compiling.assemble
    cases elidable with
    | true =>
      simp only [if_true, regions, List.nil_append]
      exact ⟨List.forall_mem_append.mpr ⟨hboth, hfirst⟩,
        List.forall_mem_append.mpr ⟨hboth, hlater⟩⟩
    | false =>
      simp only [Bool.false_eq_true, if_false, regions, List.nil_append]
      exact ⟨hboth, hboth⟩

theorem regions_ofBlocks (margin : List Char) {blocks : List (Grammar × Bool)}
    (h : ∀ block ∈ blocks, ∀ r ∈ regions block.1, P r) :
    ∀ r ∈ regions (ofBlocks margin blocks), P r := (regions_assemble blocks h).1

theorem regions_ofRegion {margin : List Char} {name : String} {src : Option String}
    {body : Grammar} : regions (ofRegion margin name src body) = regions body := by
  simp [ofRegion, concat, nothing, regions]

variable {schema : Schema} {kind : TemplateKind} {settings : Settings}

theorem regions_ofValue (v : Variable) : valueRegions (ofValue schema v) = [] := by
  unfold ofValue
  dsimp only
  split
  · rfl
  · split <;> rfl

mutual

/-- The repetitions of the grammar of a node come from its lists, whose items stand on lines of
their own, and from its joins. -/
theorem regions_ofNode (hlist : Region.Listed P) (margin : List Char) : ∀ n : Node,
    n.Every (Node.Joins P) → ∀ r ∈ regions (ofNode schema kind settings margin n), P r
  | .variable v, _ => by
    simp [ofNode, regions, regions_ofValue]
  | .enumVariable _, _ => by
    simp [ofNode, regions, valueRegions]
  | .formula _, _ => by
    simp [ofNode, regions]
  | .conditional name condition whenTrue whenFalse, ⟨_, ht, hf⟩ => by
    have hboth := List.forall_mem_append.mpr
      ⟨regions_ofInlines hlist margin whenTrue ht, regions_ofInlines hlist margin whenFalse hf⟩
    rw [ofNode]
    split <;> exact hboth
  | .optional name type whenSome whenNone, ⟨_, hs, hn⟩ => by
    rw [ofNode]
    exact List.forall_mem_append.mpr
      ⟨regions_ofInlines hlist margin whenSome hs, regions_ofInlines hlist margin whenNone hn⟩
  | .within name type children, ⟨_, hc⟩ => by
    rw [ofNode]
    exact regions_ofInlines hlist margin children hc
  | .list name listKind type children, ⟨_, hc⟩ => by
    have hitems := regions_ofBlocks (margin ++ Markdown.itemIndent listKind)
      (regions_ofEach hlist (margin ++ Markdown.itemIndent listKind) children hc)
    have hmark : regions (Compiling.listMark settings.bullet listKind) = [] := by
      cases listKind <;> rfl
    rw [ofNode, regions, valueRegions, valueRegions, regions, hmark, List.nil_append]
    exact List.forall_mem_cons.mpr ⟨hlist margin _, hitems⟩
  | .join name type separator children, ⟨hjoin, hc⟩ => by
    rw [ofNode, regions, valueRegions, valueRegions]
    exact List.forall_mem_cons.mpr ⟨hjoin _, regions_ofInlines hlist margin children hc⟩
  | .clause name type src condition children, ⟨_, hc⟩ => by
    have hbody := regions_ofBlocks margin (regions_ofEach hlist margin children hc)
    rw [ofNode, regions, valueRegions]
    split
    · rw [regions_ofRegion]
      exact hbody
    · exact hbody
  | .contract _ children, ⟨_, hc⟩ => by
    rw [ofNode]
    exact regions_ofBlocks _ (regions_ofEach hlist margin children hc)
  | .leaf l, _ => by
    cases l <;> simp [ofNode, ofLeaf, regions]
  | .markup (.document _) children, ⟨_, hc⟩ => by
    rw [ofNode]
    exact regions_ofBlocks _ (regions_ofEach hlist margin children hc)
  | .markup .item children, ⟨_, hc⟩ => by
    rw [ofNode]
    exact regions_ofBlocks _ (regions_ofEach hlist margin children hc)
  | .markup .paragraph children, ⟨_, hc⟩ => by
    rw [ofNode]
    exact regions_ofInlines hlist margin children hc
  | .markup (.heading level) children, ⟨_, hc⟩ => by
    rw [ofNode, regions, regions, List.nil_append]
    exact regions_ofInlines hlist margin children hc
  | .markup .blockQuote children, ⟨_, hc⟩ => by
    rw [ofNode, regions, regions, List.nil_append]
    exact regions_ofBlocks _ (regions_ofEach hlist _ children hc)
  | .markup (.list listKind start) children, ⟨_, hc⟩ => by
    rw [ofNode]
    exact regions_ofItems hlist margin listKind [] start.toNat children hc
  | .markup (.clause name src _) children, ⟨_, hc⟩ => by
    rw [ofNode, regions_ofRegion]
    exact regions_ofBlocks _ (regions_ofEach hlist margin children hc)
  | .markup .emph children, ⟨_, hc⟩ => by
    rw [ofNode]
    simp only [concat, nothing, regions, List.nil_append, List.append_nil]
    exact regions_ofInlines hlist margin children hc
  | .markup .strong children, ⟨_, hc⟩ => by
    rw [ofNode]
    simp only [concat, nothing, regions, List.nil_append, List.append_nil]
    exact regions_ofInlines hlist margin children hc

theorem regions_ofEach (hlist : Region.Listed P) (margin : List Char) : ∀ ns : List Node,
    Node.EveryAll (Node.Joins P) ns →
      ∀ block ∈ ofEach schema kind settings margin ns, ∀ r ∈ regions block.1, P r
  | [], _ => by simp [ofEach]
  | n :: rest, ⟨hn, hrest⟩ => by
    rw [ofEach]
    exact List.forall_mem_cons.mpr
      ⟨regions_ofNode hlist margin n hn, regions_ofEach hlist margin rest hrest⟩

theorem regions_ofInlines (hlist : Region.Listed P) (margin : List Char) : ∀ ns : List Node,
    Node.EveryAll (Node.Joins P) ns →
      ∀ r ∈ regions (ofInlines schema kind settings margin ns), P r
  | [], _ => by simp [ofInlines, nothing, regions]
  | n :: rest, ⟨hn, hrest⟩ => by
    rw [ofInlines]
    exact List.forall_mem_append.mpr
      ⟨regions_ofNode hlist margin n hn, regions_ofInlines hlist margin rest hrest⟩

theorem regions_ofItems (hlist : Region.Listed P) (margin : List Char) (listKind : ListKind)
    (lead : List Char) (number : Nat) : ∀ ns : List Node, Node.EveryAll (Node.Joins P) ns →
      ∀ r ∈ regions (ofItems schema kind settings margin listKind lead number ns), P r
  | [], _ => by simp [ofItems, nothing, regions]
  | n :: rest, ⟨hn, hrest⟩ => by
    rw [ofItems]
    simp only [concat, nothing, regions, List.nil_append, List.append_nil]
    exact List.forall_mem_append.mpr
      ⟨regions_ofNode hlist _ n hn, regions_ofItems hlist margin listKind _ _ rest hrest⟩

end

end

end Grammar

end ClauseTemplates
