import ClauseTemplates.Proofs.Grammar.Regions
import ClauseTemplates.Proofs.Template.Keys
import ClauseTemplates.Proofs.Template.Typed

namespace ClauseTemplates

/-- The grammar that reads the values of an entry. -/
def Entry.leaf : Entry → ValueGrammar
  | .scalar program => .scalar program
  | .compound type _ => .compound type

namespace Grammar

mutual

/-- The parts of a grammar that programs and the grammars of compound types read. -/
def leaves : Grammar → List ValueGrammar
  | .text _ => []
  | .seq first second => leaves first ++ leaves second
  | .either first second => leaves first ++ leaves second
  | .flagged branch _ _ => leaves branch
  | .slot _ value => valueLeaves value
  | .formula => []
  | .orderedMark => []
  | .optionally body => leaves body

def valueLeaves : ValueGrammar → List ValueGrammar
  | .scalar program => [.scalar program]
  | .reference _ => []
  | .enum _ => []
  | .compound type => [.compound type]
  | .record _ _ body => leaves body
  | .element _ body => leaves body
  | .items _ _ item => valueLeaves item

end

mutual

/-- The items of the repetitions have no leaves of their own. -/
theorem leaves_of_mem_regions {r : Region} : ∀ g : Grammar, r ∈ regions g →
    valueLeaves r.item ⊆ leaves g
  | .text _, h => nomatch h
  | .seq first second, h => by
    rcases List.mem_append.mp h with h | h
    · exact List.subset_append_of_subset_left _ (leaves_of_mem_regions first h)
    · exact List.subset_append_of_subset_right _ (leaves_of_mem_regions second h)
  | .either first second, h => by
    rcases List.mem_append.mp h with h | h
    · exact List.subset_append_of_subset_left _ (leaves_of_mem_regions first h)
    · exact List.subset_append_of_subset_right _ (leaves_of_mem_regions second h)
  | .flagged branch _ _, h => leaves_of_mem_regions branch h
  | .slot _ value, h => leaves_of_mem_valueRegions value h
  | .formula, h => nomatch h
  | .orderedMark, h => nomatch h
  | .optionally body, h => leaves_of_mem_regions body h

theorem leaves_of_mem_valueRegions {r : Region} : ∀ v : ValueGrammar, r ∈ valueRegions v →
    valueLeaves r.item ⊆ valueLeaves v
  | .scalar _, h => nomatch h
  | .reference _, h => nomatch h
  | .enum _, h => nomatch h
  | .compound _, h => nomatch h
  | .record _ _ body, h => leaves_of_mem_regions body h
  | .element _ body, h => leaves_of_mem_regions body h
  | .items separator nonempty item, h => by
    rcases List.mem_cons.mp h with rfl | h
    · exact List.Subset.refl _
    · exact leaves_of_mem_valueRegions item h

end

section

variable {context context' : ScanContext} {compound compound' : String → Scanner Char Captured}

mutual

/-- What is read depends on how the leaves are read, and on nothing else. -/
theorem scanner_congr : ∀ g : Grammar,
    (∀ v ∈ leaves g, valueScanner context compound v = valueScanner context' compound' v) →
      scanner context compound g = scanner context' compound' g
  | .text _, _ => by rw [scanner, scanner]
  | .seq first second, h => by
    rw [scanner, scanner, scanner_congr first fun v hv => h v (List.mem_append_left _ hv),
      scanner_congr second fun v hv => h v (List.mem_append_right _ hv)]
  | .either first second, h => by
    rw [scanner, scanner, scanner_congr first fun v hv => h v (List.mem_append_left _ hv),
      scanner_congr second fun v hv => h v (List.mem_append_right _ hv)]
  | .flagged branch _ _, h => by rw [scanner, scanner, scanner_congr branch h]
  | .slot _ value, h => by rw [scanner, scanner, valueScanner_congr value h]
  | .formula, _ => by rw [scanner, scanner]
  | .orderedMark, _ => by rw [scanner, scanner]
  | .optionally body, h => by rw [scanner, scanner, scanner_congr body h]

theorem valueScanner_congr : ∀ v : ValueGrammar,
    (∀ w ∈ valueLeaves v, valueScanner context compound w = valueScanner context' compound' w) →
      valueScanner context compound v = valueScanner context' compound' v
  | .scalar program, h => h _ (List.mem_singleton_self _)
  | .reference _, _ => by rw [valueScanner, valueScanner]
  | .enum _, _ => by rw [valueScanner, valueScanner]
  | .compound type, h => h _ (List.mem_singleton_self _)
  | .record _ _ body, h => by rw [valueScanner, valueScanner, scanner_congr body h]
  | .element _ body, h => by rw [valueScanner, valueScanner, scanner_congr body h]
  | .items _ _ item, h => by rw [valueScanner, valueScanner, valueScanner_congr item h]

end

end

section

variable {schema : Schema}

/-- The leaf reads the values of one of the keys. -/
def Serves (schema : Schema) (keys : List EntryKey) (v : ValueGrammar) : Prop :=
  ∃ key ∈ keys, ∃ e, Entry.compile schema key = .ok e ∧ v = e.leaf

theorem Serves.mono {keys keys' : List EntryKey} {v : ValueGrammar} (h : Serves schema keys v)
    (hkeys : keys ⊆ keys') : Serves schema keys' v := by
  obtain ⟨key, hkey, he⟩ := h
  exact ⟨key, hkeys hkey, he⟩

theorem serves_ofValue {v : Variable} (htyped : v.type.isSome = true) :
    ∀ w ∈ valueLeaves (ofValue schema v), Serves schema (Node.variable v).keys w := by
  obtain ⟨type, htype⟩ := Option.isSome_iff_exists.mp htyped
  intro w hw
  unfold ofValue at hw
  rw [htype, Option.getD_some] at hw
  split at hw
  · cases hw
  · rename_i hid
    have hkey : ⟨type, v.format⟩ ∈ (Node.variable v).keys := by
      rw [Node.keys, if_neg hid, htype]
      exact List.mem_singleton_self _
    cases hentry : Entry.compile schema ⟨type, v.format⟩ with
    | error e => simp [hentry, valueLeaves] at hw
    | ok e =>
      refine ⟨_, hkey, e, hentry, ?_⟩
      cases e <;> simpa [hentry, valueLeaves, Entry.leaf] using hw

theorem leaves_assemble {separator : List Char} {v : ValueGrammar} (blocks : List (Grammar × Bool))
    (h : v ∈ leaves (Compiling.assemble separator blocks).1 ∨
      v ∈ leaves (Compiling.assemble separator blocks).2) :
    ∃ block ∈ blocks, v ∈ leaves block.1 := by
  induction blocks with
  | nil => simp [Compiling.assemble, leaves, nothing] at h
  | cons block rest ih =>
    obtain ⟨g, elidable⟩ := block
    have hor : v ∈ leaves g ∨ v ∈ leaves (Compiling.assemble separator rest).1 ∨
        v ∈ leaves (Compiling.assemble separator rest).2 := by
      unfold Compiling.assemble at h
      cases elidable <;> simp [leaves] at h <;> grind
    rcases hor with hg | hrest
    · exact ⟨_, List.mem_cons_self, hg⟩
    · obtain ⟨block, hblock, hv⟩ := ih hrest
      exact ⟨block, List.mem_cons_of_mem _ hblock, hv⟩

theorem leaves_ofBlocks {margin : List Char} {v : ValueGrammar} {blocks : List (Grammar × Bool)}
    (h : v ∈ leaves (ofBlocks margin blocks)) : ∃ block ∈ blocks, v ∈ leaves block.1 :=
  leaves_assemble blocks (.inl h)

theorem leaves_ofRegion {margin : List Char} {name : String} {src : Option String} {body : Grammar} :
    leaves (ofRegion margin name src body) = leaves body := by
  simp [ofRegion, concat, nothing, leaves]

variable {kind : TemplateKind} {settings : Settings}

mutual

/-- The leaves of the grammar of a node read what its variables request. -/
theorem serves_ofNode (margin : List Char) : ∀ n : Node, n.Every Node.Typed →
    ∀ v ∈ leaves (ofNode schema kind settings margin n), Serves schema n.keys v
  | .variable v, htyped, w, hw => by
    rw [ofNode, leaves] at hw
    exact serves_ofValue htyped w hw
  | .enumVariable _, _, w, hw => by
    rw [ofNode, leaves, valueLeaves] at hw
    cases hw
  | .formula _, _, w, hw => by
    rw [ofNode] at hw
    cases hw
  | .conditional name condition whenTrue whenFalse, ⟨_, ht, hf⟩, w, hw => by
    have hor : w ∈ leaves (ofInlines schema kind settings margin whenTrue) ∨
        w ∈ leaves (ofInlines schema kind settings margin whenFalse) := by
      rw [ofNode] at hw
      split at hw <;> simpa [leaves] using hw
    rw [Node.keys]
    rcases hor with hw | hw
    · exact (serves_ofInlines margin whenTrue ht w hw).mono (List.subset_append_left _ _)
    · exact (serves_ofInlines margin whenFalse hf w hw).mono (List.subset_append_right _ _)
  | .optional name type whenSome whenNone, ⟨_, hs, hn⟩, w, hw => by
    rw [ofNode, leaves, leaves, valueLeaves] at hw
    rw [Node.keys]
    rcases List.mem_append.mp hw with hw | hw
    · exact (serves_ofInlines margin whenSome hs w hw).mono (List.subset_append_left _ _)
    · exact (serves_ofInlines margin whenNone hn w hw).mono (List.subset_append_right _ _)
  | .within name type children, ⟨_, hc⟩, w, hw => by
    rw [ofNode, leaves, valueLeaves] at hw
    exact serves_ofInlines margin children hc w hw
  | .list name listKind type children, ⟨_, hc⟩, w, hw => by
    rw [ofNode, leaves, valueLeaves, valueLeaves, leaves] at hw
    rcases List.mem_append.mp hw with hw | hw
    · cases listKind <;> cases hw
    · exact serves_ofEach _ children hc w (leaves_ofBlocks hw)
  | .join name type separator children, ⟨_, hc⟩, w, hw => by
    rw [ofNode, leaves, valueLeaves, valueLeaves] at hw
    exact serves_ofInlines margin children hc w hw
  | .clause name type src condition children, ⟨_, hc⟩, w, hw => by
    rw [ofNode, leaves, valueLeaves] at hw
    split at hw
    · rw [leaves_ofRegion] at hw
      exact serves_ofEach margin children hc w (leaves_ofBlocks hw)
    · exact serves_ofEach margin children hc w (leaves_ofBlocks hw)
  | .contract _ children, ⟨_, hc⟩, w, hw => by
    rw [ofNode] at hw
    exact serves_ofEach margin children hc w (leaves_ofBlocks hw)
  | .leaf l, _, w, hw => by
    rw [ofNode] at hw
    cases l <;> cases hw
  | .markup (.document _) children, ⟨_, hc⟩, w, hw => by
    rw [ofNode] at hw
    exact serves_ofEach margin children hc w (leaves_ofBlocks hw)
  | .markup .item children, ⟨_, hc⟩, w, hw => by
    rw [ofNode] at hw
    exact serves_ofEach margin children hc w (leaves_ofBlocks hw)
  | .markup .paragraph children, ⟨_, hc⟩, w, hw => by
    rw [ofNode] at hw
    exact serves_ofInlines margin children hc w hw
  | .markup (.heading level) children, ⟨_, hc⟩, w, hw => by
    rw [ofNode, leaves, leaves, List.nil_append] at hw
    exact serves_ofInlines margin children hc w hw
  | .markup .blockQuote children, ⟨_, hc⟩, w, hw => by
    rw [ofNode, leaves, leaves, List.nil_append] at hw
    exact serves_ofEach _ children hc w (leaves_ofBlocks hw)
  | .markup (.list listKind start) children, ⟨_, hc⟩, w, hw => by
    rw [ofNode] at hw
    exact serves_ofItems margin listKind [] start.toNat children hc w hw
  | .markup (.clause name src _) children, ⟨_, hc⟩, w, hw => by
    rw [ofNode, leaves_ofRegion] at hw
    exact serves_ofEach margin children hc w (leaves_ofBlocks hw)
  | .markup .emph children, ⟨_, hc⟩, w, hw => by
    rw [ofNode] at hw
    simp only [concat, nothing, leaves, List.nil_append, List.append_nil] at hw
    exact serves_ofInlines margin children hc w hw
  | .markup .strong children, ⟨_, hc⟩, w, hw => by
    rw [ofNode] at hw
    simp only [concat, nothing, leaves, List.nil_append, List.append_nil] at hw
    exact serves_ofInlines margin children hc w hw

theorem serves_ofEach (margin : List Char) : ∀ ns : List Node, Node.EveryAll Node.Typed ns →
    ∀ v, (∃ block ∈ ofEach schema kind settings margin ns, v ∈ leaves block.1) →
      Serves schema (Node.keysAll ns) v
  | [], _, v, h => by
    rw [ofEach] at h
    obtain ⟨block, hblock, -⟩ := h
    cases hblock
  | n :: rest, ⟨hn, hrest⟩, v, h => by
    rw [ofEach] at h
    obtain ⟨block, hblock, hv⟩ := h
    rw [Node.keysAll]
    rcases List.mem_cons.mp hblock with rfl | hblock
    · exact (serves_ofNode margin n hn v hv).mono (List.subset_append_left _ _)
    · exact (serves_ofEach margin rest hrest v ⟨block, hblock, hv⟩).mono
        (List.subset_append_right _ _)

theorem serves_ofInlines (margin : List Char) : ∀ ns : List Node, Node.EveryAll Node.Typed ns →
    ∀ v ∈ leaves (ofInlines schema kind settings margin ns), Serves schema (Node.keysAll ns) v
  | [], _, v, hv => by
    rw [ofInlines] at hv
    cases hv
  | n :: rest, ⟨hn, hrest⟩, v, hv => by
    rw [ofInlines, leaves] at hv
    rw [Node.keysAll]
    rcases List.mem_append.mp hv with hv | hv
    · exact (serves_ofNode margin n hn v hv).mono (List.subset_append_left _ _)
    · exact (serves_ofInlines margin rest hrest v hv).mono (List.subset_append_right _ _)

theorem serves_ofItems (margin : List Char) (listKind : ListKind) (lead : List Char)
    (number : Nat) : ∀ ns : List Node, Node.EveryAll Node.Typed ns →
    ∀ v ∈ leaves (ofItems schema kind settings margin listKind lead number ns),
      Serves schema (Node.keysAll ns) v
  | [], _, v, hv => by
    rw [ofItems] at hv
    cases hv
  | n :: rest, ⟨hn, hrest⟩, v, hv => by
    rw [ofItems] at hv
    simp only [concat, nothing, leaves, List.nil_append, List.append_nil] at hv
    rw [Node.keysAll]
    rcases List.mem_append.mp hv with hv | hv
    · exact (serves_ofNode _ n hn v hv).mono (List.subset_append_left _ _)
    · exact (serves_ofItems margin listKind _ _ rest hrest v hv).mono
        (List.subset_append_right _ _)

end

end

end Grammar

end ClauseTemplates
