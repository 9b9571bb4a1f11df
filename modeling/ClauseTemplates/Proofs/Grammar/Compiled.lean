import ClauseTemplates.Grammar.Compile
import ClauseTemplates.Proofs.Effects
import Mathlib.Tactic.SplitIfs

namespace ClauseTemplates

namespace Table

/-- Every entry that is kept is the one that its key compiles to. -/
def Faithful (table : Table) : Prop :=
  ∀ key e, table.cached? key = some e → Entry.compile table.schema key = .ok e

theorem faithful_empty (schema : Schema) (settings : Settings) : (empty schema settings).Faithful := by
  rintro key e ⟨⟩

theorem lookup_store (key : EntryKey) (e : Option Entry) (cells : List (EntryKey × Option Entry))
    (other : EntryKey) :
    (store key e cells).lookup other = if other = key then some e else cells.lookup other := by
  induction cells with
  | nil =>
    rw [store, List.lookup_cons]
    by_cases h : other = key
    · simp [h]
    · simp [h, beq_eq_false_iff_ne.mpr h]
  | cons cell cells ih =>
    obtain ⟨k, f⟩ := cell
    unfold store
    by_cases hk : k = key
    · subst hk
      rw [if_pos rfl, List.lookup_cons, List.lookup_cons]
      by_cases h : other = k
      · simp [h]
      · simp [h, beq_eq_false_iff_ne.mpr h]
    · rw [if_neg hk, List.lookup_cons, List.lookup_cons, ih]
      by_cases h : other = k
      · subst h
        simp [hk]
      · simp [beq_eq_false_iff_ne.mpr h]

theorem entry_schema (key : EntryKey) (table : Table) :
    (table.entry key).2.schema = table.schema ∧ (table.entry key).2.settings = table.settings := by
  unfold entry
  split <;> exact ⟨rfl, rfl⟩

/-- Whether an entry was requested before makes no difference to what it is. -/
theorem entry_faithful {table : Table} (h : table.Faithful) (key : EntryKey) :
    (table.entry key).1 = Entry.compile table.schema key ∧ (table.entry key).2.Faithful := by
  unfold entry
  split
  · rename_i found hf
    exact ⟨(h key found hf).symm, h⟩
  · refine ⟨rfl, ?_⟩
    intro other e he
    unfold cached? at he
    rw [lookup_store] at he
    split at he
    · rename_i ho
      subst ho
      change Entry.compile table.schema other = _
      cases hc : Entry.compile table.schema other with
      | ok found =>
        rw [hc] at he
        exact congrArg Except.ok (Option.some.inj he)
      | error _ =>
        rw [hc] at he
        cases he
    · exact h other e he

end Table

namespace Grammar

section

variable (schema : Schema)

/-- The grammar of the value of a variable. A variable without an entry has no texts. -/
def ofValue (v : Variable) : ValueGrammar :=
  let type := v.type.getD ""
  if v.identifiedBy.isSome then .reference type
  else
    match Entry.compile schema ⟨type, v.format⟩ with
    | .ok (.scalar program) => .scalar program
    | .ok (.compound type _) => .compound type
    | .error _ => .enum []

def elementType (type : String) : Option String :=
  if schema.isCompound type then some type else none

variable (kind : TemplateKind) (settings : Settings)

def ofRegion (margin : List Char) (name : String) (src : Option String) (body : Grammar) :
    Grammar :=
  let line := Grammar.text (Markdown.newline margin)
  .concat [.text (Markdown.clauseOpen name src), line, .optionally (.seq body line),
    .text Markdown.clauseClose]

def ofLeaf (margin : List Char) : Leaf → Grammar
  | .formula _ _ => .formula
  | l => .text (Markdown.leafText margin l)

/-- The grammar of blocks, each with whether a text may leave it out. -/
def ofBlocks (margin : List Char) (blocks : List (Grammar × Bool)) : Grammar :=
  (Compiling.assemble (Markdown.blockSeparator margin) blocks).1

mutual

/-- The grammar of a node at a margin, without the state of a compiler. -/
def ofNode (margin : List Char) : Node → Grammar
  | .variable v => .slot v.name (ofValue schema v)
  | .enumVariable v => .slot v.name (.enum v.values)
  | .formula _ => .formula
  | .conditional name condition whenTrue whenFalse =>
    if condition.isSome then
      .either (ofInlines margin whenTrue) (ofInlines margin whenFalse)
    else
      .either (.flagged (ofInlines margin whenTrue) name true)
        (.flagged (ofInlines margin whenFalse) name false)
  | .optional name type whenSome whenNone =>
    .either (.slot name (.element (elementType schema (type.getD "")) (ofInlines margin whenSome)))
      (ofInlines margin whenNone)
  | .within name type children =>
    .slot name (.record (type.getD "") none (ofInlines margin children))
  | .list name listKind type children =>
    .slot name (.items (Markdown.newline margin) true
      (.element (elementType schema (type.getD ""))
        (.seq (Compiling.listMark settings.bullet listKind)
          (ofBlocks (margin ++ Markdown.itemIndent listKind)
            (ofEach (margin ++ Markdown.itemIndent listKind) children)))))
  | .join name type separator children =>
    .slot name (.items (Text.escaped separator.toList) false
      (.element (elementType schema (type.getD "")) (ofInlines margin children)))
  | .clause name type src _ children =>
    let body := ofBlocks margin (ofEach margin children)
    .slot name (.record (type.getD "") (some settings.clauseIdentifier)
      (if kind = .contract then ofRegion margin name src body else body))
  | .contract _ children => ofBlocks margin (ofEach margin children)
  | .leaf l => ofLeaf margin l
  | .markup (.document _) children => ofBlocks margin (ofEach margin children)
  | .markup .item children => ofBlocks margin (ofEach margin children)
  | .markup .paragraph children => ofInlines margin children
  | .markup (.heading level) children =>
    .seq (.text (Markdown.headingMark level.toNat)) (ofInlines margin children)
  | .markup .blockQuote children =>
    .seq (.text Markdown.quoteMark)
      (ofBlocks (margin ++ Markdown.quoteMark) (ofEach (margin ++ Markdown.quoteMark) children))
  | .markup (.list listKind start) children => ofItems margin listKind [] start.toNat children
  | .markup (.clause name src _) children =>
    ofRegion margin name src (ofBlocks margin (ofEach margin children))
  | .markup .emph children =>
    .concat [.text ['*'], ofInlines margin children, .text ['*']]
  | .markup .strong children =>
    .concat [.text ['*', '*'], ofInlines margin children, .text ['*', '*']]

def ofEach (margin : List Char) : List Node → List (Grammar × Bool)
  | [] => []
  | block :: rest => (ofNode margin block, Compiling.isElidable kind block) :: ofEach margin rest

def ofInlines (margin : List Char) : List Node → Grammar
  | [] => .nothing
  | inline :: rest => .seq (ofNode margin inline) (ofInlines margin rest)

def ofItems (margin : List Char) (listKind : ListKind) (lead : List Char) (number : Nat) :
    List Node → Grammar
  | [] => .nothing
  | item :: rest =>
    .concat [.text (lead ++ Markdown.itemMark settings.bullet listKind number),
      ofNode (margin ++ Markdown.itemIndent listKind) item,
      ofItems margin listKind (Markdown.newline margin) (number + 1) rest]

end

end

end Grammar

namespace Compiling

/-- What a compiler of templates over a schema keeps: where lines stand, and a faithful table. -/
structure Stands (schema : Schema) (settings : Settings) (nesting : List Nesting)
    (s : CompileState) : Prop where
  schema : s.table.schema = schema
  settings : s.table.settings = settings
  faithful : s.table.Faithful
  nesting : s.nesting = nesting

variable {schema : Schema} {settings : Settings} {nesting : List Nesting}

theorem Stands.entry {s : CompileState} (h : Stands schema settings nesting s) (key : EntryKey) :
    (s.table.entry key).1 = Entry.compile schema key ∧
      Stands schema settings nesting { s with table := (s.table.entry key).2 } := by
  obtain ⟨h1, h2⟩ := Table.entry_faithful h.faithful key
  obtain ⟨h3, h4⟩ := Table.entry_schema key s.table
  rw [h.schema] at h1 h3
  rw [h.settings] at h4
  exact ⟨h1, h3, h4, h2, h.nesting⟩

theorem always_margin :
    Always (Stands schema settings nesting) margin (nesting.flatMap Nesting.margin) := by
  intro s hs
  refine ⟨s, ?_, hs⟩
  unfold margin
  exact yields_bind.mpr ⟨s, s, yields_get.mpr ⟨rfl, rfl⟩,
    yields_pure.mpr ⟨by rw [hs.nesting], rfl⟩⟩

theorem always_elementType (type : String) :
    Always (Stands schema settings nesting) (elementType type)
      (Grammar.elementType schema type) := by
  intro s hs
  refine ⟨s, ?_, hs⟩
  unfold elementType
  exact yields_bind.mpr ⟨s, s, yields_get.mpr ⟨rfl, rfl⟩,
    yields_pure.mpr ⟨by rw [hs.schema, Grammar.elementType], rfl⟩⟩

theorem run_inside (k : Nesting) (act : Compiling α) (s : CompileState) :
    (inside k act).run s =
      (((act.run { s with nesting := s.nesting ++ [k] }).1),
        { (act.run { s with nesting := s.nesting ++ [k] }).2 with
          nesting := (act.run { s with nesting := s.nesting ++ [k] }).2.nesting.dropLast }) := by
  unfold inside inside.observing
  simp only [run_bind, run_modify, run_tryCatch]
  rcases act.run { s with nesting := s.nesting ++ [k] } with ⟨_ | _, _⟩ <;> rfl

theorem flatMap_margin (nesting : List Nesting) (k : Nesting) :
    (nesting ++ [k]).flatMap Nesting.margin = nesting.flatMap Nesting.margin ++ k.margin := by
  simp

theorem makes_inside {k : Nesting} {act : Compiling α} {a : α}
    (h : Makes (Stands schema settings (nesting ++ [k])) act a) :
    Makes (Stands schema settings nesting) (inside k act) a := by
  intro s b s' hs hy
  unfold Yields at hy
  rw [run_inside] at hy
  have hin : Stands schema settings (nesting ++ [k]) { s with nesting := s.nesting ++ [k] } :=
    ⟨hs.schema, hs.settings, hs.faithful, by rw [hs.nesting]⟩
  rcases hact : act.run { s with nesting := s.nesting ++ [k] } with ⟨r, t⟩
  rw [hact] at hy
  cases hy
  obtain ⟨hb, ht⟩ := h _ b t hin hact
  exact ⟨hb, ht.schema, ht.settings, ht.faithful, by simp [ht.nesting]⟩

theorem always_inside {k : Nesting} {act : Compiling α} {a : α}
    (h : Always (Stands schema settings (nesting ++ [k])) act a) :
    Always (Stands schema settings nesting) (inside k act) a := by
  intro s hs
  have hin : Stands schema settings (nesting ++ [k]) { s with nesting := s.nesting ++ [k] } :=
    ⟨hs.schema, hs.settings, hs.faithful, by rw [hs.nesting]⟩
  obtain ⟨t, hy, ht⟩ := h _ hin
  refine ⟨{ t with nesting := t.nesting.dropLast }, ?_, ht.schema, ht.settings, ht.faithful,
    by simp [ht.nesting]⟩
  unfold Yields
  rw [run_inside, show act.run { s with nesting := s.nesting ++ [k] } = (.ok a, t) from hy]

theorem makes_bound {Good : CompileState → Prop} (name : String) (type : Option String) :
    Makes Good (bound name type) (type.getD "") := by
  cases type with
  | some type => exact makes_pure type
  | none => exact fun _ _ _ _ h => absurd h not_yields_throw

theorem run_entry (key : EntryKey) (s : CompileState) :
    (entry key).run s =
      ((s.table.entry key).1, { s with table := (s.table.entry key).2 }) := by
  change ((get : Compiling CompileState) >>= _).run s = _
  rw [run_bind]
  change ((set { s with table := (s.table.entry key).2 } : Compiling PUnit) >>= fun _ =>
    entry.liftExcept (s.table.entry key).1).run s = _
  rw [run_bind]
  change (entry.liftExcept (s.table.entry key).1).run { s with table := (s.table.entry key).2 } = _
  cases (s.table.entry key).1 <;> rfl

theorem always_entry {key : EntryKey} {e : Entry} (h : Entry.compile schema key = .ok e) :
    Always (Stands schema settings nesting) (entry key) e := by
  intro s hs
  obtain ⟨h1, h2⟩ := hs.entry key
  refine ⟨_, ?_, h2⟩
  unfold Yields
  rw [run_entry, h1, h]

theorem not_yields_entry {key : EntryKey} {e : EntryError} (h : Entry.compile schema key = .error e)
    {s s' : CompileState} {found : Entry} (hs : Stands schema settings nesting s) :
    ¬ Yields (entry key) s found s' := by
  intro hy
  unfold Yields at hy
  rw [run_entry, (hs.entry key).1, h] at hy
  cases hy

theorem makes_variableValue {compound : String → List Node → Compiling Unit}
    (hc : ∀ type children, Makes (Stands schema settings nesting) (compound type children) ())
    (v : Variable) :
    Makes (Stands schema settings nesting) (variableValue compound v) (Grammar.ofValue schema v) := by
  unfold variableValue
  refine (makes_bound v.name v.type).bind ?_
  unfold Grammar.ofValue
  dsimp only
  split
  · exact makes_pure _
  · cases he : Entry.compile schema ⟨v.type.getD "", v.format⟩ with
    | error e =>
      intro s b s' hs hy
      obtain ⟨_, _, hy, _⟩ := yields_bind.mp hy
      exact absurd hy (not_yields_entry he hs)
    | ok e =>
      refine (always_entry he).makes.bind ?_
      cases e with
      | scalar program => exact makes_pure _
      | compound type children => exact (hc type children).bind (makes_pure _)

theorem always_region (name : String) (src : Option String) (body : Grammar) :
    Always (Stands schema settings nesting) (region name src body)
      (Grammar.ofRegion (nesting.flatMap Nesting.margin) name src body) :=
  always_margin.bind (always_pure _)

theorem always_leaf (l : Leaf) :
    Always (Stands schema settings nesting) (leaf l)
      (Grammar.ofLeaf (nesting.flatMap Nesting.margin) l) := by
  cases l with
  | formula name value => exact always_pure _
  | _ => exact always_margin.bind (always_pure _)

theorem makes_inBlocks {each : Compiling (List (Grammar × Bool))} {blocks : List (Grammar × Bool)}
    (h : Makes (Stands schema settings nesting) each blocks) :
    Makes (Stands schema settings nesting) (inBlocks each)
      (Grammar.ofBlocks (nesting.flatMap Nesting.margin) blocks) :=
  always_margin.makes.bind (h.bind (makes_pure _))

section

variable {compound : String → List Node → Compiling Unit} (kind : TemplateKind)

mutual

/-- A node that compiles has the grammar that it has without the state. -/
theorem makes_node (hc : ∀ nesting type children,
      Makes (Stands schema settings nesting) (compound type children) ()) :
    ∀ (n : Node) (nesting : List Nesting), Makes (Stands schema settings nesting)
      (node kind compound n)
      (Grammar.ofNode schema kind settings (nesting.flatMap Nesting.margin) n)
  | .variable v, nesting => by
    rw [node, Grammar.ofNode]
    exact (makes_variableValue (hc nesting) v).bind (makes_pure _)
  | .enumVariable v, nesting => by
    rw [node, Grammar.ofNode]
    exact makes_pure _
  | .formula f, nesting => by
    rw [node, Grammar.ofNode]
    exact makes_pure _
  | .conditional name condition whenTrue whenFalse, nesting => by
    rw [node, Grammar.ofNode]
    refine (makes_inlines hc whenTrue nesting).bind ((makes_inlines hc whenFalse nesting).bind ?_)
    split <;> exact makes_pure _
  | .optional name type whenSome whenNone, nesting => by
    rw [node, Grammar.ofNode]
    exact (makes_bound name type).bind ((always_elementType _).makes.bind
      ((makes_inlines hc whenSome nesting).bind ((makes_inlines hc whenNone nesting).bind
        (makes_pure _))))
  | .within name type children, nesting => by
    rw [node, Grammar.ofNode]
    exact (makes_bound name type).bind ((makes_inlines hc children nesting).bind (makes_pure _))
  | .list name listKind type children, nesting => by
    rw [node, Grammar.ofNode]
    have hitem := makes_inside (makes_inBlocks (makes_each hc children (nesting ++ [.item listKind])))
    rw [flatMap_margin] at hitem
    refine (makes_bound name type).bind (always_margin.makes.bind (hitem.bind ?_))
    refine Makes.get_bind fun s hs => ?_
    rw [hs.settings]
    exact (always_elementType _).makes.bind (makes_pure _)
  | .join name type separator children, nesting => by
    rw [node, Grammar.ofNode]
    exact (makes_bound name type).bind ((makes_inlines hc children nesting).bind
      ((always_elementType _).makes.bind (makes_pure _)))
  | .clause name type src condition children, nesting => by
    rw [node, Grammar.ofNode]
    refine (makes_bound name type).bind ((makes_inBlocks (makes_each hc children nesting)).bind ?_)
    dsimp only
    split
    · refine (always_region name src _).makes.bind (Makes.get_bind fun s hs => ?_)
      rw [hs.settings]
      exact makes_pure _
    · refine (makes_pure _).bind (Makes.get_bind fun s hs => ?_)
      rw [hs.settings]
      exact makes_pure _
  | .contract type children, nesting => by
    rw [node, Grammar.ofNode]
    exact makes_inBlocks (makes_each hc children nesting)
  | .leaf l, nesting => by
    rw [node, Grammar.ofNode]
    exact (always_leaf l).makes
  | .markup (.document data) children, nesting => by
    rw [node, Grammar.ofNode]
    exact makes_inBlocks (makes_each hc children nesting)
  | .markup .item children, nesting => by
    rw [node, Grammar.ofNode]
    exact makes_inBlocks (makes_each hc children nesting)
  | .markup .paragraph children, nesting => by
    rw [node, Grammar.ofNode]
    exact makes_inlines hc children nesting
  | .markup (.heading level) children, nesting => by
    rw [node, Grammar.ofNode]
    exact (makes_inlines hc children nesting).bind (makes_pure _)
  | .markup .blockQuote children, nesting => by
    rw [node, Grammar.ofNode]
    have hbody := makes_inside (makes_inBlocks (makes_each hc children (nesting ++ [.quote])))
    rw [flatMap_margin] at hbody
    exact hbody.bind (makes_pure _)
  | .markup (.list listKind start) children, nesting => by
    rw [node, Grammar.ofNode]
    exact makes_listItems hc listKind [] start.toNat children nesting
  | .markup (.clause name src data) children, nesting => by
    rw [node, Grammar.ofNode]
    exact (makes_inBlocks (makes_each hc children nesting)).bind (always_region name src _).makes
  | .markup .emph children, nesting => by
    rw [node, Grammar.ofNode]
    exact (makes_inlines hc children nesting).bind (makes_pure _)
  | .markup .strong children, nesting => by
    rw [node, Grammar.ofNode]
    exact (makes_inlines hc children nesting).bind (makes_pure _)

theorem makes_each (hc : ∀ nesting type children,
      Makes (Stands schema settings nesting) (compound type children) ()) :
    ∀ (ns : List Node) (nesting : List Nesting), Makes (Stands schema settings nesting)
      (eachBlock kind compound ns)
      (Grammar.ofEach schema kind settings (nesting.flatMap Nesting.margin) ns)
  | [], nesting => by
    rw [eachBlock, Grammar.ofEach]
    exact makes_pure _
  | n :: rest, nesting => by
    rw [eachBlock, Grammar.ofEach]
    exact (makes_node hc n nesting).bind ((makes_each hc rest nesting).bind (makes_pure _))

theorem makes_inlines (hc : ∀ nesting type children,
      Makes (Stands schema settings nesting) (compound type children) ()) :
    ∀ (ns : List Node) (nesting : List Nesting), Makes (Stands schema settings nesting)
      (inlines kind compound ns)
      (Grammar.ofInlines schema kind settings (nesting.flatMap Nesting.margin) ns)
  | [], nesting => by
    rw [inlines, Grammar.ofInlines]
    exact makes_pure _
  | n :: rest, nesting => by
    rw [inlines, Grammar.ofInlines]
    exact (makes_node hc n nesting).bind ((makes_inlines hc rest nesting).bind (makes_pure _))

theorem makes_listItems (hc : ∀ nesting type children,
      Makes (Stands schema settings nesting) (compound type children) ()) (listKind : ListKind) :
    ∀ (lead : List Char) (number : Nat) (ns : List Node) (nesting : List Nesting),
      Makes (Stands schema settings nesting)
      (listItems kind compound listKind lead number ns)
      (Grammar.ofItems schema kind settings (nesting.flatMap Nesting.margin) listKind lead number ns)
  | lead, number, [], nesting => by
    rw [listItems, Grammar.ofItems]
    exact makes_pure _
  | lead, number, n :: rest, nesting => by
    rw [listItems, Grammar.ofItems]
    have hitem := makes_inside (makes_node hc n (nesting ++ [.item listKind]))
    rw [flatMap_margin] at hitem
    refine Makes.get_bind fun s hs => ?_
    rw [hs.settings]
    exact hitem.bind (always_margin.makes.bind
      ((makes_listItems hc listKind _ _ rest nesting).bind (makes_pure _)))

end

/-- Compiling the records of a compound type leaves lines where they stand. -/
theorem makes_compound :
    ∀ (fuel : Nat) (nesting : List Nesting) (type : String) (children : List Node),
      Makes (Stands schema settings nesting) (Compiling.compound kind fuel type children) ()
  | 0, _, _, _ => fun _ _ _ _ h => absurd h not_yields_throw
  | fuel + 1, nesting, type, children => by
    rw [Compiling.compound]
    refine Makes.get_bind fun s hs => ?_
    split
    · exact makes_pure ()
    · intro t u t' _ hy
      obtain ⟨_, t₁, h₁, hrest⟩ := yields_bind.mp hy
      obtain ⟨body, t₂, h₂, h₃⟩ := yields_bind.mp hrest
      obtain rfl := yields_set.mp h₁
      obtain rfl := yields_modify.mp h₃
      have hin : Stands schema settings nesting { s with inProgress := type :: s.inProgress } :=
        ⟨hs.schema, hs.settings, hs.faithful, hs.nesting⟩
      have hyin : Yields (inlines kind (Compiling.compound kind fuel) children)
          { s with inProgress := type :: s.inProgress } body t₂ := by
        unfold Yields at h₂
        rw [run_tryCatch] at h₂
        rcases hact : (inlines kind (Compiling.compound kind fuel) children).run
          { s with inProgress := type :: s.inProgress } with ⟨e | b, t₃⟩
        · rw [hact] at h₂
          exact absurd (yields_bind.mp h₂) fun ⟨_, _, _, h⟩ => not_yields_throw h
        · rw [hact] at h₂
          cases h₂
          exact hact
      obtain ⟨-, ht⟩ := makes_inlines kind (makes_compound fuel) children nesting _ _ _ hin hyin
      exact ⟨rfl, ht.schema, ht.settings, ht.faithful, ht.nesting⟩

end

end Compiling

end ClauseTemplates
