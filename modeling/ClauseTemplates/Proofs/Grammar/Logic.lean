import ClauseTemplates.Grammar.Compile
import ClauseTemplates.Proofs.Effects
import ClauseTemplates.Proofs.Template.Every
import ClauseTemplates.Proofs.Template.Keys
import Mathlib.Tactic.SplitIfs

namespace ClauseTemplates.Compiling

/-- The keys that the use of an entry settles: that of a template of records, which is compiled then. -/
def used (key : EntryKey) : Entry → List EntryKey
  | .scalar _ => []
  | .compound _ _ => [key]

/-- A relation between two compilers that every step keeps. What is known of the blocks' types, of
the keys that are requested and of their entries depends on the relation; it also says which keys
have been requested on the way. -/
structure Logic where
  types : Option String → Prop
  keys : EntryKey → Prop
  entries : EntryKey → Entry → Prop
  Holds : ∀ {α : Type}, List EntryKey → Compiling α → Compiling α → Prop
  pure : ∀ {α : Type} (a : α), Holds [] (pure a) (pure a)
  bind : ∀ {α β : Type} {requested later : List EntryKey} {x y : Compiling α}
    {f g : α → Compiling β}, Holds requested x y → (∀ a, Holds later (f a) (g a)) →
    Holds (requested ++ later) (x >>= f) (y >>= g)
  unbound : ∀ {α : Type} (requested : List EntryKey) (name : String), types none →
    Holds requested (throw (.unbound name) : Compiling α) (throw (.unbound name))
  margin : Holds [] margin margin
  elementType : ∀ type, Holds [] (elementType type) (elementType type)
  settings : ∀ {α : Type} {requested : List EntryKey} {f g : Settings → Compiling α},
    (∀ s, Holds requested (f s) (g s)) →
    Holds requested (get >>= fun s => f s.table.settings) (get >>= fun s => g s.table.settings)
  inside : ∀ {α : Type} {requested : List EntryKey} {x y : Compiling α} (k : Nesting),
    Holds requested x y → Holds requested (inside k x) (inside k y)
  entry : ∀ {α : Type} {key : EntryKey} {f g : Entry → Compiling α}, keys key →
    (∀ e, entries key e → Holds (used key e) (f e) (g e)) →
    Holds [key] (entry key >>= f) (entry key >>= g)

namespace Logic

variable (L : Logic) {α β : Type} {requested later : List EntryKey}

theorem map {x y : Compiling α} (h : L.Holds requested x y) (f : α → β) :
    L.Holds requested (x >>= fun a => Pure.pure (f a)) (y >>= fun a => Pure.pure (f a)) := by
  have hb := L.bind h fun a => L.pure (f a)
  rwa [List.append_nil] at hb

theorem after {x y : Compiling α} {f g : α → Compiling β} (h : L.Holds requested x y)
    (hf : ∀ a, L.Holds [] (f a) (g a)) : L.Holds requested (x >>= f) (y >>= g) := by
  have hb := L.bind h hf
  rwa [List.append_nil] at hb

theorem before {x y : Compiling α} {f g : α → Compiling β} (h : L.Holds [] x y)
    (hf : ∀ a, L.Holds requested (f a) (g a)) : L.Holds requested (x >>= f) (y >>= g) :=
  L.bind h hf

theorem bound {type : Option String} (name : String) {f g : String → Compiling α}
    (htype : L.types type) (h : ∀ found, type = some found → L.Holds requested (f found) (g found)) :
    L.Holds requested (Compiling.bound name type >>= f) (Compiling.bound name type >>= g) := by
  cases type with
  | none => exact L.unbound requested name htype
  | some type => exact h type rfl

variable {L} {compound compound' : String → List Node → Compiling Unit}

theorem variableValue (hc : ∀ key type children, L.keys key →
      L.entries key (.compound type children) →
      L.Holds [key] (compound type children) (compound' type children))
    {v : Variable} (htype : L.types v.type) (hkeys : ∀ key ∈ (Node.variable v).keys, L.keys key) :
    L.Holds (Node.variable v).keys (Compiling.variableValue compound v)
      (Compiling.variableValue compound' v) := by
  unfold Compiling.variableValue
  refine L.bound v.name htype fun type hv => ?_
  rw [Node.keys] at hkeys ⊢
  split_ifs at hkeys ⊢ with hid
  · exact L.pure _
  · rw [hv] at hkeys ⊢
    refine L.entry (hkeys _ (by simp)) fun e he => ?_
    cases e with
    | scalar program => exact L.pure _
    | compound found children =>
      exact L.map (hc _ found children (hkeys _ (by simp)) he) _

/-- The types that the blocks carry. -/
def Fits (L : Logic) : Node → Prop
  | .variable v => L.types v.type
  | .optional _ type _ _ => L.types type
  | .within _ type _ => L.types type
  | .list _ _ type _ => L.types type
  | .join _ type _ _ => L.types type
  | .clause _ type _ _ _ => L.types type
  | _ => True

theorem region (name : String) (src : Option String) (body : Grammar) :
    L.Holds [] (Compiling.region name src body) (Compiling.region name src body) :=
  L.map L.margin _

theorem leaf (l : Leaf) : L.Holds [] (Compiling.leaf l) (Compiling.leaf l) := by
  cases l with
  | formula => exact L.pure _
  | _ => exact L.map L.margin _

theorem inBlocks {x y : Compiling (List (Grammar × Bool))} (h : L.Holds requested x y) :
    L.Holds requested (Compiling.inBlocks x) (Compiling.inBlocks y) :=
  L.before L.margin fun _ => L.map h _

section

variable (kind : TemplateKind)

mutual

/-- Compilers of a node are related if what they do for records is. -/
theorem node (hc : ∀ key type children, L.keys key →
      L.entries key (.compound type children) →
      L.Holds [key] (compound type children) (compound' type children)) :
    ∀ n : Node, n.Every L.Fits → (∀ key ∈ n.keys, L.keys key) →
    L.Holds n.keys (Compiling.node kind compound n) (Compiling.node kind compound' n)
  | .variable v, ht, hk => by
    rw [Compiling.node, Compiling.node]
    exact L.map (variableValue hc ht hk) _
  | .enumVariable v, _, _ => by
    rw [Compiling.node, Compiling.node]
    exact L.pure _
  | .formula f, _, _ => by
    rw [Compiling.node, Compiling.node]
    exact L.pure _
  | .conditional name condition whenTrue whenFalse, ⟨_, ht, hf⟩, hk => by
    rw [Node.keys] at hk ⊢
    rw [Compiling.node, Compiling.node]
    refine L.bind (inlines hc whenTrue ht fun key h => hk key (List.mem_append_left _ h)) fun a =>
      L.after (inlines hc whenFalse hf fun key h => hk key (List.mem_append_right _ h)) fun b => ?_
    split_ifs
    · exact L.pure _
    · exact L.pure _
  | .optional name type whenSome whenNone, ⟨htype, hs, hn⟩, hk => by
    rw [Node.keys] at hk ⊢
    rw [Compiling.node, Compiling.node]
    refine L.bound name htype fun _ _ => L.before (L.elementType _) fun _ => ?_
    exact L.bind (inlines hc whenSome hs fun key h => hk key (List.mem_append_left _ h)) fun _ =>
      L.map (inlines hc whenNone hn fun key h => hk key (List.mem_append_right _ h)) _
  | .within name type children, ⟨htype, h⟩, hk => by
    rw [Node.keys] at hk ⊢
    rw [Compiling.node, Compiling.node]
    exact L.bound name htype fun _ _ => L.map (inlines hc children h hk) _
  | .list name listKind type children, ⟨htype, h⟩, hk => by
    rw [Node.keys] at hk ⊢
    rw [Compiling.node, Compiling.node]
    refine L.bound name htype fun _ _ => L.before L.margin fun _ => ?_
    refine L.after (L.inside _ (inBlocks (eachBlock hc children h hk))) fun _ => ?_
    exact L.settings (f := fun s => do
      let element ← Compiling.elementType _
      Pure.pure (Grammar.slot name (.items (Markdown.newline _) true (.element element
        (.seq (listMark s.bullet listKind) _))))) fun _ => L.map (L.elementType _) _
  | .join name type separator children, ⟨htype, h⟩, hk => by
    rw [Node.keys] at hk ⊢
    rw [Compiling.node, Compiling.node]
    refine L.bound name htype fun _ _ => L.after (inlines hc children h hk) fun _ => ?_
    exact L.map (L.elementType _) _
  | .clause name type src condition children, ⟨htype, h⟩, hk => by
    rw [Node.keys] at hk ⊢
    rw [Compiling.node, Compiling.node]
    refine L.bound name htype fun _ _ => L.after (inBlocks (eachBlock hc children h hk)) fun body => ?_
    have hsettings (type : String) (body : Grammar) :
        L.Holds [] (do Pure.pure (Grammar.slot name (.record type
            (some (← get).table.settings.clauseIdentifier) body)))
          (do Pure.pure (Grammar.slot name (.record type
            (some (← get).table.settings.clauseIdentifier) body))) :=
      L.settings (f := fun s => Pure.pure (Grammar.slot name (.record type
        (some s.clauseIdentifier) body))) fun _ => L.pure _
    dsimp only
    split_ifs
    · exact L.before (region name src body) fun _ => hsettings _ _
    · exact hsettings _ _
  | .contract type children, ⟨_, h⟩, hk => by
    rw [Node.keys] at hk ⊢
    rw [Compiling.node, Compiling.node]
    exact inBlocks (eachBlock hc children h hk)
  | .leaf l, _, _ => by
    rw [Compiling.node, Compiling.node]
    exact leaf l
  | .markup frame children, ⟨_, h⟩, hk => by
    rw [Node.keys] at hk ⊢
    cases frame with
    | document | item =>
      rw [Compiling.node, Compiling.node]
      exact inBlocks (eachBlock hc children h hk)
    | paragraph =>
      rw [Compiling.node, Compiling.node]
      exact inlines hc children h hk
    | heading | emph | strong =>
      rw [Compiling.node, Compiling.node]
      exact L.map (inlines hc children h hk) _
    | blockQuote =>
      rw [Compiling.node, Compiling.node]
      exact L.map (L.inside _ (inBlocks (eachBlock hc children h hk))) _
    | list listKind start =>
      rw [Compiling.node, Compiling.node]
      exact listItems hc listKind _ _ children h hk
    | clause name src data =>
      rw [Compiling.node, Compiling.node]
      exact L.after (inBlocks (eachBlock hc children h hk)) fun _ => region name src _

theorem eachBlock (hc : ∀ key type children, L.keys key →
      L.entries key (.compound type children) →
      L.Holds [key] (compound type children) (compound' type children)) :
    ∀ ns : List Node, Node.EveryAll L.Fits ns → (∀ key ∈ Node.keysAll ns, L.keys key) →
    L.Holds (Node.keysAll ns) (Compiling.eachBlock kind compound ns)
      (Compiling.eachBlock kind compound' ns)
  | [], _, _ => by
    rw [Compiling.eachBlock, Compiling.eachBlock]
    exact L.pure _
  | n :: rest, ⟨hn, hrest⟩, hk => by
    rw [Node.keysAll] at hk ⊢
    rw [Compiling.eachBlock, Compiling.eachBlock]
    exact L.bind (node hc n hn fun key h => hk key (List.mem_append_left _ h)) fun _ =>
      L.map (eachBlock hc rest hrest fun key h => hk key (List.mem_append_right _ h)) _

theorem inlines (hc : ∀ key type children, L.keys key →
      L.entries key (.compound type children) →
      L.Holds [key] (compound type children) (compound' type children)) :
    ∀ ns : List Node, Node.EveryAll L.Fits ns → (∀ key ∈ Node.keysAll ns, L.keys key) →
    L.Holds (Node.keysAll ns) (Compiling.inlines kind compound ns)
      (Compiling.inlines kind compound' ns)
  | [], _, _ => by
    rw [Compiling.inlines, Compiling.inlines]
    exact L.pure _
  | n :: rest, ⟨hn, hrest⟩, hk => by
    rw [Node.keysAll] at hk ⊢
    rw [Compiling.inlines, Compiling.inlines]
    exact L.bind (node hc n hn fun key h => hk key (List.mem_append_left _ h)) fun _ =>
      L.map (inlines hc rest hrest fun key h => hk key (List.mem_append_right _ h)) _

theorem listItems (hc : ∀ key type children, L.keys key →
      L.entries key (.compound type children) →
      L.Holds [key] (compound type children) (compound' type children))
    (listKind : ListKind) : ∀ (lead : List Char) (number : Nat) (ns : List Node),
    Node.EveryAll L.Fits ns → (∀ key ∈ Node.keysAll ns, L.keys key) →
    L.Holds (Node.keysAll ns) (Compiling.listItems kind compound listKind lead number ns)
      (Compiling.listItems kind compound' listKind lead number ns)
  | lead, number, [], _, _ => by
    rw [Compiling.listItems, Compiling.listItems]
    exact L.pure _
  | lead, number, n :: rest, ⟨hn, hrest⟩, hk => by
    rw [Node.keysAll] at hk ⊢
    rw [Compiling.listItems, Compiling.listItems]
    have hcontent := L.inside (.item listKind)
      (node hc n hn fun key h => hk key (List.mem_append_left _ h))
    have hlater (lead : List Char) := listItems hc listKind lead (number + 1) rest hrest
      fun key h => hk key (List.mem_append_right _ h)
    have hall (mark : List Char) := L.bind hcontent fun content => L.before L.margin fun outer =>
      L.map (hlater (Markdown.newline outer)) fun rest =>
        Grammar.concat [.text (lead ++ mark), content, rest]
    exact L.settings fun s => hall (Markdown.itemMark s.bullet listKind number)

end

end

end Logic

end ClauseTemplates.Compiling
