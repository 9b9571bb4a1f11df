import ClauseTemplates.Drafting
import ClauseTemplates.Proofs.Effects
import ClauseTemplates.Proofs.Template.Typed
import Mathlib.Tactic.SplitIfs

namespace ClauseTemplates.Drafting

/-- A relation between two drafters that every step keeps. What is known of the blocks and of the
entries of their variables depends on the relation. -/
structure Logic where
  Fits : Node → Prop
  entries : EntryKey → Entry → Prop
  Holds : ∀ {α : Type}, Drafting α → Drafting α → Prop
  pure : ∀ {α : Type} (a : α), Holds (pure a) (pure a)
  bind : ∀ {α β : Type} {x y : Drafting α} {f g : α → Drafting β}, Holds x y →
    (∀ a, Holds (f a) (g a)) → Holds (x >>= f) (y >>= g)
  fail : ∀ {α : Type} (e : DraftError), Holds (fail e : Drafting α) (fail e)
  unbound : ∀ {α : Type} (v : Variable), Fits (.variable v) → v.type = none →
    Holds (throw (.registry (.unbound v.name)) : Drafting α) (throw (.registry (.unbound v.name)))
  unread : ∀ {α : Type} {n : Node} {code : String} {e : ExpressionError}, Fits n →
    n.code? = some code → Expression.read code = .error e →
    Holds (throw (.expression e) : Drafting α) (throw (.expression e))
  freshIdentifier : Holds freshIdentifier freshIdentifier
  ignored : ∀ {branch branch' : Drafting (List Doc)}, Holds branch branch' →
    Holds (ignored branch) (ignored branch')
  schema : ∀ {α : Type} {f g : Schema → Drafting α}, (∀ schema, Holds (f schema) (g schema)) →
    Holds (get >>= fun s => f s.table.schema) (get >>= fun s => g s.table.schema)
  settings : ∀ {α : Type} {f g : Settings → Drafting α},
    (∀ settings, Holds (f settings) (g settings)) →
    Holds (get >>= fun s => f s.table.settings) (get >>= fun s => g s.table.settings)
  entry : ∀ {α : Type} {v : Variable} {type : String} {f g : Entry → Drafting α},
    Fits (.variable v) → v.identifiedBy = none → v.type = some type →
    (∀ e, entries ⟨type, v.format⟩ e → Holds (f e) (g e)) →
    Holds (entry ⟨type, v.format⟩ >>= f) (entry ⟨type, v.format⟩ >>= g)

namespace Logic

variable (L : Logic) {α β : Type}

theorem map {x y : Drafting α} (h : L.Holds x y) (f : α → β) :
    L.Holds (x >>= fun a => Pure.pure (f a)) (y >>= fun a => Pure.pure (f a)) :=
  L.bind h fun a => L.pure (f a)

theorem required (scope : Json) (name : String) :
    L.Holds (required scope name) (required scope name) := by
  unfold Drafting.required
  split
  · exact L.pure _
  · exact L.fail _

theorem array (scope : Json) (name : String) : L.Holds (array scope name) (array scope name) := by
  unfold Drafting.array
  refine L.bind (L.required scope name) fun value => ?_
  split
  · exact L.pure _
  · exact L.fail _

theorem object (scope : Json) (name : String) :
    L.Holds (object scope name) (object scope name) := by
  unfold Drafting.object
  refine L.bind (L.required scope name) fun value => ?_
  split_ifs
  · exact L.pure _
  · exact L.fail _

theorem record (value : Json) (type : Option String) (identifier : String) :
    L.Holds (record value type identifier) (record value type identifier) := by
  unfold Drafting.record
  split
  · exact L.map L.freshIdentifier _
  · exact L.pure _

/-- Code that is evaluated stands in a node. -/
theorem evaluate {n : Node} {code : String} (hn : L.Fits n) (hcode : n.code? = some code)
    (name : String) (data : Json) (now : Instant) :
    L.Holds (evaluate name code data now) (evaluate name code data now) := by
  unfold Drafting.evaluate
  split
  · rename_i e he
    exact L.unread hn hcode he
  · split
    · exact L.pure _
    · exact L.fail _

theorem enumVariable (v : EnumVariable) (scope : Json) :
    L.Holds (enumVariable v scope) (enumVariable v scope) := by
  unfold Drafting.enumVariable
  refine L.bind (L.required scope v.name) fun value => ?_
  dsimp only
  split
  · split_ifs
    · exact L.pure _
    · exact L.fail _
  · exact L.fail _

theorem forItems {each each' : Json → Drafting α} (h : ∀ item, L.Holds (each item) (each' item)) :
    ∀ items : List Json, L.Holds (forItems each items) (forItems each' items) := by
  intro items
  induction items with
  | nil => exact L.pure []
  | cons item rest hrest =>
    unfold Drafting.forItems
    exact L.bind (h item) fun made => L.map hrest _

variable {compound compound' : String → List Node → Json → Drafting (List Doc)}

theorem variableDocs (hc : ∀ key type children value, L.entries key (.compound type children) →
      L.Holds (compound type children value) (compound' type children value))
    {v : Variable} (hv : L.Fits (.variable v)) (scope : Json) :
    L.Holds (variableDocs compound v scope) (variableDocs compound' v scope) := by
  unfold Drafting.variableDocs
  cases htype : v.type with
  | none => exact L.unbound v hv htype
  | some type =>
    refine L.bind (L.required scope v.name) fun value => ?_
    by_cases hid : v.identifiedBy.isSome = true
    · rw [if_pos hid, if_pos hid]
      split
      · exact L.pure _
      · exact L.fail _
    · rw [if_neg hid, if_neg hid]
      refine L.entry hv (Option.not_isSome_iff_eq_none.mp hid) htype fun e he => ?_
      cases e with
      | scalar program =>
        dsimp only
        split
        · exact L.pure _
        · exact L.fail _
      | compound found children =>
        dsimp only
        split_ifs
        · exact hc _ found children value he
        · exact L.fail _

theorem isLive (context : DraftContext) {name : String} {condition : Option String}
    {whenTrue whenFalse : List Node}
    (hn : L.Fits (.conditional name condition whenTrue whenFalse)) (scope : Json) :
    L.Holds (isLive context name condition scope) (isLive context name condition scope) := by
  unfold Drafting.isLive
  split
  · exact L.map (L.evaluate hn rfl name scope context.now) _
  · refine L.bind (L.required scope name) fun value => ?_
    split
    · exact L.pure _
    · exact L.fail _

section

variable (context : DraftContext)

mutual

/-- Drafters of a node are related if those of records are. -/
theorem node (hc : ∀ key type children value, L.entries key (.compound type children) →
      L.Holds (compound type children value) (compound' type children value)) :
    ∀ (n : Node) (scope : Json), n.Every L.Fits →
      L.Holds (node context compound n scope) (node context compound' n scope)
  | .variable v, scope, h => by
    rw [Drafting.node, Drafting.node]
    exact L.variableDocs hc h scope
  | .enumVariable v, scope, _ => by
    rw [Drafting.node, Drafting.node]
    exact L.enumVariable v scope
  | .formula f, scope, h => by
    rw [Drafting.node, Drafting.node]
    exact L.map (L.evaluate (n := .formula f) h rfl f.name context.data context.now) _
  | .conditional name condition whenTrue whenFalse, scope, ⟨h, ht, hf⟩ => by
    rw [Drafting.node, Drafting.node]
    have hwhenTrue := nodes hc whenTrue scope ht
    have hwhenFalse := nodes hc whenFalse .null hf
    refine L.bind (L.isLive context h scope) fun live => ?_
    split_ifs
    · exact L.bind (L.ignored hwhenFalse) fun _ => hwhenTrue
    · exact L.bind (L.ignored hwhenTrue) fun _ => hwhenFalse
  | .optional name type whenSome whenNone, scope, ⟨_, hs, hn⟩ => by
    rw [Drafting.node, Drafting.node]
    have hwhenNone := nodes hc whenNone .null hn
    split
    · exact nodes hc whenSome _ hs
    · split
      · rename_i type _
        let each (compound : String → List Node → Json → Drafting (List Doc)) (schema : Schema) := do
          Drafting.ignored (Drafting.nodes context compound whenSome (placeholder schema type))
          Drafting.nodes context compound whenNone .null
        refine L.schema (f := each compound) (g := each compound') fun schema => ?_
        exact L.bind (L.ignored (nodes hc whenSome (placeholder schema type) hs)) fun _ => hwhenNone
      · exact hwhenNone
  | .within name type children, scope, ⟨_, h⟩ => by
    rw [Drafting.node, Drafting.node]
    exact L.bind (L.object scope name) fun value => nodes hc children value h
  | .list name kind type children, scope, ⟨_, h⟩ => by
    rw [Drafting.node, Drafting.node]
    have hitems := L.forItems fun item => nodes hc children item h
    refine L.bind (L.array scope name) fun items => ?_
    split_ifs
    · exact L.bind (L.fail _) fun _ => L.map (hitems items) _
    · exact L.map (hitems items) _
  | .join name type separator children, scope, ⟨_, h⟩ => by
    rw [Drafting.node, Drafting.node]
    refine L.bind (L.array scope name) fun items => ?_
    exact L.map (L.forItems (fun item => nodes hc children item h) items) _
  | .clause name type src condition children, scope, ⟨hn, h⟩ => by
    rw [Drafting.node, Drafting.node]
    refine L.bind (L.object scope name) fun value => ?_
    let rest (compound : String → List Node → Json → Drafting (List Doc)) (shown : Bool) :
        Drafting (List Doc) := do
      if !shown then Pure.pure []
      else
        let docs ← Drafting.nodes context compound children value
        match context.kind with
        | .clause => Pure.pure docs
        | .contract =>
          let identifier := (← get).table.settings.clauseIdentifier
          Pure.pure [.node (.clause name src
            (some (← Drafting.record value type identifier))) docs]
    have hrest (shown : Bool) : L.Holds (rest compound shown) (rest compound' shown) := by
      dsimp only [rest]
      split_ifs
      · exact L.pure []
      · refine L.bind (nodes hc children value h) fun docs => ?_
        split
        · exact L.pure docs
        · let close (settings : Settings) : Drafting (List Doc) := do
            Pure.pure [Doc.node (.clause name src
              (some (← Drafting.record value type settings.clauseIdentifier))) docs]
          exact L.settings (f := close) (g := close) fun settings =>
            L.map (L.record value type settings.clauseIdentifier) _
    cases condition with
    | none => exact hrest true
    | some code =>
      exact L.bind (L.evaluate hn rfl name value context.now) fun value => hrest value.truthy
  | .contract type children, scope, ⟨_, h⟩ => by
    rw [Drafting.node, Drafting.node]
    exact nodes hc children scope h
  | .leaf l, scope, _ => by
    rw [Drafting.node, Drafting.node]
    exact L.pure _
  | .markup frame children, scope, ⟨_, h⟩ => by
    rw [Drafting.node, Drafting.node]
    exact L.map (nodes hc children scope h) _

theorem nodes (hc : ∀ key type children value, L.entries key (.compound type children) →
      L.Holds (compound type children value) (compound' type children value)) :
    ∀ (ns : List Node) (scope : Json), Node.EveryAll L.Fits ns →
      L.Holds (nodes context compound ns scope) (nodes context compound' ns scope)
  | [], scope, _ => by
    rw [Drafting.nodes, Drafting.nodes]
    exact L.pure []
  | n :: rest, scope, ⟨hn, hrest⟩ => by
    rw [Drafting.nodes, Drafting.nodes]
    exact L.bind (node hc n scope hn) fun docs => L.map (nodes hc rest scope hrest) _

end

end

end Logic

end ClauseTemplates.Drafting
