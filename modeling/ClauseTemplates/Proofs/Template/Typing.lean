import ClauseTemplates.Proofs.Markup.Unbound
import ClauseTemplates.Proofs.Template.Equality

namespace ClauseTemplates

/-- The value that names are looked up in: a single one of a type, or an array of them. -/
structure Holder where
  type : String
  array : Bool

/-- Single values have the properties that are declared for their type. -/
def Holder.Has (schema : Schema) (h : Holder) (name : String) (p : Property) : Prop :=
  h.array = false ∧ name ≠ thisName ∧
    ∃ d, schema.find? h.type = some d ∧ d.property? name = some p

/-- What a name stands for: the value itself, or one of its properties. -/
inductive Holder.Denotes (schema : Schema) (h : Holder) : String → Holder → Prop
  | this : Denotes schema h thisName h
  | property {name : String} {p : Property} : h.Has schema name p →
      Denotes schema h name ⟨p.type, p.array⟩

/-- A value of the type, as it stands in an array. -/
def Holder.element (h : Holder) : Holder := ⟨h.type, false⟩

namespace Node

mutual

/-- The types of a node and of the nodes inside it are those that the names denote. In a branch for
an absent value there is no value to look names up in. -/
inductive Typing (schema : Schema) : Option Holder → Node → Prop
  | variable {h m : Holder} {v : Variable} : h.Denotes schema v.name m → m.array = false →
      v.type = some m.type → Typing schema (some h) (.variable v)
  | enumVariable {h m : Holder} {v : EnumVariable} : h.Denotes schema v.name m → m.array = false →
      v.type = m.type → Typing schema (some h) (.enumVariable v)
  | formula (scope : Option Holder) (f : Formula) : Typing schema scope (.formula f)
  | flag {h : Holder} {name : String} {whenTrue whenFalse : List Node} :
      h.Denotes schema name ⟨"Boolean", false⟩ → TypingAll schema (some h) whenTrue →
      TypingAll schema none whenFalse →
      Typing schema (some h) (.conditional name none whenTrue whenFalse)
  | condition {scope : Option Holder} (name code : String) {whenTrue whenFalse : List Node} :
      TypingAll schema scope whenTrue → TypingAll schema none whenFalse →
      Typing schema scope (.conditional name (some code) whenTrue whenFalse)
  | optional {h : Holder} {p : Property} {name : String} {whenSome whenNone : List Node} :
      h.Has schema name p → p.optional = true → TypingAll schema (some ⟨p.type, p.array⟩) whenSome →
      TypingAll schema none whenNone →
      Typing schema (some h) (.optional name (some p.type) whenSome whenNone)
  | within {h m : Holder} {name : String} {children : List Node} : h.Denotes schema name m →
      m.array = false → TypingAll schema (some m) children →
      Typing schema (some h) (.within name (some m.type) children)
  | list {h m : Holder} {name : String} (kind : ListKind) {children : List Node} :
      h.Denotes schema name m → m.array = true → TypingAll schema (some m.element) children →
      Typing schema (some h) (.list name kind (some m.type) children)
  | join {h m : Holder} {name : String} (separator : String) {children : List Node} :
      h.Denotes schema name m → m.array = true → TypingAll schema (some m.element) children →
      Typing schema (some h) (.join name (some m.type) separator children)
  | clause {h m : Holder} {name : String} (src condition : Option String) {children : List Node} :
      h.Denotes schema name m → m.array = false → TypingAll schema (some m) children →
      Typing schema (some h) (.clause name (some m.type) src condition children)
  | leaf (scope : Option Holder) (l : Leaf) : Typing schema scope (.leaf l)
  | markup {scope : Option Holder} (frame : Frame) {children : List Node} :
      TypingAll schema scope children → Typing schema scope (.markup frame children)

inductive TypingAll (schema : Schema) : Option Holder → List Node → Prop
  | nil (scope : Option Holder) : TypingAll schema scope []
  | cons {scope : Option Holder} {n : Node} {rest : List Node} : Typing schema scope n →
      TypingAll schema scope rest → TypingAll schema scope (n :: rest)

end

mutual

/-- The node without what binding fills in. Variables of enumerations are variables again. -/
def forget : Node → Node
  | .variable v => .variable (.unbound v.name none)
  | .enumVariable v => .variable (.unbound v.name none)
  | .formula f => .formula f
  | .conditional name condition whenTrue whenFalse =>
    .conditional name condition (forgetAll whenTrue) (forgetAll whenFalse)
  | .optional name _ whenSome whenNone =>
    .optional name none (forgetAll whenSome) (forgetAll whenNone)
  | .within name _ children => .within name none (forgetAll children)
  | .list name kind _ children => .list name kind none (forgetAll children)
  | .join name _ separator children => .join name none separator (forgetAll children)
  | .clause name _ src condition children => .clause name none src condition (forgetAll children)
  | .contract _ children => .contract none (forgetAll children)
  | .leaf l => .leaf l
  | .markup frame children => .markup frame (forgetAll children)

def forgetAll : List Node → List Node
  | [] => []
  | n :: rest => forget n :: forgetAll rest

end

/-- Nodes that look a name up. A condition to evaluate has a name that is made for it. -/
def NamesProperty : Node → Prop
  | .variable _ => True
  | .enumVariable _ => True
  | .formula _ => False
  | .conditional _ condition _ _ => condition = none
  | .optional _ _ _ _ => True
  | .within _ _ _ => True
  | .list _ _ _ _ => True
  | .join _ _ _ _ => True
  | .clause _ _ _ _ _ => True
  | .contract _ _ => False
  | .leaf _ => False
  | .markup _ _ => False

/-- The branch for a condition that does not hold or a value that is absent. -/
def elseBranch : Node → List Node
  | .conditional _ _ _ whenFalse => whenFalse
  | .optional _ _ _ whenNone => whenNone
  | _ => []

/-- No node in the else branch of this one names a property. -/
def ElseNameless (n : Node) : Prop := EveryAll (fun m => ¬ m.NamesProperty) n.elseBranch

variable {schema : Schema}

mutual

/-- Nothing can be named where there is no value. -/
theorem Typing.nameless : ∀ {n : Node}, Typing schema none n → n.Every fun m => ¬ m.NamesProperty
  | .formula _, _ => id
  | .leaf _, _ => id
  | .conditional _ (some _) _ _, .condition _ _ ht hf => ⟨nofun, ht.nameless, hf.nameless⟩
  | .markup _ _, .markup _ hc => ⟨id, hc.nameless⟩

theorem TypingAll.nameless : ∀ {ns : List Node}, TypingAll schema none ns →
    EveryAll (fun m => ¬ m.NamesProperty) ns
  | [], _ => trivial
  | _ :: _, .cons hn hrest => ⟨hn.nameless, hrest.nameless⟩

end

mutual

theorem Typing.elseNameless : ∀ {scope : Option Holder} {n : Node}, Typing schema scope n →
    n.Every ElseNameless
  | _, _, .variable _ _ _ => trivial
  | _, _, .enumVariable _ _ _ => trivial
  | _, _, .formula _ _ => trivial
  | _, _, .flag _ ht hf => ⟨hf.nameless, ht.elseNameless, hf.elseNameless⟩
  | _, _, .condition _ _ ht hf => ⟨hf.nameless, ht.elseNameless, hf.elseNameless⟩
  | _, _, .optional _ _ hs hn => ⟨hn.nameless, hs.elseNameless, hn.elseNameless⟩
  | _, _, .within _ _ hc => ⟨trivial, hc.elseNameless⟩
  | _, _, .list _ _ _ hc => ⟨trivial, hc.elseNameless⟩
  | _, _, .join _ _ _ hc => ⟨trivial, hc.elseNameless⟩
  | _, _, .clause _ _ _ _ hc => ⟨trivial, hc.elseNameless⟩
  | _, _, .leaf _ _ => trivial
  | _, _, .markup _ hc => ⟨trivial, hc.elseNameless⟩

theorem TypingAll.elseNameless : ∀ {scope : Option Holder} {ns : List Node},
    TypingAll schema scope ns → EveryAll ElseNameless ns
  | _, _, .nil _ => trivial
  | _, _, .cons hn hrest => ⟨hn.elseNameless, hrest.elseNameless⟩

end

end Node

/-- The value that a target stands for, as a holder of names. -/
def Target.holder (t : Target) : Holder := ⟨t.type, t.array⟩

namespace Binding

open Node

variable {schema : Schema}

theorem has_of_resolve {s t : Target} {name : String} (h : resolve schema (some s) name = .ok t)
    (hname : name ≠ thisName) :
    ∃ p, s.holder.Has schema name p ∧ t = Target.ofProperty schema p := by
  obtain ⟨harray, d, p, hd, hp, rfl⟩ := resolve_property h hname
  exact ⟨p, ⟨harray, hname, d, hd, hp⟩, rfl⟩

/-- Names are resolved to what they denote. -/
theorem denotes_of_resolve {scope : Option Target} {t : Target} {name : String}
    (h : resolve schema scope name = .ok t) :
    ∃ s, scope = some s ∧ s.holder.Denotes schema name t.holder := by
  cases scope with
  | none => cases h
  | some s =>
    by_cases hname : name = thisName
    · subst hname
      cases h
      exact ⟨_, rfl, .this⟩
    · obtain ⟨p, hp, rfl⟩ := has_of_resolve h hname
      exact ⟨s, rfl, .property hp⟩

/-- Only a property is optional: whatever `this` stands for is there. -/
theorem has_of_optional {s t : Target} {name : String} (h : resolve schema (some s) name = .ok t)
    (hs : s.optional = false) (ht : t.optional = true) :
    ∃ p, s.holder.Has schema name p ∧ p.optional = true ∧ t = Target.ofProperty schema p := by
  have hname : name ≠ thisName := by
    rintro rfl
    cases h
    rw [hs] at ht
    cases ht
  obtain ⟨p, hp, rfl⟩ := has_of_resolve h hname
  exact ⟨p, hp, ht, rfl⟩

/-- A scope that names can be looked up in and whose value is there. -/
def Present (scope : Option Target) : Prop := ∀ s ∈ scope, s.optional = false

theorem present_none : Present none := nofun

theorem present_some {s : Target} (h : s.optional = false) : Present (some s) := by
  rintro _ ⟨⟩
  exact h

theorem holder_element {t : Target} (h : t.array = false) : t.element.holder = t.holder := by
  unfold Target.element Target.holder
  rw [h]

theorem holder_of_boolean {t : Target} (harray : t.array = false) (htype : t.type = "Boolean") :
    t.holder = ⟨"Boolean", false⟩ := by
  unfold Target.holder
  rw [harray, htype]

mutual

/-- Binding gives every node the type that its name denotes. -/
theorem typing_binds : ∀ {scope : Option Target} {n m : Node}, Binds schema scope n m →
    Present scope → n.Every Unbound → m.Typing schema (scope.map Target.holder)
  | _, _, _, .variable _ _ ht harray _, _, _ => by
    obtain ⟨s, rfl, hdenotes⟩ := denotes_of_resolve ht
    exact .variable hdenotes harray rfl
  | _, _, _, .enumerated _ ht harray, _, _ => by
    obtain ⟨s, rfl, hdenotes⟩ := denotes_of_resolve ht
    exact .enumVariable hdenotes harray rfl
  | _, _, _, .formula _ f, _, _ => .formula _ f
  | _, _, _, .flag ht harray htype ha hb, hp, ⟨_, hwt, hwf⟩ => by
    obtain ⟨s, rfl, hdenotes⟩ := denotes_of_resolve ht
    rw [holder_of_boolean harray htype] at hdenotes
    exact .flag hdenotes (typingAll_binds ha hp hwt) (typingAll_binds hb present_none hwf)
  | _, _, _, .condition name code ha hb, hp, ⟨_, hwt, hwf⟩ =>
    .condition name code (typingAll_binds ha hp hwt) (typingAll_binds hb present_none hwf)
  | _, _, _, .optional _ ht hoptional ha hb, hp, ⟨_, hws, hwn⟩ => by
    obtain ⟨s, rfl, _⟩ := denotes_of_resolve ht
    obtain ⟨p, hhas, hp, rfl⟩ := has_of_optional ht (hp s rfl) hoptional
    exact .optional hhas hp (typingAll_binds ha (present_some rfl) hws)
      (typingAll_binds hb present_none hwn)
  | _, _, _, .within _ ht harray ha, _, ⟨_, hc⟩ => by
    obtain ⟨s, rfl, hdenotes⟩ := denotes_of_resolve ht
    have hchildren := typingAll_binds ha (present_some rfl) hc
    rw [Option.map_some, holder_element harray] at hchildren
    exact .within hdenotes harray hchildren
  | _, _, _, .list kind _ ht harray ha, _, ⟨_, hc⟩ => by
    obtain ⟨s, rfl, hdenotes⟩ := denotes_of_resolve ht
    exact .list kind hdenotes harray (typingAll_binds ha (present_some rfl) hc)
  | _, _, _, .join _ separator ht harray ha, _, ⟨_, hc⟩ => by
    obtain ⟨s, rfl, hdenotes⟩ := denotes_of_resolve ht
    exact .join separator hdenotes harray (typingAll_binds ha (present_some rfl) hc)
  | _, _, _, .clause _ src condition ht harray ha, _, ⟨_, hc⟩ => by
    obtain ⟨s, rfl, hdenotes⟩ := denotes_of_resolve ht
    have hchildren := typingAll_binds ha (present_some rfl) hc
    rw [Option.map_some, holder_element harray] at hchildren
    exact .clause src condition hdenotes harray hchildren
  | _, _, _, .leaf _ l, _, _ => .leaf _ l
  | _, _, _, .markup frame ha, hp, ⟨_, hc⟩ => .markup frame (typingAll_binds ha hp hc)

theorem typingAll_binds : ∀ {scope : Option Target} {ns ms : List Node}, BindsAll schema scope ns ms →
    Present scope → EveryAll Unbound ns → TypingAll schema (scope.map Target.holder) ms
  | _, _, _, .nil _, _, _ => .nil _
  | _, _, _, .cons hm hrest, hp, ⟨hn, hns⟩ =>
    .cons (typing_binds hm hp hn) (typingAll_binds hrest hp hns)

end

mutual

/-- Binding changes nothing but what it fills in. -/
theorem forget_binds : ∀ {scope : Option Target} {n m : Node}, Binds schema scope n m →
    m.forget = n.forget
  | _, _, _, .variable _ _ _ _ _ => by simp only [forget]
  | _, _, _, .enumerated _ _ _ => by simp only [forget]
  | _, _, _, .enumVariable _ _ => rfl
  | _, _, _, .formula _ _ => rfl
  | _, _, _, .flag _ _ _ ha hb => by simp only [forget, forgetAll_binds ha, forgetAll_binds hb]
  | _, _, _, .condition _ _ ha hb => by simp only [forget, forgetAll_binds ha, forgetAll_binds hb]
  | _, _, _, .optional _ _ _ ha hb => by simp only [forget, forgetAll_binds ha, forgetAll_binds hb]
  | _, _, _, .within _ _ _ ha => by simp only [forget, forgetAll_binds ha]
  | _, _, _, .list _ _ _ _ ha => by simp only [forget, forgetAll_binds ha]
  | _, _, _, .join _ _ _ _ ha => by simp only [forget, forgetAll_binds ha]
  | _, _, _, .clause _ _ _ _ _ ha => by simp only [forget, forgetAll_binds ha]
  | _, _, _, .contract _ ha => by simp only [forget, forgetAll_binds ha]
  | _, _, _, .leaf _ _ => rfl
  | _, _, _, .markup _ ha => by simp only [forget, forgetAll_binds ha]

theorem forgetAll_binds : ∀ {scope : Option Target} {ns ms : List Node}, BindsAll schema scope ns ms →
    forgetAll ms = forgetAll ns
  | _, _, _, .nil _ => rfl
  | _, _, _, .cons hm hrest => by simp only [forgetAll, forget_binds hm, forgetAll_binds hrest]

end

/-- Nodes that are read from markup carry nothing but formats of what binding fills in. Binding keeps
all else of them, gives them the types that their names denote, and leaves no name of a property in a
branch for an absent value. -/
theorem bindRecord_conservative {schema : Schema} {type markup : String} {nodes bound : List Node}
    (hread : Markup.read markup = .ok nodes) (hbind : bindRecord schema type nodes = .ok bound) :
    (EveryAll Unbound nodes ∧ forgetAll bound = forgetAll nodes) ∧
      TypingAll schema (some ⟨type, false⟩) bound ∧ EveryAll ElseNameless bound := by
  have hunbound := Markup.read_unbound hread
  have hbinds := binds_bindRecord hbind
  have htyping : TypingAll schema (some ⟨type, false⟩) bound :=
    typingAll_binds hbinds (present_some rfl) hunbound
  exact ⟨⟨hunbound, forgetAll_binds hbinds⟩, htyping, htyping.elseNameless⟩

end Binding

namespace Joined

def schema : Schema :=
  ⟨[.enumeration "Tag" ["A", "B"], .concept "Note" [⟨"tags", "Tag", true, true, false, []⟩]]⟩

def markup : String :=
  "\x7b\x7b#optional tags\x7d\x7d\x7b\x7b#join this\x7d\x7d\x7b\x7bthis\x7d\x7d\x7b\x7b/join\x7d\x7d" ++
    "\x7b\x7belse\x7d\x7dno\x7b\x7b/optional\x7d\x7d"

def nodes : List Node :=
  [.markup .paragraph [.optional "tags" none
    [.join thisName none ", " [.variable (.unbound thisName none)]] [.text "no"]]]

def bound : List Node :=
  [.markup .paragraph [.optional "tags" (some "Tag")
    [.join thisName (some "Tag") ", " [.enumVariable ⟨thisName, "Tag", ["A", "B"], []⟩]]
    [.text "no"]]]

theorem read_eq : Markup.read markup = .ok nodes := Node.eq_ok_of_equalAll (by decide +kernel)

theorem bindRecord_eq : Binding.bindRecord schema "Note" nodes = .ok bound :=
  Node.eq_ok_of_equalAll (by decide +kernel)

/-- The array of an optional property is joined by the name of the value itself. -/
theorem bindRecord_conservative_joined :
    Markup.read markup = .ok nodes ∧ Binding.bindRecord schema "Note" nodes = .ok bound ∧
      Node.forgetAll bound = Node.forgetAll nodes ∧
      Node.TypingAll schema (some ⟨"Note", false⟩) bound ∧ Node.EveryAll Node.ElseNameless bound := by
  obtain ⟨⟨-, hforget⟩, htyping, helse⟩ := Binding.bindRecord_conservative read_eq bindRecord_eq
  exact ⟨read_eq, bindRecord_eq, hforget, htyping, helse⟩

end Joined

end ClauseTemplates
