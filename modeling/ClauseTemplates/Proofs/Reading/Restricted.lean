import ClauseTemplates.Proofs.Reading.Drafted
import ClauseTemplates.Proofs.Redraft.Scopes
import ClauseTemplates.Proofs.Template.Names

namespace ClauseTemplates

open Json Drafting

/-- Items one after the other, with a count that goes on. -/
def countItems (each : Json → Nat → Json × Nat) : List Json → Nat → List Json × Nat
  | [], n => ([], n)
  | item :: rest, n =>
    let made := each item n
    let later := countItems each rest made.2
    (made.1 :: later.1, later.2)

namespace Node

section

variable (settings : Settings) (now : Instant)

mutual

/-- The fields before with those that a node shows of a record: properties as they are, records
and their clauses with what their blocks show. Identifiers are counted. -/
def restrict : Node → Json → Fields × Nat → Fields × Nat
  | .variable v, scope, before =>
    (Fields.insertNew v.name ((field? scope v.name).getD .null) before.1, before.2)
  | .within name type children, scope, before =>
    let inner := restrictAll children ((object? scope name).getD .null)
      ([("$class", .str (type.getD ""))], before.2)
    (Fields.insertNew name (.obj inner.1) before.1, inner.2)
  | .list name _ type children, scope, before =>
    let items := (array? scope name).getD []
    if thisName ∈ namesAll children then (Fields.insertNew name (.arr items) before.1, before.2)
    else
      let made := countItems (fun item n =>
        let inner := restrictAll children item ([("$class", .str (type.getD ""))], n)
        (.obj inner.1, inner.2)) items before.2
      (Fields.insertNew name (.arr made.1) before.1, made.2)
  | .clause name type _ condition children, scope, before =>
    let value := (object? scope name).getD .null
    if isShown? now condition value = some true then
      let inner := restrictAll children value ([("$class", .str (type.getD ""))], before.2)
      let made := Captured.identified (some settings.clauseIdentifier) inner.1 inner.2
      (Fields.insertNew name (.obj made.1) before.1, made.2)
    else before
  | .markup _ children, scope, before => restrictAll children scope before
  | _, _, before => before

def restrictAll : List Node → Json → Fields × Nat → Fields × Nat
  | [], _, before => before
  | n :: rest, scope, before => restrictAll rest scope (restrict n scope before)

end

end

section

variable (schema : Schema) (reserved : List String)

mutual

/-- The nodes of templates whose drafts tell the data they show, with blocks that are named for no
reserved field; `single` is for the items of lists that are texts themselves and are shown as the
current value. -/
def Recoverable : (single : Bool) → Node → Prop
  | single, .variable v => (v.name = thisName ↔ single = true) ∧ v.name ≠ "$class" ∧
    (single = false ∧ v.identifiedBy.isSome ∧ v.type.isSome ∨
      v.identifiedBy = none ∧ ∃ type ∈ plainTypes, v.type = some type)
  | single, .within name type children => single = false ∧ name ≠ thisName ∧ name ∉ reserved ∧
    type.isSome ∧ (blocksAll children).Nodup ∧ RecoverableAll false children
  | single, .list name _ type children => single = false ∧ name ≠ thisName ∧ name ∉ reserved ∧
    ((∃ record, type = some record ∧ schema.isCompound record) ∧
        (blocksAll children).Nodup ∧ RecoverableAll false children ∨
      type.isSome ∧ thisName ∈ namesAll children ∧ RecoverableAll true children)
  | single, .clause name type _ _ children => single = false ∧ name ≠ thisName ∧ name ∉ reserved ∧
    type.isSome ∧ (blocksAll children).Nodup ∧ RecoverableAll false children
  | _, .leaf _ => True
  | single, .markup _ children => RecoverableAll single children
  | _, _ => False

def RecoverableAll : Bool → List Node → Prop
  | _, [] => True
  | single, n :: rest => Recoverable single n ∧ RecoverableAll single rest

end

end

mutual

/-- The references that are shown name the types that are declared for them. -/
def Refers : Node → Json → Prop
  | .variable v, scope => v.identifiedBy.isSome → ∃ type id, v.type = some type ∧
    '#' ∉ type.toList ∧ field? scope v.name = some (.str (resourceUri type id))
  | .within name _ children, scope => ∀ value, object? scope name = some value → RefersAll children value
  | .list name _ _ children, scope =>
    ∀ items, array? scope name = some items → ∀ item ∈ items, RefersAll children item
  | .clause name _ _ _ children, scope =>
    ∀ value, object? scope name = some value → RefersAll children value
  | .markup _ children, scope => RefersAll children scope
  | _, _ => True

def RefersAll : List Node → Json → Prop
  | [], _ => True
  | n :: rest, scope => Refers n scope ∧ RefersAll rest scope

end

mutual

/-- Texts and truth values are shown without a format, as there are no programs for others. -/
def Unformatted : Node → Prop
  | .variable v => v.identifiedBy = none → v.format = none
  | .within _ _ children => UnformattedAll children
  | .list _ _ _ children => UnformattedAll children
  | .clause _ _ _ _ children => UnformattedAll children
  | .markup _ children => UnformattedAll children
  | _ => True

def UnformattedAll : List Node → Prop
  | [] => True
  | n :: rest => Unformatted n ∧ UnformattedAll rest

end

theorem mem_blocksAll_of_clause {ns : List Node} {name : String}
    (h : name ∈ ns.filterMap clauseName?) : name ∈ blocksAll ns := by
  induction ns with
  | nil => cases h
  | cons n ns ih =>
    rw [blocksAll]
    cases n with
    | clause other type src condition children =>
      rcases List.mem_cons.mp h with rfl | h
      · exact List.mem_append_left _ List.mem_cons_self
      · exact List.mem_append_right _ (ih h)
    | _ => exact List.mem_append_right _ (ih h)

variable {schema : Schema} {reserved : List String}

mutual

theorem Recoverable.blocks_nil : ∀ {n : Node}, n.Recoverable schema reserved true → n.blocks = []
  | .variable _, _ => rfl
  | .leaf _, _ => rfl
  | .markup _ _, h => RecoverableAll.blocks_nil h
  | .within _ _ _, h => absurd h.1 (by decide)
  | .list _ _ _ _, h => absurd h.1 (by decide)
  | .clause _ _ _ _ _, h => absurd h.1 (by decide)
  | .enumVariable _, _ => rfl
  | .formula _, _ => rfl
  | .conditional _ _ _ _, h => h.elim
  | .optional _ _ _ _, h => h.elim
  | .join _ _ _ _, h => h.elim
  | .contract _ _, h => h.elim

theorem RecoverableAll.blocks_nil : ∀ {ns : List Node}, RecoverableAll schema reserved true ns →
    blocksAll ns = []
  | [], _ => rfl
  | _ :: _, ⟨hn, hrest⟩ => by
    rw [blocksAll, Recoverable.blocks_nil hn, RecoverableAll.blocks_nil hrest]
    rfl

end

mutual

theorem Recoverable.legible : ∀ {n : Node} {single : Bool}, n.Recoverable schema reserved single →
    n.blocks.Nodup → n.Legible .contract
  | .variable v, single, ⟨_, _, h⟩, _ => by
    rcases h with ⟨_, h, _⟩ | ⟨_, h⟩
    · exact Or.inl h
    · exact Or.inr h
  | .within _ _ _, _, ⟨_, _, _, _, hx, h⟩, _ => RecoverableAll.legible h hx
  | .list _ _ _ children, _, ⟨_, _, _, h⟩, _ => by
    rcases h with ⟨_, hx, h⟩ | ⟨_, _, h⟩
    · exact RecoverableAll.legible h hx
    · exact RecoverableAll.legible h (by rw [RecoverableAll.blocks_nil h]; exact List.nodup_nil)
  | .clause _ _ _ _ _, _, ⟨_, _, _, _, hx, h⟩, _ => ⟨rfl, RecoverableAll.legible h hx⟩
  | .leaf _, _, _, _ => trivial
  | .markup _ children, single, h, hx => by
    cases single <;> exact RecoverableAll.legible h hx
  | .enumVariable _, single, h, _ => by cases single <;> exact h.elim
  | .formula _, single, h, _ => by cases single <;> exact h.elim
  | .conditional _ _ _ _, single, h, _ => by cases single <;> exact h.elim
  | .optional _ _ _ _, single, h, _ => by cases single <;> exact h.elim
  | .join _ _ _ _, single, h, _ => by cases single <;> exact h.elim
  | .contract _ _, single, h, _ => by cases single <;> exact h.elim

theorem RecoverableAll.legible : ∀ {ns : List Node} {single : Bool}, RecoverableAll schema reserved single ns →
    (blocksAll ns).Nodup → LegibleAll .contract ns
  | [], _, _, _ => trivial
  | n :: rest, single, ⟨hn, hrest⟩, hx => by
    rw [blocksAll] at hx
    obtain ⟨hxn, hxrest, hdisjoint⟩ := List.nodup_append.mp hx
    refine ⟨Recoverable.legible hn hxn, fun name hname hmem => ?_, RecoverableAll.legible hrest hxrest⟩
    cases n with
    | clause other type src condition children =>
      cases hname
      exact hdisjoint _ List.mem_cons_self _ (mem_blocksAll_of_clause hmem) rfl
    | _ => cases hname

end

mutual

theorem Recoverable.compiles : ∀ {n : Node} {single : Bool}, n.Recoverable schema reserved single →
    n.Unformatted → n.Compiles schema
  | .variable v, single, ⟨_, _, h⟩, hformat => by
    rw [Compiles]
    rcases h with ⟨_, hid, htype⟩ | ⟨hid, type, hplain, htype⟩
    · exact ⟨htype, Or.inl hid⟩
    · refine ⟨by rw [htype]; rfl, Or.inr ?_⟩
      rw [htype, hformat hid, Option.getD_some]
      rcases List.mem_pair.mp hplain with rfl | rfl
      · exact ⟨_, rfl⟩
      · exact ⟨_, rfl⟩
  | .within _ _ _, _, ⟨_, _, _, htype, _, h⟩, hf => ⟨htype, RecoverableAll.compiles h hf⟩
  | .list _ _ _ children, _, ⟨_, _, _, h⟩, hf => by
    rcases h with ⟨⟨record, htype, _⟩, _, h⟩ | ⟨htype, _, h⟩
    · exact ⟨by rw [htype]; rfl, RecoverableAll.compiles h hf⟩
    · exact ⟨htype, RecoverableAll.compiles h hf⟩
  | .clause _ _ _ _ _, _, ⟨_, _, _, htype, _, h⟩, hf => ⟨htype, RecoverableAll.compiles h hf⟩
  | .leaf _, _, _, _ => trivial
  | .markup _ _, single, h, hf => by
    cases single <;> exact RecoverableAll.compiles h hf
  | .enumVariable _, single, h, _ => by cases single <;> exact h.elim
  | .formula _, single, h, _ => by cases single <;> exact h.elim
  | .conditional _ _ _ _, single, h, _ => by cases single <;> exact h.elim
  | .optional _ _ _ _, single, h, _ => by cases single <;> exact h.elim
  | .join _ _ _ _, single, h, _ => by cases single <;> exact h.elim
  | .contract _ _, single, h, _ => by cases single <;> exact h.elim

theorem RecoverableAll.compiles : ∀ {ns : List Node} {single : Bool}, RecoverableAll schema reserved single ns →
    UnformattedAll ns → CompilesAll schema ns
  | [], _, _, _ => trivial
  | _ :: _, _, ⟨hn, hrest⟩, ⟨hf, hfrest⟩ => ⟨Recoverable.compiles hn hf, RecoverableAll.compiles hrest hfrest⟩

end

end Node

end ClauseTemplates
