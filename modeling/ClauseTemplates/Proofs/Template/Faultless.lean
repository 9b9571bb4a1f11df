import ClauseTemplates.Proofs.Drafting.Faultless
import ClauseTemplates.Proofs.Template.Equality
import Mathlib.Tactic.SplitIfs

namespace ClauseTemplates

namespace Template

/-- The lists of nodes that a template is compiled and drafted through: its body, what stands inside
of one, shown or not, and the templates of records. -/
inductive Part (schema : Schema) (t : Template) : List Node → Prop
  | body : Part schema t t.body
  | inside {ns ms : List Node} {n : Node} : Part schema t ns → n ∈ ns → ms ∈ n.childLists →
      Part schema t ms
  | record {key : EntryKey} {type : String} {children : List Node} :
      Entry.compile schema key = .ok (.compound type children) → Part schema t children

variable {schema : Schema} {t : Template}

theorem Part.typed (ht : Node.EveryAll (fun n => n.Typed ∧ n.Coded Expression.Readable) t.body)
    {ns : List Node} (h : Part schema t ns) :
    Node.EveryAll (fun n => n.Typed ∧ n.Coded Expression.Readable) ns := by
  induction h with
  | body => exact ht
  | inside _ hn hms ih => exact (Node.everyAll_iff.mp ih _ hn).children hms
  | record hkey => exact Entry.compile_typed hkey

theorem faultless_compile (h : Node.EveryAll Node.Typed t.body) :
    Compiling.Faultless schema t.compile := by
  refine Safe.get_bind fun s _ => ?_
  let each := Compiling.eachBlock t.kind
    (Compiling.compound t.kind (s.table.schema.declarations.length + 1)) t.body
  have hblocks : (Compiling.faultless schema).Holds [] each each :=
    (Compiling.faultless_blocks _ h).1
  exact (Compiling.faultless schema).map (Compiling.Logic.inBlocks hblocks) _

theorem faultless_draft
    (h : Node.EveryAll (fun n => n.Typed ∧ n.Coded Expression.Readable) t.body) (data : Json)
    (now : Instant) : Drafting.Faultless schema (t.draft data now) := by
  have hshown : Drafting.Faultless schema (do
      let table := (← get).table
      let docs ← Drafting.nodes ⟨data, now, t.kind⟩
        (Drafting.compound ⟨data, now, t.kind⟩ (Drafting.levels table.schema data)) t.body data
      let record ← Drafting.record data (some t.type) (t.identifier table.settings)
      pure (Doc.node (.document (some record)) docs)) := by
    refine Safe.get_bind fun s _ => ?_
    apply Safe.bind (Drafting.faultless_nodes _ _ h data)
    intro docs
    exact (Drafting.faultless schema).map ((Drafting.faultless schema).record _ _ _) _
  unfold draft
  split_ifs
  · exact (safe_throw (e := Error.draft _) not_false).bind fun _ => hshown
  · exact hshown

/-- A template that could be made is compiled and drafted without internal errors, over every
faithful table of its schema, for all data and at all times. Neither do its parts, hidden branches
and templates of records included, wherever they stand and whatever they are drafted from. -/
theorem parts_faultless {kind : TemplateKind} {type : String} {nodes : List Node}
    (ht : Template.ofNodes schema kind type nodes = .ok t) {table : Table}
    (hschema : table.schema = schema) (hf : table.Faithful) :
    (∀ context e, (t.parser context table).1 = .error e → ¬ e.Internal) ∧
    (∀ data now identifiers e,
      ((t.draft data now).run ⟨table, identifiers⟩).1 = .error e → ¬ e.Internal) ∧
    ∀ ns, Part schema t ns →
      (∀ kind fuel s, s.table.schema = schema → s.table.Faithful → ∀ e,
        ((Compiling.eachBlock kind (Compiling.compound kind fuel) ns).run s).1 = .error e ∨
          ((Compiling.inlines kind (Compiling.compound kind fuel) ns).run s).1 = .error e →
        ¬ e.Internal) ∧
      ∀ context fuel scope s, s.table.schema = schema → s.table.Faithful → ∀ e,
        ((Drafting.nodes context (Drafting.compound context fuel) ns scope).run s).1 = .error e →
        ¬ e.Internal := by
  have hbody := ofNodes_typed ht
  have htyped := Node.EveryAll.mono (fun _ hn => hn.1) t.body hbody
  refine ⟨fun context e he => ?_, fun data now identifiers e he => ?_, fun ns hns => ⟨?_, ?_⟩⟩
  · obtain ⟨-, herror⟩ := faultless_compile htyped (Compiling.start table) ⟨hschema, hf⟩
    unfold parser at he
    rcases hrun : t.compile.run (Compiling.start table) with ⟨e' | root, s⟩
    · rw [hrun] at he herror
      cases he
      exact herror e' rfl
    · rw [hrun] at he
      cases he
  · obtain ⟨-, herror⟩ := faultless_draft hbody data now ⟨table, identifiers⟩ ⟨hschema, hf⟩
    exact herror e he
  · intro kind fuel s hs hfaithful e he
    have hparts := Node.EveryAll.mono (fun _ hn => hn.1) ns (hns.typed hbody)
    rcases he with he | he
    · exact ((Compiling.faultless_blocks fuel hparts).1 s ⟨hs, hfaithful⟩).2 e he
    · exact ((Compiling.faultless_blocks fuel hparts).2 s ⟨hs, hfaithful⟩).2 e he
  · intro context fuel scope s hs hfaithful e he
    have hnodes : Drafting.Faultless schema (Drafting.nodes context _ ns scope) :=
      Drafting.faultless_nodes context fuel (hns.typed hbody) scope
    exact (hnodes s ⟨hs, hfaithful⟩).2 e he

end Template

namespace Billed

def schema : Schema :=
  ⟨[.concept "Bill" [⟨"extra", "Extra", false, true, false, []⟩],
    .concept "Extra" [.plain "amount" "Double"]]⟩

def bold (n : Node) : Node := .markup .strong [n]

def nodes : List Node :=
  [.markup .paragraph
    [.optional "extra" none [.variable (.unbound thisName none)]
      [bold (.formula ⟨"total", "1 + 1", []⟩)]]]

def template : Template :=
  ⟨.clause, "Bill", [.markup .paragraph
    [.optional "extra" (some "Extra") [.variable ⟨thisName, some "Extra", none, none, []⟩]
      [bold (.formula ⟨"total", "1 + 1", []⟩)]]]⟩

def table : Table := Table.empty schema .standard

theorem ofNodes_eq : Template.ofNodes schema .clause "Bill" nodes = .ok template :=
  Template.eq_ok_of_equal (by decide +kernel)

/-- A branch for an absent value is drafted without internal errors, and so is the one that is not
shown. -/
theorem parts_faultless_billed :
    Template.ofNodes schema .clause "Bill" nodes = .ok template ∧ table.schema = schema ∧
      table.Faithful ∧
      ∀ data now e, ((template.draft data now).run ⟨table, 0⟩).1 = .error e → ¬ e.Internal := by
  have hfaithful : table.Faithful := Table.faithful_empty schema .standard
  obtain ⟨-, hdraft, -⟩ := Template.parts_faultless ofNodes_eq rfl hfaithful
  exact ⟨ofNodes_eq, rfl, hfaithful, fun data now e => hdraft data now 0 e⟩

end Billed

end ClauseTemplates
