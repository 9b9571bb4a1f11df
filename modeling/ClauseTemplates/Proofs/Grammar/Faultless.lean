import ClauseTemplates.Proofs.Grammar.Bounded
import ClauseTemplates.Proofs.Template.Typed

namespace ClauseTemplates

/-- A name without a type, where binding fills in all types. -/
def EntryError.Internal : EntryError → Prop
  | .unbound _ => True
  | _ => False

theorem Entry.compile_not_internal {schema : Schema} {key : EntryKey} {e : EntryError}
    (h : Entry.compile schema key = .error e) : ¬ e.Internal := by
  unfold Entry.compile at h
  repeat' split at h
  all_goals
    cases h
    try exact not_false

namespace Compiling

open CompileState

variable {schema : Schema} {kind : TemplateKind}

/-- A compiler with a faithful table over a schema. -/
structure Equipped (schema : Schema) (s : CompileState) : Prop where
  schema : s.table.schema = schema
  faithful : s.table.Faithful

/-- An action of a compiler that fails with no internal error. -/
abbrev Faultless (schema : Schema) (act : Compiling α) : Prop :=
  Safe (Equipped schema) (fun e => ¬ e.Internal) act

theorem faultless_inside {act : Compiling α} (k : Nesting) (h : Faultless schema act) :
    Faultless schema (inside k act) := by
  intro s hs
  obtain ⟨hgood, herror⟩ := h { s with nesting := s.nesting ++ [k] } ⟨hs.schema, hs.faithful⟩
  rw [run_inside]
  exact ⟨⟨hgood.schema, hgood.faithful⟩, herror⟩

theorem faultless_entry {key : EntryKey} {f : Entry → Compiling α}
    (h : ∀ e, Entry.compile schema key = .ok e → Faultless schema (f e)) :
    Faultless schema (entry key >>= f) := by
  intro s hs
  obtain ⟨hfound, hfaithful⟩ := Table.entry_faithful hs.faithful key
  have hschema := (Table.entry_schema key s.table).1
  rw [hs.schema] at hfound hschema
  rw [run_bind, run_entry, hfound]
  cases he : Entry.compile schema key with
  | error e =>
    refine ⟨⟨hschema, hfaithful⟩, ?_⟩
    rintro _ ⟨⟩
    exact Entry.compile_not_internal he
  | ok e => exact h e he _ ⟨hschema, hfaithful⟩

/-- No step of a compiler fails with an internal error where types are filled in. -/
def faultless (schema : Schema) : Logic where
  types type := type.isSome = true
  keys _ := True
  entries key e := Entry.compile schema key = .ok e
  Holds _ x _ := Faultless schema x
  pure a := safe_pure a
  bind hx hf := hx.bind hf
  unbound _ _ h := by cases h
  margin := safe_get.bind fun s => safe_pure (s.nesting.flatMap Nesting.margin)
  elementType type :=
    safe_get.bind fun s => safe_pure (if s.table.schema.isCompound type then some type else none)
  settings h := Safe.get_bind fun s _ => h s.table.settings
  inside k h := faultless_inside k h
  entry _ h := faultless_entry h

theorem faultless_fits {n : Node} (h : n.Typed) : (faultless schema).Fits n := by
  cases n <;> exact h

theorem faultless_compound (fuel : Nat) :
    ∀ key type children, Entry.compile schema key = .ok (.compound type children) →
      Faultless schema (compound kind fuel type children) := by
  rw [compound_eq_levels]
  generalize hbeyond : (fun type _ => throw (EntryError.unknownParser type) :
    String → List Node → Compiling Unit) = beyond
  induction fuel with
  | zero =>
    intro _ type _ _
    subst hbeyond
    exact safe_throw (e := EntryError.unknownParser type) not_false
  | succ fuel ih =>
    intro key type children hkey s hs
    rw [levels]
    cases hknown : s.known type with
    | true =>
      rw [run_recordBody_known hknown]
      exact ⟨hs, fun _ h => by cases h⟩
    | false =>
      have hc (key : EntryKey) (type : String) (children : List Node)
          (_ : (faultless schema).keys key)
          (hentry : (faultless schema).entries key (.compound type children)) :
          (faultless schema).Holds [key] (levels kind beyond fuel type children)
            (levels kind beyond fuel type children) :=
        ih key type children hentry
      have htyped : Node.EveryAll (faultless schema).Fits children :=
        Node.EveryAll.mono (fun _ hn => faultless_fits hn.1) children (Entry.compile_typed hkey)
      have hbody := (faultless schema).inlines kind hc children htyped fun _ _ => trivial
      obtain ⟨hgood, herror⟩ := hbody (s.opened type) ⟨hs.schema, hs.faithful⟩
      rw [run_recordBody_new hknown]
      rcases h : (inlines kind (levels kind beyond fuel) children).run (s.opened type) with ⟨e | body, t⟩
      · rw [h] at hgood herror
        refine ⟨⟨hgood.schema, hgood.faithful⟩, ?_⟩
        rintro _ ⟨⟩
        exact herror e rfl
      · rw [h] at hgood
        exact ⟨⟨hgood.schema, hgood.faithful⟩, fun _ h => by cases h⟩

/-- Blocks whose types are filled in compile without internal errors, wherever they stand. -/
theorem faultless_blocks (fuel : Nat) {ns : List Node} (h : Node.EveryAll Node.Typed ns) :
    Faultless schema (eachBlock kind (compound kind fuel) ns) ∧
      Faultless schema (inlines kind (compound kind fuel) ns) := by
  have hc (key : EntryKey) (type : String) (children : List Node) (_ : (faultless schema).keys key)
      (hentry : (faultless schema).entries key (.compound type children)) :
      (faultless schema).Holds [key] (compound kind fuel type children)
        (compound kind fuel type children) :=
    faultless_compound fuel key type children hentry
  have hfits : Node.EveryAll (faultless schema).Fits ns :=
    Node.EveryAll.mono (fun _ => faultless_fits) ns h
  constructor
  · exact (faultless schema).eachBlock kind hc ns hfits fun _ _ => trivial
  · exact (faultless schema).inlines kind hc ns hfits fun _ _ => trivial

end Compiling

end ClauseTemplates
