import ClauseTemplates.Proofs.Drafting.Logic
import ClauseTemplates.Proofs.Drafting.Texts
import ClauseTemplates.Proofs.Grammar.Faultless

namespace ClauseTemplates

/-- What binding and analyzing a template rule out: a name without a type, and code that cannot be
read. -/
def Error.Internal : Error → Prop
  | .registry e => e.Internal
  | .expression _ => True
  | _ => False

namespace Drafting

variable {schema : Schema}

/-- A drafter with a faithful table over a schema. -/
structure Equipped (schema : Schema) (s : DraftState) : Prop where
  schema : s.table.schema = schema
  faithful : s.table.Faithful

/-- An action of a drafter that fails with no internal error. -/
abbrev Faultless (schema : Schema) (act : Drafting α) : Prop :=
  Safe (Equipped schema) (fun e => ¬ e.Internal) act

theorem faultless_entry {key : EntryKey} {f : Entry → Drafting α}
    (h : ∀ e, Entry.compile schema key = .ok e → Faultless schema (f e)) :
    Faultless schema (entry key >>= f) := by
  intro s hs
  obtain ⟨hfound, hfaithful⟩ := Table.entry_faithful hs.faithful key
  have hschema := (Table.entry_schema key s.table).1
  rw [hs.schema] at hfound hschema
  rw [run_bind, run_entry, hfound]
  cases he : Entry.compile schema key with
  | error e =>
    refine ⟨⟨hschema, hfaithful⟩, ?_⟩
    rintro _ ⟨⟩
    exact Entry.compile_not_internal he
  | ok e => exact h e he _ ⟨hschema, hfaithful⟩

/-- A branch that is not shown never fails. -/
theorem faultless_ignored {branch : Drafting (List Doc)} (h : Faultless schema branch) :
    Faultless schema (ignored branch) :=
  (h.bind fun _ => safe_pure ()).tryCatch fun _ => safe_pure ()

theorem faultless_freshIdentifier : Faultless schema freshIdentifier := by
  intro s hs
  exact ⟨⟨hs.schema, hs.faithful⟩, fun _ h => by cases h⟩

/-- No step of a drafter fails with an internal error where types are filled in and code can be
read. -/
def faultless (schema : Schema) : Logic where
  Fits n := n.Typed ∧ n.Coded Expression.Readable
  entries key e := Entry.compile schema key = .ok e
  Holds x _ := Faultless schema x
  pure := safe_pure
  bind := Safe.bind
  fail _ := safe_throw not_false
  unbound v h htype := by
    have hsome : v.type.isSome = true := h.1
    rw [htype] at hsome
    cases hsome
  unread h hcode herror := by
    obtain ⟨e, he⟩ := h.2 _ hcode
    rw [herror] at he
    cases he
  freshIdentifier := faultless_freshIdentifier
  ignored := faultless_ignored
  schema h := Safe.get_bind fun s _ => h s.table.schema
  settings h := Safe.get_bind fun s _ => h s.table.settings
  entry _ _ _ := faultless_entry

theorem faultless_nodes_of {compound : String → List Node → Json → Drafting (List Doc)}
    (context : DraftContext) (hcompound : ∀ key type children value,
      Entry.compile schema key = .ok (.compound type children) →
      Faultless schema (compound type children value)) {ns : List Node}
    (h : Node.EveryAll (fun n => n.Typed ∧ n.Coded Expression.Readable) ns) (scope : Json) :
    Faultless schema (nodes context compound ns scope) := by
  have hc (key : EntryKey) (type : String) (children : List Node) (value : Json)
      (hkey : (faultless schema).entries key (.compound type children)) :
      (faultless schema).Holds (compound type children value) (compound type children value) :=
    hcompound key type children value hkey
  exact (faultless schema).nodes context hc ns scope h

theorem faultless_compound (context : DraftContext) (fuel : Nat) :
    ∀ key type children value, Entry.compile schema key = .ok (.compound type children) →
      Faultless schema (compound context fuel type children value) := by
  induction fuel with
  | zero =>
    intro _ type _ _ _
    exact safe_throw (e := Error.registry (.unknownParser type)) not_false
  | succ fuel ih =>
    intro key type children value hkey
    rw [compound]
    exact faultless_nodes_of context ih (Entry.compile_typed hkey) value

theorem faultless_nodes (context : DraftContext) (fuel : Nat) {ns : List Node}
    (h : Node.EveryAll (fun n => n.Typed ∧ n.Coded Expression.Readable) ns) (scope : Json) :
    Faultless schema (nodes context (compound context fuel) ns scope) :=
  faultless_nodes_of context (faultless_compound context fuel) h scope

end Drafting

end ClauseTemplates
