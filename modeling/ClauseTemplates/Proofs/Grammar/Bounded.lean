import ClauseTemplates.Proofs.Grammar.Steady

namespace ClauseTemplates

namespace Compiling

open CompileState

/-- A compiler with a faithful table that is compiling some types. -/
structure Busy (schema : Schema) (busy : List String) (s : CompileState) : Prop where
  schema : s.table.schema = schema
  faithful : s.table.Faithful
  inProgress : s.inProgress = busy

variable {schema : Schema} {busy : List String} {kind : TemplateKind}

theorem Busy.entry {s : CompileState} (hs : Busy schema busy s) (key : EntryKey) :
    (s.table.entry key).1 = Entry.compile schema key ∧
      Busy schema busy { s with table := (s.table.entry key).2 } := by
  obtain ⟨hfound, hfaithful⟩ := Table.entry_faithful hs.faithful key
  have hschema := (Table.entry_schema key s.table).1
  rw [hs.schema] at hfound hschema
  exact ⟨hfound, hschema, hfaithful, hs.inProgress⟩

theorem Busy.closed {type : String} {s : CompileState} (hs : Busy schema (type :: busy) s) :
    Busy schema busy (s.closed type) :=
  ⟨hs.schema, hs.faithful, by simp [CompileState.closed, hs.inProgress]⟩

/-- While these types are in progress, two compilers do the same step by step. -/
def same (schema : Schema) (busy : List String) : Logic where
  types _ := True
  keys _ := True
  entries key e := Entry.compile schema key = .ok e
  Holds _ x y := Same (Busy schema busy) x y
  pure := same_pure
  bind hx hf := hx.bind hf
  unbound _ _ _ := same_refl fun _ hs => hs
  margin := same_refl fun _ hs => hs
  elementType _ := same_refl fun _ hs => hs
  settings h s hs := h s.table.settings s hs
  inside k h := by
    intro s hs
    obtain ⟨heq, hgood⟩ := h { s with nesting := s.nesting ++ [k] }
      ⟨hs.schema, hs.faithful, hs.inProgress⟩
    rw [run_inside, run_inside, heq]
    rw [heq] at hgood
    exact ⟨rfl, hgood.schema, hgood.faithful, hgood.inProgress⟩
  entry := by
    intro _ key f g _ h s hs
    obtain ⟨hfound, hgood⟩ := hs.entry key
    rw [run_bind, run_bind, run_entry, hfound]
    cases he : Entry.compile schema key with
    | error e => exact ⟨rfl, hgood⟩
    | ok e => exact h e he _ hgood

theorem same_fits (n : Node) : (same schema busy).Fits n := by
  cases n <;> exact trivial

/-- Every level has one type more in progress, and only declared types ever are, so as many levels
as there are declarations are never used up. What would be done beyond them makes no difference. -/
theorem same_levels {beyond beyond' : String → List Node → Compiling Unit} (fuel : Nat) :
    ∀ (fuel' : Nat) (busy : List String), busy.Nodup → busy ⊆ schema.declared →
      schema.declarations.length < fuel + busy.length →
      schema.declarations.length < fuel' + busy.length →
      ∀ key type children, Entry.compile schema key = .ok (.compound type children) →
        Same (Busy schema busy) (levels kind beyond fuel type children)
          (levels kind beyond' fuel' type children) := by
  induction fuel with
  | zero =>
    intro fuel' busy hnodup hsub hfuel
    have := Schema.length_le_of_declared hnodup hsub
    omega
  | succ fuel ih =>
    intro fuel' busy hnodup hsub hfuel hfuel' key type children hkey s hs
    have hbusy := Schema.length_le_of_declared hnodup hsub
    obtain ⟨fuel', rfl⟩ : ∃ n, fuel' = n + 1 := ⟨fuel' - 1, by omega⟩
    rw [levels, levels]
    cases hknown : s.known type with
    | true =>
      rw [run_recordBody_known hknown, run_recordBody_known hknown]
      exact ⟨rfl, hs⟩
    | false =>
      have hnew : type ∉ busy := hs.inProgress ▸ (unknown_iff.mp hknown).2
      have hnodup' : (type :: busy).Nodup := List.nodup_cons.mpr ⟨hnew, hnodup⟩
      have hsub' : type :: busy ⊆ schema.declared :=
        List.cons_subset.mpr ⟨Entry.declared_of_compound hkey, hsub⟩
      have hlevel : schema.declarations.length < fuel + (type :: busy).length := by
        rw [List.length_cons]
        omega
      have hlevel' : schema.declarations.length < fuel' + (type :: busy).length := by
        rw [List.length_cons]
        omega
      have hc (key : EntryKey) (other : String) (members : List Node)
          (_ : (same schema (type :: busy)).keys key)
          (hentry : (same schema (type :: busy)).entries key (.compound other members)) :
          (same schema (type :: busy)).Holds [key] (levels kind beyond fuel other members)
            (levels kind beyond' fuel' other members) :=
        ih fuel' (type :: busy) hnodup' hsub' hlevel hlevel' key other members hentry
      have hbody := (same schema (type :: busy)).inlines kind hc children
        (Node.everyAll_of_forall same_fits children) fun _ _ => trivial
      obtain ⟨heq, hgood⟩ := hbody (s.opened type)
        ⟨hs.schema, hs.faithful, congrArg (type :: ·) hs.inProgress⟩
      rw [run_recordBody_new hknown, run_recordBody_new hknown, ← heq]
      rcases h : (inlines kind (levels kind beyond fuel) children).run (s.opened type) with
        ⟨e | body, t⟩
      · rw [h] at hgood
        exact ⟨rfl, hgood.closed⟩
      · rw [h] at hgood
        have hclosed : Busy schema busy (t.closed type) := hgood.closed
        exact ⟨rfl, hclosed.schema, hclosed.faithful, hclosed.inProgress⟩

end Compiling

end ClauseTemplates
