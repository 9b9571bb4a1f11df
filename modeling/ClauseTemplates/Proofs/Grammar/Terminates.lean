import ClauseTemplates.Proofs.Grammar.Bounded

namespace ClauseTemplates

open Compiling

/-- The compiler of a template, with any compiler for its records. -/
def Template.compileWith (t : Template) (compound : String → List Node → Compiling Unit) :
    Compiling ValueGrammar := do
  let table := (← get).table
  let body ← inBlocks (eachBlock t.kind compound t.body)
  pure (.record t.type (some (t.identifier table.settings)) body)

namespace Template

variable (t : Template) {table : Table}

theorem busy_start (hf : table.Faithful) : Busy table.schema [] (start table) := ⟨rfl, hf, rfl⟩

/-- More levels than there are declarations are never used up. -/
theorem compileWith_levels (hf : table.Faithful) (beyond : String → List Node → Compiling Unit)
    {fuel : Nat} (hfuel : table.schema.declarations.length < fuel) :
    (t.compileWith (levels t.kind beyond fuel)).run (start table) = t.compile.run (start table) := by
  have hc (key : EntryKey) (type : String) (children : List Node)
      (_ : (same table.schema []).keys key)
      (hentry : (same table.schema []).entries key (.compound type children)) :
      (same table.schema []).Holds [key] (levels t.kind beyond fuel type children)
        (compound t.kind (table.schema.declarations.length + 1) type children) := by
    rw [compound_eq_levels]
    have hlevels : table.schema.declarations.length <
        table.schema.declarations.length + 1 + ([] : List String).length := by simp
    exact same_levels fuel _ [] List.nodup_nil (List.nil_subset _) hfuel hlevels key type children
      hentry
  have hblocks := (same table.schema []).eachBlock t.kind hc t.body
    (Node.everyAll_of_forall same_fits t.body) fun _ _ => trivial
  have hbody := Logic.inBlocks hblocks
  obtain ⟨heq, -⟩ := hbody (start table) (busy_start hf)
  unfold compile compileWith
  rw [run_get_bind, run_get_bind, run_bind, run_bind, heq]
  rfl

theorem steady_compound (kind : TemplateKind) (fuel : Nat) (type : String) (children : List Node) :
    Moves CompileState.Steady (compound kind fuel type children) := by
  rw [compound_eq_levels]
  apply steady_levels
  intro type children
  exact moves_throw CompileState.Steady.refl _

theorem steady_node (kind : TemplateKind) (fuel : Nat) (n : Node) :
    Moves CompileState.Steady (node kind (compound kind fuel) n) := by
  have hc (key : EntryKey) (type : String) (children : List Node) (_ : steady.keys key)
      (_ : steady.entries key (.compound type children)) :
      steady.Holds [key] (compound kind fuel type children) (compound kind fuel type children) :=
    steady_compound kind fuel type children
  exact steady.node kind hc n (Node.every_of_forall steady_fits n) fun _ _ => trivial

theorem steady_compile : Moves CompileState.Steady t.compile := by
  intro s
  let compound := compound t.kind (s.table.schema.declarations.length + 1)
  have hc (key : EntryKey) (type : String) (children : List Node) (_ : steady.keys key)
      (_ : steady.entries key (.compound type children)) :
      steady.Holds [key] (compound type children) (compound type children) :=
    steady_compound t.kind _ type children
  have hblocks := steady.eachBlock t.kind hc t.body (Node.everyAll_of_forall steady_fits t.body)
    fun _ _ => trivial
  have hall := steady.map (Logic.inBlocks hblocks) fun body =>
    ValueGrammar.record t.type (some (t.identifier s.table.settings)) body
  exact hall s

/-- A type is known once its records were compiled. -/
theorem known_of_compound {kind : TemplateKind} {fuel : Nat} {type : String} {children : List Node}
    {s s' : CompileState} (h : (compound kind fuel type children).run s = (.ok (), s')) :
    s'.known type = true := by
  rw [compound_eq_levels] at h
  cases fuel with
  | zero => cases h
  | succ fuel =>
    rw [levels] at h
    cases hs : s.known type with
    | true =>
      rw [run_recordBody_known hs] at h
      cases h
      exact hs
    | false =>
      rw [run_recordBody_new hs] at h
      split at h
      · cases h
        rw [CompileState.known_iff]
        exact .inl (by simp [CompileState.stored])
      · cases h

/-- Compiling a template comes to an end, with no more levels of records inside records than the
schema has declarations: it does not matter what would be done beyond these. Wherever it stands, and
whether or not it fails, compiling a node leaves the lines and the types in progress as they were
and compiles no type that is known, nor any type twice: a request of a known type does nothing, and
a type is known after the first. -/
theorem compile_steady (hf : table.Faithful) :
    (∀ (beyond : String → List Node → Compiling Unit) (fuel : Nat),
      table.schema.declarations.length < fuel →
      (t.compileWith (levels t.kind beyond fuel)).run (start table) =
        t.compile.run (start table)) ∧
    (let s := (t.compile.run (start table)).2
     s.nesting = [] ∧ s.inProgress = [] ∧ (s.compounds.map (·.1)).Nodup) ∧
    (∀ (fuel : Nat) (n : Node) (s : CompileState),
      s.Steady ((node t.kind (compound t.kind fuel) n).run s).2) ∧
    ∀ (fuel : Nat) (type : String) (children : List Node) (s : CompileState),
      (s.known type = true →
        (compound t.kind (fuel + 1) type children).run s = (.ok (), s)) ∧
      ∀ s', (compound t.kind fuel type children).run s = (.ok (), s') → s'.known type = true := by
  refine ⟨fun beyond fuel => t.compileWith_levels hf beyond, ?_,
    fun fuel n s => steady_node t.kind fuel n s, fun fuel type children s => ⟨fun hs => ?_, ?_⟩⟩
  · obtain ⟨hnesting, hprogress, new, hnew, hnodup, -⟩ := t.steady_compile (start table)
    refine ⟨hnesting, hprogress, ?_⟩
    have hall : (t.compile.run (start table)).2.compounds = new := by
      rw [hnew]
      exact List.append_nil new
    rwa [hall]
  · rw [compound_eq_levels]
    exact run_recordBody_known hs
  · intro s' h
    exact known_of_compound h

end Template

namespace Partners

def schema : Schema :=
  ⟨[.concept "Holder" [.plain "first" "Left"], .concept "Left" [.plain "other" "Right"],
    .concept "Right" [.plain "other" "Left"]]⟩

def template : Template :=
  ⟨.clause, "Holder", [.markup .paragraph [.variable ⟨"first", some "Left", none, none, []⟩]]⟩

def table : Table := Table.empty schema .standard

/-- Two record types that reach each other are compiled once each. -/
theorem compile_steady_partners : table.Faithful ∧
    (template.compileWith (levels .clause (fun _ _ => pure ()) 4)).run (start table) =
      template.compile.run (start table) ∧
    (template.compile.run (start table)).2.inProgress = [] ∧
    (template.compile.run (start table)).2.compounds.map (·.1) = ["Left", "Right"] := by
  have hfaithful : table.Faithful := Table.faithful_empty schema .standard
  obtain ⟨hbounded, ⟨-, hprogress, -⟩, -⟩ := template.compile_steady hfaithful
  exact ⟨hfaithful, hbounded (fun _ _ => pure ()) 4 (by decide), hprogress, by decide +kernel⟩

end Partners

end ClauseTemplates
