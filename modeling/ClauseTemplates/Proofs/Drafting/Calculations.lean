import ClauseTemplates.Proofs.Drafting.Texts
import ClauseTemplates.Proofs.Template.Calculations
import ClauseTemplates.Proofs.Template.Flat
import ClauseTemplates.Proofs.Template.Static

namespace ClauseTemplates

open Node

mutual

/-- The names and results of the formulas in a document. -/
def Doc.formulas : Doc → List (String × String)
  | .leaf (.formula name value) => [(name, value)]
  | .leaf _ => []
  | .node _ children => Doc.formulasAll children

def Doc.formulasAll : List Doc → List (String × String)
  | [] => []
  | doc :: rest => doc.formulas ++ Doc.formulasAll rest

end

theorem Doc.forall_formulasAll {P : String × String → Prop} {docs : List Doc} :
    (∀ found ∈ formulasAll docs, P found) ↔ ∀ doc ∈ docs, ∀ found ∈ doc.formulas, P found := by
  induction docs with
  | nil => simp [formulasAll]
  | cons doc rest ih => rw [formulasAll, List.forall_mem_append, List.forall_mem_cons, ih]

/-- The node is no result of a formula, which only drafting makes. -/
def Node.Resultless : Node → Prop
  | .leaf l => l.isFormula = false
  | _ => True

mutual

theorem Node.resultless_at : ∀ {level : Level} {n : Node}, n.At level → n.Every Resultless
  | _, .variable _, _ => trivial
  | _, .enumVariable _, _ => trivial
  | _, .formula _, _ => trivial
  | _, .conditional _ _ _ _, ⟨_, ht, hf⟩ => ⟨trivial, resultless_eachAt ht, resultless_eachAt hf⟩
  | _, .optional _ _ _ _, ⟨_, hs, hn⟩ => ⟨trivial, resultless_eachAt hs, resultless_eachAt hn⟩
  | _, .within _ _ _, ⟨_, hc⟩ => ⟨trivial, resultless_eachAt hc⟩
  | _, .list _ _ _ _, ⟨_, hc⟩ => ⟨trivial, resultless_eachAt hc⟩
  | _, .join _ _ _ _, ⟨_, hc⟩ => ⟨trivial, resultless_eachAt hc⟩
  | _, .clause _ _ _ _ _, ⟨_, _, hc⟩ => ⟨trivial, resultless_eachAt hc⟩
  | _, .leaf l, h => by
    cases l with
    | formula name value => cases h
    | _ => rfl
  | _, .markup _ _, ⟨_, _, hc⟩ => ⟨trivial, resultless_eachAt hc⟩

theorem Node.resultless_eachAt : ∀ {level : Level} {ns : List Node}, EachAt level ns →
    EveryAll Resultless ns
  | _, [], _ => trivial
  | _, _ :: _, ⟨hn, hrest⟩ => ⟨resultless_at hn, resultless_eachAt hrest⟩

end

theorem Node.resultless_of_flat {n : Node} (h : n.Flat ∧ n.Typed) : n.Resultless := by
  cases n with
  | leaf l =>
    cases l with
    | text _ => rfl
    | _ => exact h.1.elim
  | _ => trivial

/-- The template of a record calculates nothing. -/
theorem Fragment.calculations_ofDeclaration (d : Declaration) : calculationsAll (ofDeclaration d) = [] := by
  have hvalue (p : Property) (name : String) : calculationsAll (valueNodes p name) = [] := by
    unfold valueNodes
    split <;> simp [calculationsAll, calculations, Node.text]
  have hnone : ∀ n ∈ ofDeclaration d, n.calculations = [] := by
    refine forall_ofDeclaration fun lead p _ => ?_
    unfold entry
    split
    · simp [calculations, calculationsAll, hvalue, Node.text]
    · refine List.forall_mem_cons.mpr ⟨rfl, fun n hn => ?_⟩
      refine List.eq_nil_iff_forall_not_mem.mpr (forall_calculationsAll.mp ?_ n hn)
      simp [hvalue]
  refine List.eq_nil_iff_forall_not_mem.mpr (forall_calculationsAll.mpr ?_)
  intro n hn
  simp [hnone n hn]

theorem Entry.calculations_compile {schema : Schema} {key : EntryKey} {type : String}
    {children : List Node} (h : Entry.compile schema key = .ok (.compound type children)) :
    calculationsAll children = [] := by
  obtain ⟨d, _, _, _, hbind⟩ := compile_compound h
  exact (Binding.calculations_bindsAll (Binding.binds_bindRecord hbind)).trans
    (Fragment.calculations_ofDeclaration d)

namespace Drafting

/-- Code that cannot be evaluated for some data, and why. -/
def Fails (code : String) (data : Json) (now : Instant) (reason : String) : Prop :=
  ∃ e failure, Expression.read code = .ok e ∧ e.evaluate (Scope.ofData data now) = .error failure ∧
    failure.message = reason

/-- The result that a document shows for a formula is that of a calculation of this name. -/
def Shows (cs : List Calculation) (context : DraftContext) (found : String × String) : Prop :=
  ∃ code value, ⟨.formula, found.1, code⟩ ∈ cs ∧
    evaluated? code context.data context.now = some value ∧ found.2 = value.display

/-- An error of evaluation names a calculation that fails. Formulas see the whole data. -/
def Blames (cs : List Calculation) (context : DraftContext) (e : Error) : Prop :=
  ∀ name reason, e = .draft (.evaluation name reason) →
    ∃ c ∈ cs, c.name = name ∧ ∃ data, (c.kind = .formula → data = context.data) ∧
      Fails c.code data context.now reason

/-- The results that some documents show are those of calculations. -/
def ShowsAll (cs : List Calculation) (context : DraftContext) (docs : List Doc) : Prop :=
  ∀ found ∈ Doc.formulasAll docs, Shows cs context found

/-- With a faithful table the action leaves a property, or an error that blames a calculation. -/
abbrev Traces (cs : List Calculation) (context : DraftContext) (P : α → Prop) (act : Drafting α) : Prop :=
  Ensures (fun s => s.table.Faithful) P (Blames cs context) act

section

variable {cs : List Calculation} {context : DraftContext} {P : α → Prop}

theorem showsAll_iff {docs : List Doc} :
    ShowsAll cs context docs ↔ ∀ doc ∈ docs, ∀ found ∈ doc.formulas, Shows cs context found :=
  Doc.forall_formulasAll

theorem showsAll_append {docs more : List Doc} (h : ShowsAll cs context docs)
    (hmore : ShowsAll cs context more) : ShowsAll cs context (docs ++ more) :=
  showsAll_iff.mpr (List.forall_mem_append.mpr ⟨showsAll_iff.mp h, showsAll_iff.mp hmore⟩)

theorem showsAll_nil : ShowsAll cs context [] := by
  simp [ShowsAll, Doc.formulasAll]

theorem showsAll_fragment (text : List Char) : ShowsAll cs context [fragment text] := by
  simp [ShowsAll, Doc.formulasAll, Doc.formulas, fragment]

theorem showsAll_frame {frame : Frame} {docs : List Doc} (h : ShowsAll cs context docs) :
    ShowsAll cs context [.node frame docs] := by
  rw [ShowsAll, Doc.formulasAll, Doc.formulasAll, List.append_nil, Doc.formulas]
  exact h

theorem showsAll_joined (separator : String) {items : List (List Doc)}
    (h : ∀ docs ∈ items, ShowsAll cs context docs) : ShowsAll cs context (joined separator items) := by
  induction items with
  | nil => simp [joined, ShowsAll, Doc.formulasAll]
  | cons docs rest ih =>
    obtain ⟨hdocs, hrest⟩ := List.forall_mem_cons.mp h
    cases rest with
    | nil => exact hdocs
    | cons more rest =>
      rw [joined]
      · split
        · exact showsAll_append hdocs (ih hrest)
        · exact showsAll_append hdocs (ih hrest)
      · simp

theorem traces_fail {e : DraftError} (h : ∀ name reason, e ≠ .evaluation name reason) :
    Traces cs context P (fail e) := by
  refine ensures_throw ?_
  rintro name reason ⟨⟩
  exact absurd rfl (h name reason)

theorem traces_required (scope : Json) (name : String) :
    Traces cs context (fun _ => True) (required scope name) := by
  unfold required
  split
  · exact ensures_pure trivial
  · exact traces_fail (by simp)

theorem traces_array (scope : Json) (name : String) :
    Traces cs context (fun _ => True) (array scope name) := by
  refine (traces_required scope name).bind fun value _ => ?_
  split
  · exact ensures_pure trivial
  · exact traces_fail (by simp)

theorem traces_object (scope : Json) (name : String) :
    Traces cs context (fun _ => True) (object scope name) := by
  refine (traces_required scope name).bind fun value _ => ?_
  split
  · exact ensures_pure trivial
  · exact traces_fail (by simp)

theorem traces_freshIdentifier : Traces cs context (fun _ => True) freshIdentifier :=
  fun _ hs => ⟨hs, fun _ _ => trivial, nofun⟩

theorem traces_record (value : Json) (type : Option String) (identifier : String) :
    Traces cs context (fun _ => True) (record value type identifier) := by
  unfold record
  split
  · exact traces_freshIdentifier.bind fun _ _ => ensures_pure trivial
  · exact ensures_pure trivial

/-- What is evaluated is a calculation. -/
theorem traces_evaluate {c : Calculation} (hc : c ∈ cs) {data : Json}
    (hdata : c.kind = .formula → data = context.data) :
    Traces cs context (fun value => evaluated? c.code data context.now = some value)
      (evaluate c.name c.code data context.now) := by
  unfold evaluate evaluated?
  cases hread : Expression.read c.code with
  | error e =>
    refine ensures_throw ?_
    rintro _ _ ⟨⟩
  | ok e =>
    dsimp only
    cases hvalue : e.evaluate (Scope.ofData data context.now) with
    | ok value => exact ensures_pure rfl
    | error failure =>
      refine ensures_throw ?_
      rintro _ _ ⟨⟩
      exact ⟨c, hc, rfl, data, hdata, e, failure, hread, hvalue, rfl⟩

theorem traces_isLive {name : String} {condition : Option String}
    (h : (condition.map fun code => (⟨.condition, name, code⟩ : Calculation)).toList ⊆ cs) (scope : Json) :
    Traces cs context (fun _ => True) (isLive context name condition scope) := by
  unfold isLive
  cases condition with
  | some code =>
    exact (traces_evaluate (c := ⟨.condition, name, code⟩) (h (List.mem_singleton_self _)) (by simp)).bind
      fun _ _ => ensures_pure trivial
  | none =>
    refine (traces_required scope name).bind fun value _ => ?_
    split
    · exact ensures_pure trivial
    · exact traces_fail (by simp)

theorem traces_ignored {branch : Drafting (List Doc)} {P : List Doc → Prop}
    (h : Traces cs context P branch) : Traces cs context (fun _ => True) (ignored branch) :=
  (h.bind fun _ _ => ensures_pure trivial).tryCatch fun _ _ => ensures_pure trivial

theorem traces_entry (key : EntryKey) :
    Traces cs context (fun e => ∃ schema, Entry.compile schema key = .ok e) (entry key) := by
  intro s hs
  obtain ⟨hfound, hfaithful⟩ := Table.entry_faithful hs key
  rw [run_entry, hfound]
  refine ⟨hfaithful, ?_, ?_⟩
  · intro e he
    exact ⟨s.table.schema, mapError_eq_ok.mp he⟩
  · intro e he
    cases hcompile : Entry.compile s.table.schema key with
    | ok found =>
      rw [hcompile] at he
      cases he
    | error failure =>
      rw [hcompile] at he
      cases he
      rintro _ _ ⟨⟩

theorem traces_forItems {each : Json → Drafting α} (h : ∀ item, Traces cs context P (each item))
    (items : List Json) : Traces cs context (fun made => ∀ a ∈ made, P a) (forItems each items) := by
  induction items with
  | nil => exact ensures_pure (by simp)
  | cons item rest ih =>
    refine (h item).bind fun _ hfirst => ih.bind fun _ hmore => ?_
    exact ensures_pure (List.forall_mem_cons.mpr ⟨hfirst, hmore⟩)

theorem traces_enumVariable (v : EnumVariable) (scope : Json) :
    Traces cs context (ShowsAll cs context) (enumVariable v scope) := by
  refine (traces_required scope v.name).bind fun value _ => ?_
  dsimp only
  split
  · split
    · exact ensures_pure (showsAll_fragment _)
    · exact traces_fail (by simp)
  · exact traces_fail (by simp)

/-- A drafter of records whose templates come from a schema. -/
def TracesRecords (cs : List Calculation) (context : DraftContext)
    (compound : String → List Node → Json → Drafting (List Doc)) : Prop :=
  ∀ schema key type children value, Entry.compile schema key = .ok (.compound type children) →
    Traces cs context (ShowsAll cs context) (compound type children value)

variable {compound : String → List Node → Json → Drafting (List Doc)}

theorem traces_variableDocs (hc : TracesRecords cs context compound) (v : Variable) (scope : Json) :
    Traces cs context (ShowsAll cs context) (variableDocs compound v scope) := by
  unfold variableDocs
  split
  · refine (traces_required scope v.name).bind fun value _ => ?_
    split
    · split
      · exact ensures_pure (showsAll_fragment _)
      · exact traces_fail (by simp)
    · refine (traces_entry _).bind fun e he => ?_
      cases e with
      | scalar program =>
        dsimp only
        split
        · exact ensures_pure (showsAll_fragment _)
        · exact traces_fail (by simp)
      | compound found children =>
        dsimp only
        split
        · obtain ⟨schema, hkey⟩ := he
          exact hc schema _ found children value hkey
        · exact traces_fail (by simp)
  · refine ensures_throw ?_
    rintro _ _ ⟨⟩

mutual

/-- Drafting a node evaluates its calculations, each under its name. -/
theorem traces_node (hc : TracesRecords cs context compound) : ∀ (n : Node) (scope : Json),
    n.calculations ⊆ cs → n.Every Resultless → Traces cs context (ShowsAll cs context) (node context compound n scope)
  | .variable v, scope, _, _ => by
    rw [node]
    exact traces_variableDocs hc v scope
  | .enumVariable v, scope, _, _ => by
    rw [node]
    exact traces_enumVariable v scope
  | .formula f, scope, h, _ => by
    rw [node]
    have hf : (⟨.formula, f.name, f.code⟩ : Calculation) ∈ cs := h (List.mem_singleton_self _)
    refine (traces_evaluate hf fun _ => rfl).bind fun value hvalue => ensures_pure ?_
    simp only [ShowsAll, Doc.formulasAll, Doc.formulas, List.append_nil, List.forall_mem_singleton]
    exact ⟨f.code, value, hf, hvalue, rfl⟩
  | .conditional name condition whenTrue whenFalse, scope, h, ⟨_, ht, hf⟩ => by
    rw [node]
    obtain ⟨hself, hbranches⟩ := List.append_subset.mp h
    obtain ⟨htrue, hfalse⟩ := List.append_subset.mp hbranches
    refine (traces_isLive hself scope).bind fun live _ => ?_
    split
    · exact (traces_ignored (traces_nodes hc whenFalse .null hfalse hf)).bind fun _ _ =>
        traces_nodes hc whenTrue scope htrue ht
    · exact (traces_ignored (traces_nodes hc whenTrue scope htrue ht)).bind fun _ _ =>
        traces_nodes hc whenFalse .null hfalse hf
  | .optional name type whenSome whenNone, scope, h, ⟨_, hs, hn⟩ => by
    rw [node]
    obtain ⟨hsome, hnone⟩ := List.append_subset.mp h
    have hwhenNone := traces_nodes hc whenNone .null hnone hn
    split
    · exact traces_nodes hc whenSome _ hsome hs
    · split
      · refine Ensures.get_bind fun s _ => ?_
        exact (traces_ignored (traces_nodes hc whenSome _ hsome hs)).bind fun _ _ => hwhenNone
      · exact hwhenNone
  | .within name _ children, scope, h, ⟨_, hinside⟩ => by
    rw [node]
    exact (traces_object scope name).bind fun value _ => traces_nodes hc children value h hinside
  | .list name kind _ children, scope, h, ⟨_, hinside⟩ => by
    rw [node]
    have hitems (items : List Json) : Traces cs context (ShowsAll cs context) (do
        let docs ← forItems (fun item => nodes context compound children item) items
        pure [.node (.list kind 1) (docs.map (.node .item))]) := by
      refine (traces_forItems (fun item => traces_nodes hc children item h hinside) items).bind
        fun docs hdocs => ?_
      refine ensures_pure (showsAll_frame (showsAll_iff.mpr ?_))
      simpa [Doc.formulas, ShowsAll] using hdocs
    have hfail : Traces cs context (fun _ => True) (fail (.emptyList name) : Drafting PUnit) :=
      traces_fail (by simp)
    refine (traces_array scope name).bind fun items _ => ?_
    split
    · exact hfail.bind fun _ _ => hitems items
    · exact hitems items
  | .join name _ separator children, scope, h, ⟨_, hinside⟩ => by
    rw [node]
    refine (traces_array scope name).bind fun items _ => ?_
    refine (traces_forItems (fun item => traces_nodes hc children item h hinside) items).bind
      fun docs hdocs => ?_
    exact ensures_pure (showsAll_joined separator hdocs)
  | .clause name type src condition children, scope, h, ⟨_, hinside⟩ => by
    rw [node]
    obtain ⟨hself, hchildren⟩ := List.append_subset.mp h
    refine (traces_object scope name).bind fun value _ => ?_
    have hrest (shown : Bool) : Traces cs context (ShowsAll cs context) (do
        if !shown then pure []
        else
          let docs ← nodes context compound children value
          match context.kind with
          | .clause => pure docs
          | .contract =>
            let identifier := (← get).table.settings.clauseIdentifier
            pure [.node (.clause name src (some (← record value type identifier))) docs]) := by
      split
      · exact ensures_pure showsAll_nil
      · refine (traces_nodes hc children value hchildren hinside).bind fun docs hdocs => ?_
        split
        · exact ensures_pure hdocs
        · refine Ensures.get_bind fun s _ => ?_
          exact (traces_record value type _).bind fun _ _ => ensures_pure (showsAll_frame hdocs)
    cases condition with
    | none => exact hrest true
    | some code =>
      exact (traces_evaluate (c := ⟨.clause, name, code⟩) (hself (List.mem_singleton_self _)) (by simp)).bind
        fun value _ => hrest value.truthy
  | .contract _ children, scope, h, ⟨_, hinside⟩ => by
    rw [node]
    exact traces_nodes hc children scope h hinside
  | .leaf l, scope, _, hl => by
    rw [node]
    refine ensures_pure ?_
    cases l with
    | formula name value => cases hl
    | _ => exact nofun
  | .markup frame children, scope, h, ⟨_, hinside⟩ => by
    rw [node]
    exact (traces_nodes hc children scope h hinside).bind fun docs hdocs => ensures_pure (showsAll_frame hdocs)

theorem traces_nodes (hc : TracesRecords cs context compound) : ∀ (ns : List Node) (scope : Json),
    calculationsAll ns ⊆ cs → EveryAll Resultless ns →
      Traces cs context (ShowsAll cs context) (nodes context compound ns scope)
  | [], scope, _, _ => by
    rw [nodes]
    exact ensures_pure showsAll_nil
  | n :: rest, scope, h, ⟨hplain, hmore⟩ => by
    rw [nodes]
    obtain ⟨hn, hrest⟩ := List.append_subset.mp h
    exact (traces_node hc n scope hn hplain).bind fun docs hdocs => (traces_nodes hc rest scope hrest hmore).bind
      fun more hshown => ensures_pure (showsAll_append hdocs hshown)

end

end

theorem traces_compound (cs : List Calculation) (context : DraftContext) : ∀ fuel : Nat,
    TracesRecords cs context (compound context fuel)
  | 0 => fun _ _ type _ _ _ => by
    refine ensures_throw ?_
    rintro _ _ ⟨⟩
  | fuel + 1 => fun schema key type children value h => by
    have hnone : calculationsAll children ⊆ cs := by
      rw [Entry.calculations_compile h]
      exact List.nil_subset cs
    exact traces_nodes (traces_compound cs context fuel) children value hnone
      (EveryAll.mono (fun _ => resultless_of_flat) children (Entry.compile_flat h))

end Drafting

namespace Template

open Drafting

/-- Drafting a template evaluates its calculations, each under its name. -/
theorem traces_draft {t : Template} (ht : EveryAll Resultless t.body) (data : Json) (now : Instant) :
    Traces (calculationsAll t.body) ⟨data, now, t.kind⟩
      (fun doc => ∀ found ∈ doc.formulas, Shows (calculationsAll t.body) ⟨data, now, t.kind⟩ found)
      (t.draft data now) := by
  have hshown : Traces (calculationsAll t.body) ⟨data, now, t.kind⟩
      (fun doc => ∀ found ∈ doc.formulas, Shows (calculationsAll t.body) ⟨data, now, t.kind⟩ found) (do
        let table := (← get).table
        let docs ← nodes ⟨data, now, t.kind⟩ (compound ⟨data, now, t.kind⟩ (levels table.schema data))
          t.body data
        let record ← record data (some t.type) (t.identifier table.settings)
        pure (Doc.node (.document (some record)) docs)) := by
    refine Ensures.get_bind fun s _ => ?_
    refine (traces_nodes (traces_compound _ _ _) t.body data (List.Subset.refl _) ht).bind fun docs hdocs => ?_
    exact (traces_record data (some t.type) _).bind fun _ _ => ensures_pure hdocs
  unfold draft
  split
  · exact (ensures_throw (P := fun _ => True) (by rintro _ _ ⟨⟩)).bind fun _ _ => hshown
  · exact hshown

end Template

end ClauseTemplates
