import ClauseTemplates.Proofs.Markup.Unbound
import ClauseTemplates.Proofs.Number.Digits
import ClauseTemplates.Proofs.Template.Calculations
import Mathlib.Data.List.Nodup

namespace ClauseTemplates

namespace Calculation

open Markup

/-- Gives a formula or condition without a name the next one. -/
def rename (counts : Counts) (c : Calculation) : Calculation × Counts :=
  match c.kind with
  | .formula =>
    if c.name = "" then
      ({ c with name := "formula_" ++ toString (counts.formulas + 1) },
        { counts with formulas := counts.formulas + 1 })
    else (c, counts)
  | .condition =>
    if c.name = "" then
      ({ c with name := "condition_" ++ toString (counts.conditions + 1) },
        { counts with conditions := counts.conditions + 1 })
    else (c, counts)
  | .clause => (c, counts)

def renameAll (counts : Counts) : List Calculation → List Calculation × Counts
  | [] => ([], counts)
  | c :: rest =>
    ((c.rename counts).1 :: (renameAll (c.rename counts).2 rest).1, (renameAll (c.rename counts).2 rest).2)

theorem renameAll_append (counts : Counts) (cs more : List Calculation) :
    renameAll counts (cs ++ more) =
      ((renameAll counts cs).1 ++ (renameAll (renameAll counts cs).2 more).1,
        (renameAll (renameAll counts cs).2 more).2) := by
  induction cs generalizing counts with
  | nil => rfl
  | cons c rest ih =>
    rw [List.cons_append, renameAll, renameAll, ih]
    rfl

/-- Without a name of its own. A clause goes by the name of its property. -/
def Unnamed (c : Calculation) : Prop := c.kind = .clause ∨ c.name = ""

/-- The names that are made of a word and a number, one after the other, with the code of each. -/
def numbered (word : String) (start : Nat) (codes : List String) : List (String × String) :=
  (codes.zipIdx (start + 1)).map fun (code, i) => (word ++ toString i, code)

theorem numbered_cons (word : String) (start : Nat) (code : String) (codes : List String) :
    numbered word start (code :: codes) =
      (word ++ toString (start + 1), code) :: numbered word (start + 1) codes := rfl

theorem map_snd_numbered (word : String) (start : Nat) (codes : List String) :
    (numbered word start codes).map Prod.snd = codes := by
  induction codes generalizing start with
  | nil => rfl
  | cons code codes ih => rw [numbered_cons, List.map_cons, ih]

theorem nodup_numbered (word : String) (start : Nat) (codes : List String) :
    ((numbered word start codes).map Prod.fst).Nodup := by
  have hnames : (numbered word start codes).map Prod.fst =
      (List.range' (start + 1) codes.length).map fun i => word ++ toString i := by
    induction codes generalizing start with
    | nil => rfl
    | cons code codes ih =>
      rw [numbered_cons, List.map_cons, ih, List.length_cons, List.range'_succ, List.map_cons]
  rw [hnames]
  refine List.Nodup.map (fun i j h => ?_) List.nodup_range'
  have hdigits : Decimal.digitChars i = Decimal.digitChars j :=
    String.ofList_injective ((String.append_right_inj word).mp h)
  rw [← Decimal.ofDigitChars_digitChars i, hdigits, Decimal.ofDigitChars_digitChars]

/-- Each kind of calculation has its own numbers, which the others do not use up. -/
theorem named_renameAll {cs : List Calculation} (h : ∀ c ∈ cs, c.Unnamed) (counts : Counts) :
    named .formula (renameAll counts cs).1 =
        numbered "formula_" counts.formulas ((named .formula cs).map Prod.snd) ∧
      named .condition (renameAll counts cs).1 =
        numbered "condition_" counts.conditions ((named .condition cs).map Prod.snd) := by
  induction cs generalizing counts with
  | nil => exact ⟨rfl, rfl⟩
  | cons c rest ih =>
    obtain ⟨hc, hrest⟩ := List.forall_mem_cons.mp h
    obtain ⟨kind, name, code⟩ := c
    obtain ⟨hformulas, hconditions⟩ := ih hrest (rename counts ⟨kind, name, code⟩).2
    rw [renameAll, named_cons, named_cons, named_cons, named_cons]
    cases kind with
    | formula =>
      obtain rfl : name = "" := hc.resolve_left nofun
      exact ⟨congrArg (_ :: ·) hformulas, hconditions⟩
    | condition =>
      obtain rfl : name = "" := hc.resolve_left nofun
      exact ⟨hformulas, congrArg (_ :: ·) hconditions⟩
    | clause => exact ⟨hformulas, hconditions⟩

end Calculation

namespace Markup

open Node Calculation

theorem renameAll_formula (counts : Counts) (f : Formula) :
    renameAll counts [⟨.formula, f.name, f.code⟩] =
      ((Node.formula (nameFormula f counts).1).calculations, (nameFormula f counts).2) := by
  unfold nameFormula
  split <;> rename_i h <;> simp [renameAll, rename, h, calculations]

theorem renameAll_condition (counts : Counts) (name : String) (condition : Option String) :
    renameAll counts (condition.map fun code => (⟨.condition, name, code⟩ : Calculation)).toList =
      ((condition.map fun code =>
          (⟨.condition, (nameCondition name condition counts).1, code⟩ : Calculation)).toList,
        (nameCondition name condition counts).2) := by
  cases condition with
  | none => simp [nameCondition, renameAll]
  | some code =>
    unfold nameCondition
    split <;> rename_i h <;> simp_all [renameAll, rename]

theorem renameAll_clause (counts : Counts) (name : String) (condition : Option String) :
    renameAll counts (condition.map fun code => (⟨.clause, name, code⟩ : Calculation)).toList =
      ((condition.map fun code => (⟨.clause, name, code⟩ : Calculation)).toList, counts) := by
  cases condition <;> rfl

mutual

theorem calculations_named : ∀ (n : Node) (counts : Counts),
    renameAll counts n.calculations = ((named counts n).1.calculations, (named counts n).2)
  | .formula f, counts => renameAll_formula counts f
  | .conditional name condition whenTrue whenFalse, counts => by
    rw [calculations, renameAll_append, renameAll_append, renameAll_condition,
      calculations_namedAll whenTrue, calculations_namedAll whenFalse, named]
    rfl
  | .optional _ _ whenSome whenNone, counts => by
    rw [calculations, renameAll_append, calculations_namedAll whenSome, calculations_namedAll whenNone, named]
    rfl
  | .within _ _ children, counts => calculations_namedAll children counts
  | .list _ _ _ children, counts => calculations_namedAll children counts
  | .join _ _ _ children, counts => calculations_namedAll children counts
  | .clause _ _ _ condition children, counts => by
    rw [calculations, renameAll_append, renameAll_clause, calculations_namedAll children, named]
    rfl
  | .contract _ children, counts => calculations_namedAll children counts
  | .markup _ children, counts => calculations_namedAll children counts
  | .variable _, _ => rfl
  | .enumVariable _, _ => rfl
  | .leaf _, _ => rfl

/-- Naming the nodes names their calculations one after the other. -/
theorem calculations_namedAll : ∀ (ns : List Node) (counts : Counts),
    renameAll counts (calculationsAll ns) =
      (calculationsAll (namedAll counts ns).1, (namedAll counts ns).2)
  | [], _ => rfl
  | n :: rest, counts => by
    rw [calculationsAll, renameAll_append, calculations_named n, calculations_namedAll rest, namedAll]
    rfl

end

/-- Markup gives names to nothing but properties. -/
theorem shape_unnamed : Shape fun _ n => ∀ c ∈ n.calculations, c.Unnamed where
  ofVariable _ _ := by simp [calculations]
  formula _ := by simp [calculations, Unnamed]
  conditional name condition whenTrue whenFalse hname ht hf := by
    have hself : ∀ c ∈ (condition.map fun code => (⟨.condition, name, code⟩ : Calculation)).toList,
        c.Unnamed := by
      cases condition with
      | none => simp
      | some code => simp [Unnamed, hname rfl]
    exact List.forall_mem_append.mpr ⟨hself, List.forall_mem_append.mpr
      ⟨forall_calculationsAll.mpr ht, forall_calculationsAll.mpr hf⟩⟩
  optional _ _ _ hs hn :=
    List.forall_mem_append.mpr ⟨forall_calculationsAll.mpr hs, forall_calculationsAll.mpr hn⟩
  within _ _ hc := forall_calculationsAll.mpr hc
  join _ _ _ hc := forall_calculationsAll.mpr hc
  list _ _ _ hc := forall_calculationsAll.mpr hc
  clause name src condition children _ hc := by
    have hself : ∀ c ∈ (condition.map fun code => (⟨.clause, name, code⟩ : Calculation)).toList,
        c.Unnamed := by
      cases condition <;> simp [Unnamed]
    exact List.forall_mem_append.mpr ⟨hself, forall_calculationsAll.mpr hc⟩
  leaf _ _ _ := by simp [calculations]
  markup _ _ _ _ _ hc := forall_calculationsAll.mpr hc
  inside _ _ _ _ _ h := forall_calculationsAll.mp h

/-- The formulas and the conditions of conditionals are numbered in the order of the document. -/
theorem read_numbered {markup : String} {ns : List Node} (h : read markup = .ok ns) :
    Calculation.named .formula (calculationsAll ns) =
        numbered "formula_" 0 ((Calculation.named .formula (calculationsAll ns)).map Prod.snd) ∧
      Calculation.named .condition (calculationsAll ns) =
        numbered "condition_" 0 ((Calculation.named .condition (calculationsAll ns)).map Prod.snd) := by
  obtain ⟨nodes, hn, h⟩ := bind_eq_ok.mp h
  cases h
  have hunnamed : ∀ c ∈ calculationsAll nodes, c.Unnamed :=
    forall_calculationsAll.mpr (shape_readBlocks shape_unnamed _ _ nodes hn)
  obtain ⟨hformulas, hconditions⟩ := named_renameAll hunnamed ⟨0, 0⟩
  rw [calculations_namedAll nodes] at hformulas hconditions
  constructor
  · rw [hformulas, map_snd_numbered]
  · rw [hconditions, map_snd_numbered]

end Markup

end ClauseTemplates
