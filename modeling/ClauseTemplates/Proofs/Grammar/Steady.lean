import ClauseTemplates.Proofs.Grammar.Compiled
import ClauseTemplates.Proofs.Grammar.Logic
import ClauseTemplates.Proofs.Entry.Record
import ClauseTemplates.Template

namespace ClauseTemplates

namespace CompileState

/-- The type is compiled, or it is being compiled. -/
def known (type : String) (s : CompileState) : Bool :=
  (s.compounds.lookup type).isSome || s.inProgress.contains type

def opened (type : String) (s : CompileState) : CompileState :=
  { s with inProgress := type :: s.inProgress }

def closed (type : String) (s : CompileState) : CompileState :=
  { s with inProgress := s.inProgress.erase type }

def stored (type : String) (body : Grammar) (s : CompileState) : CompileState :=
  { s with compounds := (type, .record type none body) :: s.compounds }

/-- What compiling leaves behind: lines stand where they stood, the same types are in progress, and
the types that were compiled on the way are compiled once. -/
structure Steady (s s' : CompileState) : Prop where
  nesting : s'.nesting = s.nesting
  inProgress : s'.inProgress = s.inProgress
  compounds : ∃ new, s'.compounds = new ++ s.compounds ∧ (new.map (·.1)).Nodup ∧
    ∀ type ∈ new.map (·.1), s.known type = false

theorem isSome_lookup {type : String} {compounds : Grammar.Compounds} :
    (compounds.lookup type).isSome = true ↔ type ∈ compounds.map (·.1) := by
  induction compounds with
  | nil => simp
  | cons found rest ih =>
    rw [List.lookup_cons, List.map_cons, List.mem_cons]
    by_cases h : type = found.1
    · simp [h]
    · simp only [beq_eq_false_iff_ne.mpr h, h, false_or]
      exact ih

theorem known_iff {type : String} {s : CompileState} :
    s.known type = true ↔ type ∈ s.compounds.map (·.1) ∨ type ∈ s.inProgress := by
  unfold known
  rw [Bool.or_eq_true_iff, isSome_lookup, List.contains_iff_mem]

theorem unknown_iff {type : String} {s : CompileState} :
    s.known type = false ↔ type ∉ s.compounds.map (·.1) ∧ type ∉ s.inProgress := by
  rw [← not_or, ← known_iff, Bool.not_eq_true]

namespace Steady

variable {s t u : CompileState} {type : String}

theorem refl (s : CompileState) : Steady s s := ⟨rfl, rfl, [], rfl, List.nodup_nil, by simp⟩

theorem known (h : Steady s t) (hs : s.known type = true) : t.known type = true := by
  obtain ⟨new, hnew, -, -⟩ := h.compounds
  rw [known_iff] at hs ⊢
  rw [hnew, h.inProgress, List.map_append, List.mem_append]
  exact hs.imp_left Or.inr

theorem trans (h : Steady s t) (h' : Steady t u) : Steady s u := by
  obtain ⟨new, hnew, hnodup, hfresh⟩ := h.compounds
  obtain ⟨more, hmore, hnodup', hfresh'⟩ := h'.compounds
  refine ⟨h'.nesting.trans h.nesting, h'.inProgress.trans h.inProgress, more ++ new, ?_, ?_, ?_⟩
  · rw [hmore, hnew, List.append_assoc]
  · rw [List.map_append, List.nodup_append]
    refine ⟨hnodup', hnodup, ?_⟩
    rintro type htype _ hold rfl
    have hunknown := (unknown_iff.mp (hfresh' type htype)).1
    rw [hnew, List.map_append] at hunknown
    exact hunknown (List.mem_append_left _ hold)
  · intro type htype
    rw [List.map_append, List.mem_append] at htype
    rcases htype with htype | htype
    · have hunknown := hfresh' type htype
      by_contra hs
      rw [h.known (by simpa using hs)] at hunknown
      cases hunknown
    · exact hfresh type htype

theorem unknown_of_opened {other : String} (h : (s.opened type).known other = false) :
    s.known other = false ∧ other ≠ type := by
  rw [unknown_iff] at h ⊢
  obtain ⟨hcompounds, hprogress⟩ := h
  have hcons : other ∉ type :: s.inProgress := hprogress
  rw [List.mem_cons, not_or] at hcons
  exact ⟨⟨hcompounds, hcons.2⟩, hcons.1⟩

theorem inProgress_closed (h : Steady (s.opened type) t) : (t.closed type).inProgress = s.inProgress := by
  simp [closed, h.inProgress, opened]

/-- A type that was compiled in between was compiled once. -/
theorem stored (hs : s.known type = false) (h : Steady (s.opened type) t) (body : Grammar) :
    Steady s ((t.closed type).stored type body) := by
  obtain ⟨new, hnew, hnodup, hfresh⟩ := h.compounds
  refine ⟨h.nesting, h.inProgress_closed, (type, .record type none body) :: new, ?_, ?_, ?_⟩
  · simp only [CompileState.stored, closed, hnew, opened, List.cons_append]
  · rw [List.map_cons, List.nodup_cons]
    exact ⟨fun hmem => (unknown_of_opened (hfresh type hmem)).2 rfl, hnodup⟩
  · intro other hother
    rw [List.map_cons, List.mem_cons] at hother
    rcases hother with rfl | hother
    · exact hs
    · exact (unknown_of_opened (hfresh other hother)).1

theorem closed (h : Steady (s.opened type) t) : Steady s (t.closed type) := by
  obtain ⟨new, hnew, hnodup, hfresh⟩ := h.compounds
  exact ⟨h.nesting, h.inProgress_closed, new, hnew, hnodup,
    fun other hother => (unknown_of_opened (hfresh other hother)).1⟩

end Steady

end CompileState

namespace Compiling

/-- One level of compiling records, with `inner` for the records inside. -/
def recordBody (kind : TemplateKind) (inner : String → List Node → Compiling Unit) (type : String)
    (children : List Node) : Compiling Unit := do
  let s ← get
  if (s.compounds.lookup type).isSome || s.inProgress.contains type then pure ()
  else
    set { s with inProgress := type :: s.inProgress }
    let body ← tryCatch (inlines kind inner children) fun e => do
      modify fun s => { s with inProgress := s.inProgress.erase type }
      throw e
    modify fun s =>
      { s with
        inProgress := s.inProgress.erase type
        compounds := (type, .record type none body) :: s.compounds }

/-- Compiles records through some levels, and goes on with `beyond` where these are used up. -/
def levels (kind : TemplateKind) (beyond : String → List Node → Compiling Unit) :
    Nat → String → List Node → Compiling Unit
  | 0 => beyond
  | fuel + 1 => recordBody kind (levels kind beyond fuel)

theorem compound_eq_levels (kind : TemplateKind) (fuel : Nat) :
    compound kind fuel = levels kind (fun type _ => throw (.unknownParser type)) fuel := by
  induction fuel with
  | zero => rfl
  | succ fuel ih =>
    funext type children
    rw [levels, ← ih]
    rfl

variable {kind : TemplateKind} {inner : String → List Node → Compiling Unit} {type : String}
  {children : List Node} {s : CompileState}

/-- A type that is compiled, or in progress, is not compiled again. -/
theorem run_recordBody_known (h : s.known type = true) :
    (recordBody kind inner type children).run s = (.ok (), s) := by
  unfold CompileState.known at h
  unfold recordBody
  rw [run_bind]
  change (ite ((s.compounds.lookup type).isSome || s.inProgress.contains type) _ _ :
    Compiling Unit).run s = _
  rw [if_pos h]
  rfl

theorem run_recordBody_new (h : s.known type = false) :
    (recordBody kind inner type children).run s =
      match (inlines kind inner children).run (s.opened type) with
      | (.ok body, t) => (.ok (), (t.closed type).stored type body)
      | (.error e, t) => (.error e, t.closed type) := by
  have hcond : ¬ ((s.compounds.lookup type).isSome || s.inProgress.contains type) = true := by
    unfold CompileState.known at h
    rw [h]
    exact Bool.false_ne_true
  unfold recordBody
  rw [run_bind]
  change (ite ((s.compounds.lookup type).isSome || s.inProgress.contains type) _ _ :
    Compiling Unit).run s = _
  rw [if_neg hcond, run_bind]
  change (tryCatch (inlines kind inner children) _ >>= _).run (s.opened type) = _
  rw [run_bind, run_tryCatch]
  rcases (inlines kind inner children).run (s.opened type) with ⟨e | body, t⟩ <;> rfl

open CompileState

theorem steady_of_silent {α : Type} {act : Compiling α} (h : ∀ s, (act.run s).2 = s) :
    Moves Steady act := by
  intro s
  rw [h s]
  exact Steady.refl s

/-- Every step of a compiler is steady. -/
def steady : Logic where
  types _ := True
  keys _ := True
  entries _ _ := True
  Holds _ x _ := Moves Steady x
  pure a := moves_pure Steady.refl a
  bind hx hf := Moves.bind (R := Steady) (fun _ _ _ => Steady.trans) hx hf
  unbound _ name _ := moves_throw Steady.refl (EntryError.unbound name)
  margin := steady_of_silent fun _ => rfl
  elementType _ := steady_of_silent fun _ => rfl
  settings h s := h s.table.settings s
  inside k h := by
    intro s
    rw [run_inside]
    obtain ⟨hnesting, hprogress, hcompounds⟩ := h { s with nesting := s.nesting ++ [k] }
    exact ⟨by simp [hnesting], hprogress, hcompounds⟩
  entry _ h := by
    refine Moves.bind (R := Steady) (fun _ _ _ => Steady.trans) ?_ fun e => h e trivial
    intro s
    rw [run_entry]
    exact ⟨rfl, rfl, [], rfl, List.nodup_nil, by simp⟩

theorem steady_fits (n : Node) : steady.Fits n := by
  cases n <;> exact trivial

theorem steady_levels {beyond : String → List Node → Compiling Unit}
    (hbeyond : ∀ type children, Moves Steady (beyond type children)) (fuel : Nat) :
    ∀ type children, Moves Steady (levels kind beyond fuel type children) := by
  induction fuel with
  | zero => exact hbeyond
  | succ fuel ih =>
    intro type children s
    rw [levels]
    cases hs : s.known type with
    | true =>
      rw [run_recordBody_known hs]
      exact Steady.refl s
    | false =>
      have hc : ∀ key type children, steady.keys key → steady.entries key (.compound type children) →
          steady.Holds [key] (levels kind beyond fuel type children)
            (levels kind beyond fuel type children) :=
        fun _ type children _ _ => ih type children
      have hbody : Moves Steady (inlines kind (levels kind beyond fuel) children) :=
        steady.inlines kind hc children (Node.everyAll_of_forall steady_fits children)
          fun _ _ => trivial
      have hinner := hbody (s.opened type)
      rw [run_recordBody_new hs]
      rcases h : (inlines kind (levels kind beyond fuel) children).run (s.opened type) with ⟨e | body, t⟩
      · rw [h] at hinner
        exact hinner.closed
      · rw [h] at hinner
        exact Steady.stored hs hinner body

end Compiling

end ClauseTemplates
