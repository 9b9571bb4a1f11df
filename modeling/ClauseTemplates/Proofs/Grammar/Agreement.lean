import Mathlib
import ClauseTemplates.Proofs.Grammar.Folding
import ClauseTemplates.Proofs.Json.Same
import ClauseTemplates.Proofs.Json.Sorted
import ClauseTemplates.Proofs.Template.Equality

namespace ClauseTemplates

namespace Folding

theorem run_bind_eq_error {x : Folding α} {f : α → Folding β} {n : Nat} {e : Inconsistency} :
    (x >>= f).run n = .error e ↔
      x.run n = .error e ∨ ∃ a k, x.run n = .ok (a, k) ∧ (f a).run k = .error e := by
  rw [StateT.run_bind]
  cases x.run n with
  | error d => simp [bind, Except.bind]
  | ok r =>
    obtain ⟨a, k⟩ := r
    simp [bind, Except.bind]

@[simp] theorem run_pure_eq_error {a : α} {n : Nat} {e : Inconsistency} :
    (pure a : Folding α).run n = .error e ↔ False := by
  constructor
  · intro h
    cases h
  · exact False.elim

end Folding

namespace Slot

def captured : Slot → Captured
  | .mk _ captured _ => captured

def start : Slot → Nat
  | .mk _ _ start => start

/-- The slots that a record has fields for. -/
def others (slots : List Slot) : List Slot := slots.filter fun slot => !slot.isThis

/-- The slots for the current value itself. -/
def those (slots : List Slot) : List Slot := slots.filter Slot.isThis

/-- The values of slots under their names. -/
def named (slots : List Slot) (values : List Json) : Json.Fields :=
  (slots.map Slot.name).zip values

end Slot

namespace Captured

open Folding Json

variable {text : List Char}

/-- The values of captured parts that are folded one after the other, where identifiers are numbered
from `n` before the first and from `m` behind the last. -/
inductive InOrder (text : List Char) : List Captured → Nat → List Json → Nat → Prop
  | nil (n : Nat) : InOrder text [] n [] n
  | cons {c : Captured} {rest : List Captured} {v : Json} {vs : List Json} {n k m : Nat} :
    (fold text c).run n = .ok (v, k) → InOrder text rest k vs m →
      InOrder text (c :: rest) n (v :: vs) m

theorem inOrder_nil {n m : Nat} {vs : List Json} :
    InOrder text [] n vs m ↔ vs = [] ∧ m = n := by
  constructor
  · rintro ⟨⟩
    exact ⟨rfl, rfl⟩
  · rintro ⟨rfl, rfl⟩
    exact .nil _

theorem inOrder_cons {c : Captured} {rest : List Captured} {n m : Nat} {vs : List Json} :
    InOrder text (c :: rest) n vs m ↔
      ∃ v k ws, (fold text c).run n = .ok (v, k) ∧ InOrder text rest k ws m ∧ vs = v :: ws := by
  constructor
  · rintro (_ | ⟨hv, hrest⟩)
    exact ⟨_, _, _, hv, hrest, rfl⟩
  · rintro ⟨v, k, ws, hv, hrest, rfl⟩
    exact .cons hv hrest

/-- Slots fold to values that each agree with the first one of its name, where the values that are
`known` come first. -/
structure Agreement (text : List Char) (known : Fields) (slots : List Slot) (n : Nat)
    (values : List Json) (m : Nat) : Prop where
  folds : InOrder text (slots.map Slot.captured) n values m
  agree : ∀ name value, (name, value) ∈ Slot.named slots values →
    ∃ first, Fields.get? name (known ++ Slot.named slots values) = some first ∧
      first.same value = true

/-- A slot that does not fold, or to a value other than the first one of its name. -/
def Disagrees (text : List Char) (known : Fields) (slot : Slot) (n : Nat) (e : Inconsistency) :
    Prop :=
  (fold text slot.captured).run n = .error e ∨
    ∃ value m first, (fold text slot.captured).run n = .ok (value, m) ∧
      Fields.get? slot.name known = some first ∧ first.same value = false ∧
      e = ⟨slot.name, first, value, Position.locate text slot.start⟩

/-- The error is that of the earliest slot that does not fold or disagrees. -/
def Disagreement (text : List Char) (known : Fields) (slots : List Slot) (n : Nat)
    (e : Inconsistency) : Prop :=
  ∃ before slot after values k, slots = before ++ slot :: after ∧
    Agreement text known before n values k ∧
    Disagrees text (known ++ Slot.named before values) slot k e

theorem agreement_nil {known : Fields} {n m : Nat} {values : List Json} :
    Agreement text known [] n values m ↔ values = [] ∧ m = n := by
  constructor
  · intro h
    exact inOrder_nil.mp h.folds
  · intro h
    exact ⟨inOrder_nil.mpr h, fun _ _ hmem => by cases hmem⟩

theorem disagreement_nil {known : Fields} {n : Nat} {e : Inconsistency} :
    ¬ Disagreement text known [] n e := by
  rintro ⟨before, slot, after, _, _, h, _⟩
  cases before <;> cases h

theorem get?_append (name : String) (fields more : Fields) :
    Fields.get? name (fields ++ more) = (Fields.get? name fields).or (Fields.get? name more) :=
  List.lookup_append

/-- The first slot agrees with what is known, and the others with that and the first slot. -/
theorem agreement_cons {known : Fields} {slot : Slot} {rest : List Slot} {n m : Nat}
    {values : List Json} :
    Agreement text known (slot :: rest) n values m ↔
      ∃ v k vs, (fold text slot.captured).run n = .ok (v, k) ∧
        (∀ first, Fields.get? slot.name known = some first → first.same v = true) ∧
        Agreement text (known ++ [(slot.name, v)]) rest k vs m ∧ values = v :: vs := by
  have hsplit : ∀ (v : Json) (vs : List Json),
      known ++ Slot.named (slot :: rest) (v :: vs) =
        (known ++ [(slot.name, v)]) ++ Slot.named rest vs := by
    intro v vs
    simp [Slot.named]
  have hfirst : ∀ v more, Fields.get? slot.name (known ++ [(slot.name, v)] ++ more) =
      some ((Fields.get? slot.name known).getD v) := by
    intro v more
    rw [get?_append, get?_append, Fields.get?_cons, if_pos rfl]
    cases Fields.get? slot.name known <;> rfl
  constructor
  · rintro ⟨hfolds, hagree⟩
    obtain ⟨v, k, vs, hv, hrest, rfl⟩ := inOrder_cons.mp hfolds
    rw [hsplit] at hagree
    refine ⟨v, k, vs, hv, fun first hf => ?_, ⟨hrest, fun name value hmem => ?_⟩, rfl⟩
    · obtain ⟨found, hfound, hsame⟩ := hagree slot.name v List.mem_cons_self
      rw [hfirst, hf] at hfound
      cases hfound
      exact hsame
    · exact hagree name value (List.mem_cons_of_mem _ hmem)
  · rintro ⟨v, k, vs, hv, hknown, ⟨hrest, hagree⟩, rfl⟩
    refine ⟨inOrder_cons.mpr ⟨v, k, vs, hv, hrest, rfl⟩, fun name value hmem => ?_⟩
    rw [hsplit]
    rcases List.mem_cons.mp hmem with heq | hmem
    · cases heq
      refine ⟨_, hfirst v _, ?_⟩
      cases hf : Fields.get? slot.name known with
      | none => exact same_self v
      | some first => exact hknown first hf
    · exact hagree name value hmem

theorem disagreement_cons {known : Fields} {slot : Slot} {rest : List Slot} {n : Nat}
    {e : Inconsistency} :
    Disagreement text known (slot :: rest) n e ↔
      Disagrees text known slot n e ∨
        ∃ v k, (fold text slot.captured).run n = .ok (v, k) ∧
          (∀ first, Fields.get? slot.name known = some first → first.same v = true) ∧
          Disagreement text (known ++ [(slot.name, v)]) rest k e := by
  constructor
  · rintro ⟨before, other, after, values, k, hslots, hbefore, hother⟩
    cases before with
    | nil =>
      obtain ⟨rfl, rfl⟩ := List.cons.inj hslots
      obtain ⟨rfl, rfl⟩ := agreement_nil.mp hbefore
      rw [Slot.named, List.zip_nil_right, List.append_nil] at hother
      exact Or.inl hother
    | cons first before =>
      obtain ⟨rfl, hrest⟩ := List.cons.inj hslots
      obtain ⟨v, j, vs, hv, hknown, hagreed, rfl⟩ := agreement_cons.mp hbefore
      refine Or.inr ⟨v, j, hv, hknown, before, other, after, vs, k, hrest, hagreed, ?_⟩
      rwa [List.append_assoc]
  · rintro (h | ⟨v, j, hv, hknown, before, other, after, vs, k, rfl, hbefore, hother⟩)
    · refine ⟨[], slot, rest, [], n, rfl, agreement_nil.mpr ⟨rfl, rfl⟩, ?_⟩
      rwa [Slot.named, List.zip_nil_right, List.append_nil]
    · refine ⟨slot :: before, other, after, v :: vs, k, rfl,
        agreement_cons.mpr ⟨v, j, vs, hv, hknown, hbefore, rfl⟩, ?_⟩
      rwa [List.append_assoc] at hother

theorem run_agree_eq_error {name : String} {start n : Nat} {first second : Json}
    {e : Inconsistency} :
    (agree text name start first second).run n = .error e ↔
      first.same second = false ∧ e = ⟨name, first, second, Position.locate text start⟩ := by
  unfold agree
  split
  · rename_i h
    simp only [run_pure_eq_error, h, Bool.true_eq_false, false_and]
  · rename_i h
    rw [Bool.not_eq_true] at h
    simp only [h, true_and]
    constructor
    · intro h
      cases h
      rfl
    · rintro rfl
      rfl

/-- A slot with a value: what stands under its name has to agree, and is kept. -/
theorem run_kept_eq_error {found : Option Json} {v : Json} {name : String} {start n : Nat}
    {keep : Folding α} {add : Folding α} {e : Inconsistency} :
    (match found with
      | some first => do
        agree text name start first v
        keep
      | none => add : Folding α).run n = .error e ↔
      (∃ first, found = some first ∧ first.same v = false ∧
        e = ⟨name, first, v, Position.locate text start⟩) ∨
      (∀ first, found = some first → first.same v = true) ∧
        (if found.isSome then keep else add).run n = .error e := by
  cases found with
  | none => simp
  | some first =>
    dsimp only
    rw [run_bind_eq_error, run_agree_eq_error]
    simp only [run_agree, Option.some.injEq, exists_eq_left', forall_eq', Option.isSome_some,
      if_true, and_assoc, exists_and_left, exists_eq_left, exists_const]

theorem run_foldSlots_cons_eq_error {fields : Fields} {name : String} {c : Captured}
    {start n : Nat} {rest : List Slot} {e : Inconsistency} (hname : name ≠ thisName) :
    (foldSlots text fields (.mk name c start :: rest)).run n = .error e ↔
      Disagrees text fields (.mk name c start) n e ∨
        ∃ v k, (fold text c).run n = .ok (v, k) ∧
          (∀ first, Fields.get? name fields = some first → first.same v = true) ∧
          (foldSlots text (Fields.insertNew name v fields) rest).run k = .error e := by
  have hnew : ∀ v, (if (Fields.get? name fields).isSome then foldSlots text fields rest
      else foldSlots text (Fields.insert name v fields) rest) =
        foldSlots text (Fields.insertNew name v fields) rest := by
    intro v
    unfold Fields.insertNew
    split <;> rfl
  rw [foldSlots, if_neg hname, run_bind_eq_error, Disagrees, or_assoc]
  refine or_congr_right ?_
  constructor
  · rintro ⟨v, k, hv, he⟩
    rcases run_kept_eq_error.mp he with ⟨first, hf, hs, rfl⟩ | ⟨hs, he⟩
    · exact Or.inl ⟨v, k, first, hv, hf, hs, rfl⟩
    · exact Or.inr ⟨v, k, hv, hs, hnew v ▸ he⟩
  · rintro (⟨v, k, first, hv, hf, hs, rfl⟩ | ⟨v, k, hv, hs, he⟩)
    · exact ⟨v, k, hv, run_kept_eq_error.mpr (Or.inl ⟨first, hf, hs, rfl⟩)⟩
    · exact ⟨v, k, hv, run_kept_eq_error.mpr (Or.inr ⟨hs, (hnew v).symm ▸ he⟩)⟩

theorem run_foldThis_cons_eq_error {found : Option Json} {known : Fields} {c : Captured}
    {start n : Nat} {rest : List Slot} {e : Inconsistency}
    (h : found = Fields.get? thisName known) :
    (foldThis text found (.mk thisName c start :: rest)).run n = .error e ↔
      Disagrees text known (.mk thisName c start) n e ∨
        ∃ v k, (fold text c).run n = .ok (v, k) ∧ (∀ first ∈ found, first.same v = true) ∧
          (foldThis text (some (found.getD v)) rest).run k = .error e := by
  have hnew : ∀ v, (if found.isSome then foldThis text found rest else foldThis text (some v) rest) =
      foldThis text (some (found.getD v)) rest := by
    intro v
    cases found <;> rfl
  rw [foldThis, if_neg (not_not_intro rfl), run_bind_eq_error, Disagrees, or_assoc]
  refine or_congr_right ?_
  constructor
  · rintro ⟨v, k, hv, he⟩
    rcases run_kept_eq_error.mp he with ⟨first, hf, hs, rfl⟩ | ⟨hs, he⟩
    · exact Or.inl ⟨v, k, first, hv, h.symm.trans hf, hs, rfl⟩
    · exact Or.inr ⟨v, k, hv, hs, hnew v ▸ he⟩
  · rintro (⟨v, k, first, hv, hf, hs, rfl⟩ | ⟨v, k, hv, hs, he⟩)
    · exact ⟨v, k, hv, run_kept_eq_error.mpr (Or.inl ⟨first, h.trans hf, hs, rfl⟩)⟩
    · exact ⟨v, k, hv, run_kept_eq_error.mpr (Or.inr ⟨hs, (hnew v).symm ▸ he⟩)⟩

/-- A value that stands under its name already is not added. -/
theorem get?_insertNew_append {fields known : Fields} {name : String} {v : Json}
    (h : ∀ key, Fields.get? key fields = Fields.get? key known) (key : String) :
    Fields.get? key (Fields.insertNew name v fields) =
      Fields.get? key (known ++ [(name, v)]) := by
  rw [Fields.get?_insertNew, get?_append, h, Fields.get?_cons]
  by_cases hkey : key = name
  · subst hkey
    rw [if_pos rfl, if_pos rfl]
    cases Fields.get? key known <;> rfl
  · rw [if_neg hkey, if_neg hkey, Fields.get?_nil, Option.or_none]

/-- Fields are added for slots that agree, each with the first value of its name. -/
theorem run_foldSlots_eq_ok {slots : List Slot} {fields known found : Fields} {n m : Nat}
    (hsorted : fields.Sorted) (h : ∀ key, Fields.get? key fields = Fields.get? key known) :
    (foldSlots text fields slots).run n = .ok (found, m) ↔
      ∃ values, Agreement text known (Slot.others slots) n values m ∧ found.Sorted ∧
        ∀ key, Fields.get? key found =
          Fields.get? key (known ++ Slot.named (Slot.others slots) values) := by
  induction slots generalizing fields known n with
  | nil =>
    rw [foldSlots, run_pure_eq_ok]
    constructor
    · rintro ⟨rfl, rfl⟩
      refine ⟨[], agreement_nil.mpr ⟨rfl, rfl⟩, hsorted, fun key => ?_⟩
      rw [Slot.named, List.zip_nil_right, List.append_nil, h]
    · rintro ⟨values, hagree, hfound, hget⟩
      obtain ⟨rfl, rfl⟩ := agreement_nil.mp hagree
      refine ⟨hfound.ext hsorted fun key => ?_, rfl⟩
      rw [hget, Slot.named, List.zip_nil_right, List.append_nil, h]
  | cons slot rest ih =>
    obtain ⟨name, c, start⟩ := slot
    by_cases hname : name = thisName
    · subst hname
      rw [run_foldSlots_this]
      exact ih hsorted h
    · have hothers : Slot.others (.mk name c start :: rest) = .mk name c start :: Slot.others rest :=
        List.filter_cons_of_pos (by simpa [Slot.isThis, Slot.name] using hname)
      rw [run_foldSlots_cons hname, hothers]
      simp only [agreement_cons]
      constructor
      · rintro ⟨v, k, hv, hs, hrest⟩
        obtain ⟨vs, hagree, hfound, hget⟩ :=
          (ih (hsorted.insertNew name v) (get?_insertNew_append h)).mp hrest
        refine ⟨v :: vs, ⟨v, k, vs, hv, fun first hf => hs first ((h _).trans hf), hagree, rfl⟩,
          hfound, fun key => ?_⟩
        rw [hget, List.append_assoc]
        rfl
      · rintro ⟨_, ⟨v, k, vs, hv, hs, hagree, rfl⟩, hfound, hget⟩
        refine ⟨v, k, hv, fun first hf => hs first ((h _).symm.trans hf),
          (ih (hsorted.insertNew name v) (get?_insertNew_append h)).mpr
            ⟨vs, hagree, hfound, fun key => ?_⟩⟩
        rw [hget, List.append_assoc]
        rfl

theorem disagrees_congr {known other : Fields} {slot : Slot} {n : Nat} {e : Inconsistency}
    (h : Fields.get? slot.name known = Fields.get? slot.name other) :
    Disagrees text known slot n e ↔ Disagrees text other slot n e := by
  rw [Disagrees, Disagrees, h]

theorem run_foldSlots_eq_error {slots : List Slot} {fields known : Fields} {n : Nat}
    {e : Inconsistency} (h : ∀ key, Fields.get? key fields = Fields.get? key known) :
    (foldSlots text fields slots).run n = .error e ↔
      Disagreement text known (Slot.others slots) n e := by
  induction slots generalizing fields known n with
  | nil =>
    rw [foldSlots, run_pure_eq_error, Slot.others, List.filter_nil]
    exact iff_of_false id disagreement_nil
  | cons slot rest ih =>
    obtain ⟨name, c, start⟩ := slot
    by_cases hname : name = thisName
    · subst hname
      rw [foldSlots, if_pos rfl]
      exact ih h
    · have hothers : Slot.others (.mk name c start :: rest) = .mk name c start :: Slot.others rest :=
        List.filter_cons_of_pos (by simpa [Slot.isThis, Slot.name] using hname)
      rw [run_foldSlots_cons_eq_error hname, hothers, disagreement_cons, disagrees_congr (h _)]
      refine or_congr_right (exists_congr fun v => exists_congr fun k => and_congr_right fun _ => ?_)
      rw [h]
      exact and_congr_right fun _ => ih (get?_insertNew_append h)

theorem those_cons_this {c : Captured} {start : Nat} {rest : List Slot} :
    Slot.those (.mk thisName c start :: rest) = .mk thisName c start :: Slot.those rest :=
  List.filter_cons_of_pos rfl

theorem those_cons_other {name : String} {c : Captured} {start : Nat} {rest : List Slot}
    (hname : name ≠ thisName) : Slot.those (.mk name c start :: rest) = Slot.those rest :=
  List.filter_cons_of_neg (by simpa [Slot.isThis, Slot.name] using hname)

theorem some_getD_eq {found : Option Json} {known : Fields}
    (h : found = Fields.get? thisName known) (v : Json) :
    some (found.getD v) = Fields.get? thisName (known ++ [(thisName, v)]) := by
  rw [get?_append, ← h]
  cases found <;> rfl

/-- The current value is the first one among the slots for it, and they all agree with it. -/
theorem run_foldThis_eq_ok {slots : List Slot} {found result : Option Json} {known : Fields}
    {n m : Nat} (h : found = Fields.get? thisName known) :
    (foldThis text found slots).run n = .ok (result, m) ↔
      ∃ values, Agreement text known (Slot.those slots) n values m ∧
        result = Fields.get? thisName (known ++ Slot.named (Slot.those slots) values) := by
  induction slots generalizing found known n with
  | nil =>
    rw [foldThis, run_pure_eq_ok, Slot.those, List.filter_nil]
    simp only [agreement_nil]
    constructor
    · rintro ⟨rfl, rfl⟩
      refine ⟨[], ⟨rfl, rfl⟩, ?_⟩
      rw [Slot.named, List.zip_nil_right, List.append_nil, h]
    · rintro ⟨_, ⟨rfl, rfl⟩, rfl⟩
      rw [Slot.named, List.zip_nil_right, List.append_nil, h]
      exact ⟨rfl, rfl⟩
  | cons slot rest ih =>
    obtain ⟨name, c, start⟩ := slot
    by_cases hname : name = thisName
    · subst hname
      rw [run_foldThis_cons, those_cons_this]
      simp only [agreement_cons]
      constructor
      · rintro ⟨v, k, hv, hs, hrest⟩
        obtain ⟨vs, hagree, rfl⟩ := (ih (some_getD_eq h v)).mp hrest
        refine ⟨v :: vs, ⟨v, k, vs, hv, fun first hf => hs first (h.trans hf), hagree, rfl⟩, ?_⟩
        rw [List.append_assoc]
        rfl
      · rintro ⟨_, ⟨v, k, vs, hv, hs, hagree, rfl⟩, rfl⟩
        refine ⟨v, k, hv, fun first hf => hs first (h.symm.trans hf),
          (ih (some_getD_eq h v)).mpr ⟨vs, hagree, ?_⟩⟩
        rw [List.append_assoc]
        rfl
    · rw [run_foldThis_other hname, those_cons_other hname]
      exact ih h

theorem run_foldThis_eq_error {slots : List Slot} {found : Option Json} {known : Fields}
    {n : Nat} {e : Inconsistency} (h : found = Fields.get? thisName known) :
    (foldThis text found slots).run n = .error e ↔
      Disagreement text known (Slot.those slots) n e := by
  induction slots generalizing found known n with
  | nil =>
    rw [foldThis, run_pure_eq_error, Slot.those, List.filter_nil]
    exact iff_of_false id disagreement_nil
  | cons slot rest ih =>
    obtain ⟨name, c, start⟩ := slot
    by_cases hname : name = thisName
    · subst hname
      rw [run_foldThis_cons_eq_error h, those_cons_this, disagreement_cons]
      refine or_congr_right (exists_congr fun v => exists_congr fun k => and_congr_right fun _ => ?_)
      rw [ih (some_getD_eq h v), h]
      exact Iff.rfl
    · rw [foldThis, if_pos hname, those_cons_other hname]
      exact ih h

theorem run_foldItems_eq_ok {items : List Captured} {vs : List Json} {n m : Nat} :
    (foldItems text items).run n = .ok (vs, m) ↔ InOrder text items n vs m := by
  induction items generalizing vs n with
  | nil => rw [foldItems, run_pure_eq_ok, inOrder_nil]
  | cons item rest ih =>
    rw [run_foldItems_cons, inOrder_cons]
    simp only [ih]

/-- The error of the first part that does not fold. -/
theorem run_foldItems_eq_error {items : List Captured} {n : Nat} {e : Inconsistency} :
    (foldItems text items).run n = .error e ↔
      ∃ before item after vs k, items = before ++ item :: after ∧ InOrder text before n vs k ∧
        (fold text item).run k = .error e := by
  induction items generalizing n with
  | nil =>
    rw [foldItems, run_pure_eq_error]
    refine iff_of_false id ?_
    rintro ⟨before, item, after, _, _, h, _⟩
    cases before <;> cases h
  | cons first rest ih =>
    rw [foldItems, run_bind_eq_error]
    constructor
    · rintro (he | ⟨v, k, hv, he⟩)
      · exact ⟨[], first, rest, [], n, rfl, .nil n, he⟩
      · rw [run_bind_eq_error] at he
        rcases he with he | ⟨_, _, _, he⟩
        · obtain ⟨before, item, after, vs, j, rfl, hbefore, he⟩ := ih.mp he
          exact ⟨first :: before, item, after, v :: vs, j, rfl, .cons hv hbefore, he⟩
        · exact (run_pure_eq_error.mp he).elim
    · rintro ⟨before, item, after, vs, k, hitems, hbefore, he⟩
      cases before with
      | nil =>
        obtain ⟨rfl, rfl⟩ := List.cons.inj hitems
        obtain ⟨rfl, rfl⟩ := inOrder_nil.mp hbefore
        exact Or.inl he
      | cons other before =>
        obtain ⟨rfl, rfl⟩ := List.cons.inj hitems
        obtain ⟨v, j, ws, hv, hinner, rfl⟩ := inOrder_cons.mp hbefore
        exact Or.inr ⟨v, j, hv, run_bind_eq_error.mpr
          (Or.inl (ih.mpr ⟨before, item, after, ws, k, rfl, hinner, he⟩))⟩

/-- The fields of a record: under each name the first value that is told, and a fresh identifier in
the field for it if nothing is told there. -/
structure Recorded (identifier : Option String) (pairs : Fields) (k : Nat) (fields : Fields)
    (m : Nat) : Prop where
  sorted : fields.Sorted
  get?_eq : ∀ name, Fields.get? name fields = (Fields.get? name pairs).or
    (if identifier = some name then some (.str (Identifier.numbered k)) else none)
  fresh : ∀ name, identifier = some name → Fields.get? name pairs = none → m = k + 1
  kept : (∀ name, identifier = some name → Fields.get? name pairs ≠ none) → m = k

theorem Recorded.unique {identifier : Option String} {pairs fields others : Fields} {k m j : Nat}
    (h : Recorded identifier pairs k fields m) (h' : Recorded identifier pairs k others j) :
    fields = others ∧ m = j := by
  refine ⟨h.sorted.ext h'.sorted fun name => (h.get?_eq name).trans (h'.get?_eq name).symm, ?_⟩
  by_cases hk : ∀ name, identifier = some name → Fields.get? name pairs ≠ none
  · rw [h.kept hk, h'.kept hk]
  · push Not at hk
    obtain ⟨name, hname, hnone⟩ := hk
    rw [h.fresh name hname hnone, h'.fresh name hname hnone]

theorem recorded_identified {identifier : Option String} {fields pairs : Fields} {k : Nat}
    (hsorted : fields.Sorted) (h : ∀ name, Fields.get? name fields = Fields.get? name pairs) :
    Recorded identifier pairs k (identified identifier fields k).1
      (identified identifier fields k).2 := by
  unfold identified
  cases identifier with
  | none => exact ⟨hsorted, fun name => by simp [h], by simp, fun _ => rfl⟩
  | some i =>
    dsimp only
    split
    · rename_i hi
      obtain ⟨v, hv⟩ := Option.isSome_iff_exists.mp hi
      rw [h] at hv
      refine ⟨hsorted, fun name => ?_, ?_, fun _ => rfl⟩
      · rw [h]
        by_cases hname : i = name
        · subst hname
          rw [hv, Option.some_or]
        · rw [if_neg (fun heq => hname (Option.some.inj heq)), Option.or_none]
      · rintro _ ⟨⟩ hnone
        cases hv.symm.trans hnone
    · rename_i hi
      rw [Option.not_isSome_iff_eq_none, h] at hi
      refine ⟨hsorted.insert i _, fun name => ?_, fun _ _ _ => rfl, fun hk => (hk i rfl hi).elim⟩
      rw [Fields.get?_insert, h]
      by_cases hname : name = i
      · subst hname
        rw [if_pos rfl, if_pos rfl, hi, Option.none_or]
      · rw [if_neg hname, if_neg (fun heq => hname (Option.some.inj heq).symm), Option.or_none]

theorem run_fold_record_eq_error {type : String} {identifier : Option String} {slots : List Slot}
    {n : Nat} {e : Inconsistency} :
    (fold text (.record type identifier slots)).run n = .error e ↔
      (foldSlots text [("$class", .str type)] slots).run n = .error e := by
  rw [fold, run_bind_eq_error]
  refine or_iff_left ?_
  rintro ⟨fields, k, _, h⟩
  cases identifier with
  | none => exact run_pure_eq_error.mp h
  | some name =>
    dsimp only at h
    split at h
    · exact run_pure_eq_error.mp h
    · rcases run_bind_eq_error.mp h with h | ⟨_, _, _, h⟩
      · cases h
      · exact run_pure_eq_error.mp h

/-- All slots for the current value have one name, so its value is that of the first of them. -/
theorem get?_named_those {slots : List Slot} {values : List Json} {n m : Nat}
    (h : InOrder text ((Slot.those slots).map Slot.captured) n values m) :
    Fields.get? thisName (Slot.named (Slot.those slots) values) = values.head? := by
  cases hs : Slot.those slots with
  | nil =>
    rw [hs] at h
    obtain ⟨rfl, _⟩ := inOrder_nil.mp h
    rfl
  | cons slot rest =>
    have hslot : slot.isThis = true :=
      (List.mem_filter.mp (show slot ∈ Slot.those slots from hs ▸ List.mem_cons_self)).2
    rw [hs] at h
    obtain ⟨v, _, vs, _, _, rfl⟩ := inOrder_cons.mp h
    exact (Fields.get?_cons ..).trans (if_pos (beq_iff_eq.mp hslot).symm)

/-- Folding is agreement of what was captured. A record folds just when all its slots but those for
the current value fold, one after the other, to the first value of their name, which for the name of
the class is the class; its fields are these values and the identifier. Otherwise the error is that
of the earliest slot that does not fold or disagrees. The items of an array fold one after the other,
and the slots for the current value have to agree in the same way as the fields of a record. -/
theorem fold_iff_agreement (text : List Char) (n : Nat) :
    (∀ type identifier slots,
      (∀ w m, (fold text (.record type identifier slots)).run n = .ok (w, m) ↔
        ∃ values k fields,
          Agreement text [("$class", .str type)] (Slot.others slots) n values k ∧
          Recorded identifier
            (("$class", .str type) :: Slot.named (Slot.others slots) values) k fields m ∧
          w = .obj fields) ∧
      ∀ e, (fold text (.record type identifier slots)).run n = .error e ↔
        Disagreement text [("$class", .str type)] (Slot.others slots) n e) ∧
    (∀ items,
      (∀ w m, (fold text (.array items)).run n = .ok (w, m) ↔
        ∃ values, InOrder text items n values m ∧ w = .arr values) ∧
      ∀ e, (fold text (.array items)).run n = .error e ↔
        ∃ before item after values k, items = before ++ item :: after ∧
          InOrder text before n values k ∧ (fold text item).run k = .error e) ∧
    (∀ slots,
      (∀ w m, (fold text (.unwrapped slots)).run n = .ok (w, m) ↔
        ∃ values, Agreement text [] (Slot.those slots) n values m ∧
          w = values.head?.getD .null) ∧
      ∀ e, (fold text (.unwrapped slots)).run n = .error e ↔
        Disagreement text [] (Slot.those slots) n e) ∧
    ∀ v, (fold text (.value v)).run n = .ok (v, n) := by
  have hclass : ∀ type, Fields.Sorted [("$class", .str type)] := fun _ => Fields.sorted_singleton _
  have hnone : none = Fields.get? thisName [] := rfl
  refine ⟨fun type identifier slots => ⟨fun w m => ?_, fun e => ?_⟩,
    fun items => ⟨fun w m => ?_, fun e => ?_⟩, fun slots => ⟨fun w m => ?_, fun e => ?_⟩,
    fun v => run_fold_value.mpr ⟨rfl, rfl⟩⟩
  · rw [run_fold_record]
    simp only [run_foldSlots_eq_ok (hclass type) fun _ => rfl]
    constructor
    · rintro ⟨fields, k, ⟨values, hagree, hsorted, hget⟩, rfl, rfl⟩
      exact ⟨values, k, _, hagree, recorded_identified hsorted hget, rfl⟩
    · rintro ⟨values, k, fields, hagree, hrecorded, rfl⟩
      obtain ⟨found, hsorted, hget⟩ := Fields.exists_sorted
        (("$class", .str type) :: Slot.named (Slot.others slots) values)
      obtain ⟨rfl, rfl⟩ := hrecorded.unique (recorded_identified hsorted hget)
      exact ⟨found, k, ⟨values, hagree, hsorted, hget⟩, rfl, rfl⟩
  · rw [run_fold_record_eq_error, run_foldSlots_eq_error fun _ => rfl]
  · rw [run_fold_array]
    simp only [run_foldItems_eq_ok]
  · rw [fold, run_bind_eq_error, run_foldItems_eq_error]
    refine or_iff_left ?_
    rintro ⟨_, _, _, h⟩
    exact run_pure_eq_error.mp h
  · rw [run_fold_unwrapped]
    simp only [run_foldThis_eq_ok hnone]
    constructor
    · rintro ⟨_, ⟨values, hagree, rfl⟩, rfl⟩
      refine ⟨values, hagree, ?_⟩
      rw [List.nil_append, get?_named_those hagree.folds]
    · rintro ⟨values, hagree, rfl⟩
      refine ⟨_, ⟨values, hagree, rfl⟩, ?_⟩
      rw [List.nil_append, get?_named_those hagree.folds]
  · rw [fold, run_bind_eq_error, run_foldThis_eq_error hnone]
    refine or_iff_left ?_
    rintro ⟨_, _, _, h⟩
    exact run_pure_eq_error.mp h

end Captured

namespace Deed

open Captured

def schema : Schema :=
  ⟨[.concept "Deed" [.plain "part" "Part"], .concept "Part" [.plain "a" "String"]]⟩

def settings : Settings := { Settings.standard with clauseIdentifier := thisName }

def markup : String :=
  "\x7b\x7b#clause part\x7d\x7d\n\x7b\x7bthis\x7d\x7d\n\x7b\x7b/clause\x7d\x7d"

def template : Template :=
  ⟨.clause, "Deed", [.clause "part" (some "Part") none none
    [.markup .paragraph [.variable ⟨thisName, some "Part", none, none, []⟩]]]⟩

def slot : Slot := .mk thisName (.record "Part" none [.mk "a" (.value (.str "x")) 2]) 0

/-- The current value of a clause is no field of it, so an identifier field of this name is always
fresh, also where a slot has its name. -/
theorem fold_iff_agreement_this :
    Template.ofMarkup schema .clause "Deed" markup = .ok template ∧
      ∃ p, (template.parser ⟨0, ⟨0, 0, 0⟩⟩ (Table.empty schema settings)).1 = .ok p ∧
        p.capture "a \x22x\x22".toList = .ok (.record "Deed" (some thisName)
          [.mk "part" (.record "Part" (some thisName) [slot]) 0]) ∧
        slot.name = thisName ∧
        (fold "a \x22x\x22".toList slot.captured).run 0 =
          .ok (.obj [("$class", .str "Part"), ("a", .str "x")], 0) ∧
        (fold "a \x22x\x22".toList (.record "Part" (some thisName) [slot])).run 0 =
          .ok (.obj [("$class", .str "Part"), (thisName, .str (Identifier.numbered 0))], 1) := by
  refine ⟨Template.eq_ok_of_equal (by decide +kernel), _, by cbv, by cbv, by cbv, by cbv, by cbv⟩

end Deed

end ClauseTemplates
