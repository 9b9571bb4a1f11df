import ClauseTemplates.Grammar.Scanning
import ClauseTemplates.Proofs.Grammar.Folding

namespace ClauseTemplates

open Folding Json

mutual

/-- The value that is told: of several slots for one name, the first one. -/
def Captured.told : Captured → Json
  | .value v => v
  | .record type _ slots => .obj (Slot.toldFields [("$class", .str type)] slots)
  | .unwrapped slots => (Slot.toldThis slots).getD .null
  | .array items => .arr (Captured.toldAll items)

def Captured.toldAll : List Captured → List Json
  | [] => []
  | item :: rest => item.told :: Captured.toldAll rest

def Slot.toldFields (fields : Fields) : List Slot → Fields
  | [] => fields
  | .mk name captured _ :: rest =>
    if name = thisName then Slot.toldFields fields rest
    else Slot.toldFields (Fields.insertNew name captured.told fields) rest

def Slot.toldThis : List Slot → Option Json
  | [] => none
  | .mk name captured _ :: rest => if name = thisName then some captured.told else Slot.toldThis rest

end

mutual

/-- All slots for one name tell the same, and none tells another class than that of its record. A
value that stands alone is told by the slots for the current value, a record by the others. -/
def Captured.Coherent : Captured → Prop
  | .value _ => True
  | .record type _ slots => Slot.CoherentAll (· ≠ thisName) slots ∧
    ∀ captured start, .mk "$class" captured start ∈ slots → captured.told = .str type
  | .unwrapped slots => Slot.CoherentAll (· = thisName) slots
  | .array items => Captured.CoherentAll items

def Captured.CoherentAll : List Captured → Prop
  | [] => True
  | item :: rest => item.Coherent ∧ Captured.CoherentAll rest

def Slot.CoherentAll (counts : String → Prop) : List Slot → Prop
  | [] => True
  | .mk name captured _ :: rest =>
    (counts name → captured.Coherent ∧
      ∀ other start, .mk name other start ∈ rest → other.told = captured.told) ∧
    Slot.CoherentAll counts rest

end

mutual

/-- No double is captured, and no record receives an identifier. -/
def Captured.Plain : Captured → Prop
  | .value v => v.Exact
  | .record _ identifier slots => identifier = none ∧ Slot.PlainAll slots
  | .unwrapped slots => Slot.PlainAll slots
  | .array items => Captured.PlainAll items

def Captured.PlainAll : List Captured → Prop
  | [] => True
  | item :: rest => item.Plain ∧ Captured.PlainAll rest

def Slot.PlainAll : List Slot → Prop
  | [] => True
  | .mk _ captured _ :: rest => captured.Plain ∧ Slot.PlainAll rest

end

theorem Slot.plainAll_append {slots more : List Slot} :
    PlainAll (slots ++ more) ↔ PlainAll slots ∧ PlainAll more := by
  induction slots with
  | nil => simp [PlainAll]
  | cons slot slots ih =>
    obtain ⟨name, captured, start⟩ := slot
    simp [PlainAll, ih, and_assoc]

theorem Captured.plain_ofElement {type : Option String} {slots : List Slot} (h : Slot.PlainAll slots) :
    (ofElement type slots).Plain := by
  unfold ofElement
  split
  · exact h
  · cases type with
    | none => exact trivial
    | some type => exact ⟨rfl, h⟩

mutual

theorem Captured.Plain.exact : ∀ {c : Captured}, c.Plain → c.Exact
  | .value _, h => h
  | .record _ _ _, h => Slot.PlainAll.exact h.2
  | .unwrapped _, h => Slot.PlainAll.exact h
  | .array _, h => Captured.PlainAll.exact h

theorem Captured.PlainAll.exact : ∀ {items : List Captured},
    Captured.PlainAll items → Captured.ExactItems items
  | [], _ => trivial
  | _ :: _, h => ⟨Captured.Plain.exact h.1, Captured.PlainAll.exact h.2⟩

theorem Slot.PlainAll.exact : ∀ {slots : List Slot}, Slot.PlainAll slots → Captured.ExactSlots slots
  | [], _ => trivial
  | .mk _ _ _ :: _, h => ⟨Captured.Plain.exact h.1, Slot.PlainAll.exact h.2⟩

end

/-- The fields that are there agree with the slots. -/
def Slot.Agree (fields : Fields) (slots : List Slot) : Prop :=
  ∀ name captured start, .mk name captured start ∈ slots → name ≠ thisName →
    ∀ first, Fields.get? name fields = some first → first = captured.told

theorem Slot.agree_cons {fields : Fields} {name : String} {captured : Captured} {start : Nat}
    {rest : List Slot} (hname : name ≠ thisName) :
    Agree fields (.mk name captured start :: rest) ↔
      (∀ first, Fields.get? name fields = some first → first = captured.told) ∧ Agree fields rest := by
  constructor
  · intro h
    exact ⟨h name captured start List.mem_cons_self hname,
      fun other c s hmem => h other c s (List.mem_cons_of_mem _ hmem)⟩
  · rintro ⟨hfirst, hrest⟩ other c s hmem hother
    rcases List.mem_cons.mp hmem with heq | hmem
    · cases heq
      exact hfirst
    · exact hrest other c s hmem hother

/-- A new field adds that the later slots for its name tell the same. -/
theorem Slot.agree_insertNew {fields : Fields} {name : String} {value : Json} {rest : List Slot}
    (hname : name ≠ thisName) (hfirst : ∀ first, Fields.get? name fields = some first → first = value) :
    Agree (Fields.insertNew name value fields) rest ↔
      (∀ other start, .mk name other start ∈ rest → other.told = value) ∧ Agree fields rest := by
  have hget : (Fields.get? name fields).getD value = value := by
    cases hf : Fields.get? name fields with
    | none => rfl
    | some first => exact hfirst first hf
  constructor
  · intro h
    refine ⟨fun other start hmem => ?_, fun other c s hmem hother first hf => ?_⟩
    · refine (h name other start hmem hname value ?_).symm
      rw [Fields.get?_insertNew, if_pos rfl, hget]
    · refine h other c s hmem hother first ?_
      rw [Fields.get?_insertNew]
      split
      · rename_i heq
        subst heq
        rw [hf]
        rfl
      · exact hf
  · rintro ⟨hlater, hrest⟩ other c s hmem hother first hf
    rw [Fields.get?_insertNew] at hf
    split at hf
    · rename_i heq
      subst heq
      rw [hget] at hf
      cases hf
      exact (hlater c s hmem).symm
    · exact hrest other c s hmem hother first hf

theorem Slot.forall_this_cons {c : Captured} {start : Nat} {rest : List Slot} {first : Json} :
    (∀ d s, .mk thisName d s ∈ Slot.mk thisName c start :: rest → first = d.told) ↔
      first = c.told ∧ ∀ d s, .mk thisName d s ∈ rest → d.told = first := by
  constructor
  · intro h
    exact ⟨h c start List.mem_cons_self, fun d s hmem => (h d s (List.mem_cons_of_mem _ hmem)).symm⟩
  · rintro ⟨hfirst, hrest⟩ d s hmem
    rcases List.mem_cons.mp hmem with heq | hmem
    · cases heq
      exact hfirst
    · exact (hrest d s hmem).symm

theorem Slot.forall_this_other {name : String} {c : Captured} {start : Nat} {rest : List Slot}
    {first : Json} (hname : name ≠ thisName) :
    (∀ d s, .mk thisName d s ∈ Slot.mk name c start :: rest → first = d.told) ↔
      ∀ d s, .mk thisName d s ∈ rest → first = d.told := by
  constructor
  · exact fun h d s hmem => h d s (List.mem_cons_of_mem _ hmem)
  · intro h d s hmem
    rcases List.mem_cons.mp hmem with heq | hmem
    · cases heq
      exact absurd rfl hname
    · exact h d s hmem

namespace Captured

variable {text : List Char}

theorem same_iff_eq {a b : Json} (ha : a.Exact) : a.same b = true ↔ a = b :=
  ⟨ha.eq_of_same, fun h => h ▸ same_self a⟩

mutual

/-- Folding succeeds where what is captured is coherent, with the value that is told. -/
theorem run_fold_iff : ∀ (c : Captured) (n m : Nat) (v : Json), c.Plain →
    ((fold text c).run n = .ok (v, m) ↔ c.Coherent ∧ v = c.told ∧ m = n)
  | .value w, n, m, v, _ => by
    rw [run_fold_value, Coherent, told, true_and]
  | .record type identifier slots, n, m, v, ⟨hid, hslots⟩ => by
    subst hid
    have hclass : ExactFields [("$class", .str type)] := ⟨trivial, trivial⟩
    have hagree : Slot.Agree [("$class", .str type)] slots ↔
        ∀ captured start, .mk "$class" captured start ∈ slots → captured.told = .str type := by
      constructor
      · intro h captured start hmem
        exact (h "$class" captured start hmem (by decide) _ (by rw [Fields.get?_cons, if_pos rfl])).symm
      · intro h name captured start hmem _ first hf
        rw [Fields.get?_cons] at hf
        split at hf
        · rename_i heq
          subst heq
          cases hf
          exact (h captured start hmem).symm
        · cases hf
    rw [run_fold_record, Coherent, told, ← hagree]
    simp only [run_foldSlots_iff slots _ _ _ _ hslots hclass, identified]
    constructor
    · rintro ⟨fields, k, ⟨hc, ha, rfl, rfl⟩, rfl, rfl⟩
      exact ⟨⟨hc, ha⟩, rfl, rfl⟩
    · rintro ⟨⟨hc, ha⟩, rfl, rfl⟩
      exact ⟨_, _, ⟨hc, ha, rfl, rfl⟩, rfl, rfl⟩
  | .unwrapped slots, n, m, v, h => by
    rw [run_fold_unwrapped, Coherent, told]
    simp only [run_foldThis_iff slots none _ _ _ h (fun _ h => by cases h)]
    constructor
    · rintro ⟨found, ⟨hc, _, rfl, rfl⟩, rfl⟩
      exact ⟨hc, rfl, rfl⟩
    · rintro ⟨hc, rfl, rfl⟩
      exact ⟨_, ⟨hc, (fun _ h => by cases h), rfl, rfl⟩, rfl⟩
  | .array items, n, m, v, h => by
    rw [run_fold_array, Coherent, told]
    simp only [run_foldItems_iff items _ _ _ h]
    constructor
    · rintro ⟨vs, ⟨hc, rfl, rfl⟩, rfl⟩
      exact ⟨hc, rfl, rfl⟩
    · rintro ⟨hc, rfl, rfl⟩
      exact ⟨_, ⟨hc, rfl, rfl⟩, rfl⟩

theorem run_foldItems_iff : ∀ (items : List Captured) (n m : Nat) (vs : List Json), PlainAll items →
    ((foldItems text items).run n = .ok (vs, m) ↔ CoherentAll items ∧ vs = toldAll items ∧ m = n)
  | [], n, m, vs, _ => by
    rw [foldItems, run_pure_eq_ok, CoherentAll, toldAll, true_and]
  | item :: rest, n, m, vs, h => by
    rw [run_foldItems_cons, CoherentAll, toldAll]
    simp only [run_fold_iff item _ _ _ h.1, run_foldItems_iff rest _ _ _ h.2]
    constructor
    · rintro ⟨v, k, vs, ⟨hc, rfl, rfl⟩, ⟨hr, rfl, rfl⟩, rfl⟩
      exact ⟨⟨hc, hr⟩, rfl, rfl⟩
    · rintro ⟨⟨hc, hr⟩, rfl, rfl⟩
      exact ⟨_, _, _, ⟨hc, rfl, rfl⟩, ⟨hr, rfl, rfl⟩, rfl⟩

theorem run_foldSlots_iff : ∀ (slots : List Slot) (fields found : Fields) (n m : Nat),
    Slot.PlainAll slots → ExactFields fields →
    ((foldSlots text fields slots).run n = .ok (found, m) ↔
      Slot.CoherentAll (· ≠ thisName) slots ∧ Slot.Agree fields slots ∧
        found = Slot.toldFields fields slots ∧ m = n)
  | [], fields, found, n, m, _, _ => by
    have hagree : Slot.Agree fields [] := fun _ _ _ h => by cases h
    rw [foldSlots, run_pure_eq_ok, Slot.CoherentAll, Slot.toldFields]
    simp [hagree]
  | .mk name c start :: rest, fields, found, n, m, ⟨hc, hrest⟩, hf => by
    rw [Slot.CoherentAll, Slot.toldFields]
    by_cases hname : name = thisName
    · subst hname
      have hagree : Slot.Agree fields (.mk thisName c start :: rest) ↔ Slot.Agree fields rest := by
        constructor
        · exact fun h other d s hmem => h other d s (List.mem_cons_of_mem _ hmem)
        · intro h other d s hmem hother
          rcases List.mem_cons.mp hmem with heq | hmem
          · cases heq
            exact absurd rfl hother
          · exact h other d s hmem hother
      rw [run_foldSlots_this, run_foldSlots_iff rest fields found n m hrest hf, hagree, if_pos rfl]
      simp
    · have hinsert (v : Json) (hv : v.Exact) : ExactFields (Fields.insertNew name v fields) :=
        exactFields_insertNew hv hf
      rw [run_foldSlots_cons hname, if_neg hname, Slot.agree_cons hname]
      simp only [run_fold_iff c _ _ _ hc, ne_eq, hname, not_false_eq_true, forall_true_left]
      have hsame : (∀ first, Fields.get? name fields = some first → first.same c.told = true) ↔
          ∀ first, Fields.get? name fields = some first → first = c.told :=
        forall_congr' fun first => forall_congr' fun h => same_iff_eq (exact_of_get? hf h)
      constructor
      · rintro ⟨v, k, ⟨hcoherent, rfl, rfl⟩, hfirst, hfold⟩
        have hfirst := hsame.mp hfirst
        have hexact : c.told.Exact :=
          exact_fold hc.exact ((run_fold_iff c k k c.told hc).mpr ⟨hcoherent, rfl, rfl⟩)
        obtain ⟨hall, hagree, rfl, rfl⟩ :=
          (run_foldSlots_iff rest _ found _ m hrest (hinsert _ hexact)).mp hfold
        obtain ⟨hlater, hagree⟩ := (Slot.agree_insertNew hname hfirst).mp hagree
        exact ⟨⟨⟨hcoherent, hlater⟩, hall⟩, ⟨hfirst, hagree⟩, rfl, rfl⟩
      · rintro ⟨⟨⟨hcoherent, hlater⟩, hall⟩, ⟨hfirst, hagree⟩, rfl, rfl⟩
        have hexact : c.told.Exact :=
          exact_fold hc.exact ((run_fold_iff c m m c.told hc).mpr ⟨hcoherent, rfl, rfl⟩)
        exact ⟨_, _, ⟨hcoherent, rfl, rfl⟩, hsame.mpr hfirst,
          (run_foldSlots_iff rest _ _ _ _ hrest (hinsert _ hexact)).mpr
            ⟨hall, (Slot.agree_insertNew hname hfirst).mpr ⟨hlater, hagree⟩, rfl, rfl⟩⟩

theorem run_foldThis_iff : ∀ (slots : List Slot) (found result : Option Json) (n m : Nat),
    Slot.PlainAll slots → (∀ first ∈ found, first.Exact) →
    ((foldThis text found slots).run n = .ok (result, m) ↔
      Slot.CoherentAll (· = thisName) slots ∧
        (∀ first ∈ found, ∀ c start, .mk thisName c start ∈ slots → first = c.told) ∧
        result = found.or (Slot.toldThis slots) ∧ m = n)
  | [], found, result, n, m, _, _ => by
    rw [foldThis, run_pure_eq_ok, Slot.CoherentAll, Slot.toldThis]
    simp
  | .mk name c start :: rest, found, result, n, m, ⟨hc, hrest⟩, hf => by
    rw [Slot.CoherentAll, Slot.toldThis]
    by_cases hname : name = thisName
    · subst hname
      rw [run_foldThis_cons, if_pos rfl]
      simp only [run_fold_iff c _ _ _ hc, forall_true_left]
      constructor
      · rintro ⟨v, k, ⟨hcoherent, rfl, rfl⟩, hfirst, hfold⟩
        have hexact : c.told.Exact :=
          exact_fold hc.exact ((run_fold_iff c k k c.told hc).mpr ⟨hcoherent, rfl, rfl⟩)
        have hfound : found.getD c.told = c.told := by
          cases found with
          | none => rfl
          | some first => exact (same_iff_eq (hf first rfl)).mp (hfirst first rfl)
        rw [hfound] at hfold
        obtain ⟨hall, hlater, rfl, rfl⟩ := (run_foldThis_iff rest (some c.told) result _ m hrest
          fun first h => Option.some.inj h ▸ hexact).mp hfold
        have hlater : ∀ d s, .mk thisName d s ∈ rest → d.told = c.told :=
          fun d s hmem => (hlater _ rfl d s hmem).symm
        refine ⟨⟨⟨hcoherent, hlater⟩, hall⟩, fun first h => ?_, ?_, rfl⟩
        · obtain rfl := h
          rw [Option.getD_some] at hfound
          exact Slot.forall_this_cons.mpr ⟨hfound, hfound ▸ hlater⟩
        · cases found with
          | none => rfl
          | some first => rw [Option.getD_some] at hfound; rw [hfound]; rfl
      · rintro ⟨⟨⟨hcoherent, hlater⟩, hall⟩, hfirst, rfl, rfl⟩
        have hexact : c.told.Exact :=
          exact_fold hc.exact ((run_fold_iff c m m c.told hc).mpr ⟨hcoherent, rfl, rfl⟩)
        have hfound (first : Json) (h : first ∈ found) : first = c.told :=
          (Slot.forall_this_cons.mp (hfirst first h)).1
        have hget : found.getD c.told = c.told := by
          cases found with
          | none => rfl
          | some first => exact hfound first rfl
        refine ⟨_, _, ⟨hcoherent, rfl, rfl⟩, fun first h => ?_, ?_⟩
        · exact (same_iff_eq (hf first h)).mpr (hfound first h)
        · rw [hget]
          refine (run_foldThis_iff rest (some c.told) _ _ _ hrest
            fun first h => Option.some.inj h ▸ hexact).mpr ⟨hall, ?_, ?_, rfl⟩
          · intro first h d s hmem
            exact Option.some.inj h ▸ (hlater d s hmem).symm
          · cases found with
            | none => rfl
            | some first => rw [hfound first rfl]; rfl
    · rw [run_foldThis_other hname, run_foldThis_iff rest found result n m hrest hf, if_neg hname]
      simp only [hname, false_implies, true_and, Slot.forall_this_other hname]

end

end Captured

end ClauseTemplates
