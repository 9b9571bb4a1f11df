import ClauseTemplates.Proofs.Grammar.Reading
import ClauseTemplates.Proofs.Scan.Separated

namespace ClauseTemplates

open Scan Scanner

mutual

/-- All that a text shows of a value, also what the value of a block makes no use of. -/
inductive Seen
  | captured (c : Captured)
  | record (type : String) (identifier : Option String) (slots : List SeenSlot)
  /-- A single value, of a record type if there is one. -/
  | element (type : Option String) (slots : List SeenSlot)
  | array (items : List Seen)

inductive SeenSlot
  | mk (name : String) (seen : Seen) (start : Nat)

end

def SeenSlot.isThis : SeenSlot → Bool
  | .mk name _ _ => name == thisName

namespace Seen

mutual

/-- What is captured of what is seen. -/
def erase : Seen → Captured
  | .captured c => c
  | .record type identifier slots => .record type identifier (eraseSlots slots)
  | .element type slots => .ofElement type (eraseSlots slots)
  | .array items => .array (eraseItems items)

def eraseItems : List Seen → List Captured
  | [] => []
  | item :: rest => item.erase :: eraseItems rest

def eraseSlots : List SeenSlot → List Slot
  | [] => []
  | .mk name seen start :: rest => .mk name seen.erase start :: eraseSlots rest

end

theorem eraseItems_eq_map (items : List Seen) : eraseItems items = items.map erase := by
  induction items with
  | nil => rfl
  | cons item rest ih => rw [eraseItems, ih, List.map_cons]

theorem eraseSlots_append (slots more : List SeenSlot) :
    eraseSlots (slots ++ more) = eraseSlots slots ++ eraseSlots more := by
  induction slots with
  | nil => rfl
  | cons slot rest ih =>
    obtain ⟨name, seen, start⟩ := slot
    rw [List.cons_append, eraseSlots, eraseSlots, ih, List.cons_append]

theorem any_eraseSlots (slots : List SeenSlot) :
    (eraseSlots slots).any Slot.isThis = slots.any SeenSlot.isThis := by
  induction slots with
  | nil => rfl
  | cons slot rest ih =>
    obtain ⟨name, seen, start⟩ := slot
    rw [eraseSlots, List.any_cons, List.any_cons, ih]
    rfl

theorem mem_eraseSlots {slots : List SeenSlot} {name : String} {seen : Seen} {start : Nat}
    (h : .mk name seen start ∈ slots) : .mk name seen.erase start ∈ eraseSlots slots := by
  induction slots with
  | nil => cases h
  | cons slot rest ih =>
    obtain ⟨other, s, n⟩ := slot
    rw [eraseSlots]
    rcases List.mem_cons.mp h with heq | h
    · cases heq
      exact List.mem_cons_self
    · exact List.mem_cons_of_mem _ (ih h)

end Seen

namespace Grammar

variable (context : ScanContext) (compound : String → Scanner Char Captured)

/-- A value without blocks of this template inside. -/
def seenLeaf (value : ValueGrammar) : Scanner Char Seen := do
  pure (.captured (← valueScanner context compound value))

mutual

/-- Reads what the scanner of the grammar reads, and keeps all that is seen. -/
def seenScanner : Grammar → Scanner Char (List SeenSlot)
  | .text chars => do
    exactly chars
    pure []
  | .seq first second => do
    let slots ← seenScanner first
    pure (slots ++ (← seenScanner second))
  | .either first second => orElse (seenScanner first) (seenScanner second)
  | .flagged branch name flag =>
    located (seenScanner branch) fun slots start =>
      slots ++ [.mk name (.captured (.value (.bool flag))) start]
  | .slot name value =>
    located (seenValueScanner value) fun seen start => [.mk name seen start]
  | .formula => do
    exactly Markdown.formulaOpen
    let _ ← takeUntil (exactly Markdown.formulaClose)
    pure []
  | .orderedMark => do
    orderedMarkScanner
    pure []
  | .optionally body => do
    pure ((← optional (seenScanner body)).getD [])

def seenValueScanner : ValueGrammar → Scanner Char Seen
  | .scalar program => seenLeaf context compound (.scalar program)
  | .reference type => seenLeaf context compound (.reference type)
  | .enum values => seenLeaf context compound (.enum values)
  | .compound type => seenLeaf context compound (.compound type)
  | .record type identifier body => do
    pure (.record type identifier (← seenScanner body))
  | .element type body => do pure (.element type (← seenScanner body))
  | .items separator nonempty item => do
    pure (.array (← separated (seenValueScanner item) (exactly separator) nonempty false))

end

variable {context compound}

theorem read?_seenLeaf (value : ValueGrammar) (c : Cursor Char) :
    read? (valueScanner context compound value) c =
      (read? (seenLeaf context compound value) c).map (Prod.map Seen.erase id) := by
  rw [seenLeaf, read?_bind]
  cases read? (valueScanner context compound value) c <;> rfl

mutual

/-- What the scanner of a grammar reads is what is seen, with the rest of it erased. -/
theorem read?_scanner : ∀ (g : Grammar) (c : Cursor Char),
    read? (g.scanner context compound) c =
      (read? (g.seenScanner context compound) c).map (Prod.map Seen.eraseSlots id)
  | .text chars, c => by
    rw [scanner, skip, seenScanner, read?_bind, read?_bind]
    cases read? (exactly chars) c <;> rfl
  | .seq first second, c => by
    rw [scanner, seenScanner, read?_bind, read?_bind, read?_scanner first]
    cases read? (first.seenScanner context compound) c with
    | none => rfl
    | some x =>
      rw [Option.map_some, Option.bind_some, Option.bind_some, read?_bind, read?_bind]
      dsimp only [Prod.map, id]
      rw [read?_scanner second]
      cases read? (second.seenScanner context compound) x.2 with
      | none => rfl
      | some y => simp [Seen.eraseSlots_append]
  | .either first second, c => by
    rw [scanner, seenScanner, read?_orElse, read?_orElse, read?_scanner first, read?_scanner second]
    cases read? (first.seenScanner context compound) c <;> rfl
  | .flagged branch name flag, c => by
    rw [scanner, seenScanner, read?_located, read?_located, read?_scanner branch]
    cases read? (branch.seenScanner context compound) c with
    | none => rfl
    | some x => simp [Seen.eraseSlots_append, Seen.eraseSlots, Seen.erase]
  | .slot name value, c => by
    rw [scanner, seenScanner, read?_located, read?_located, read?_valueScanner value]
    cases read? (seenValueScanner context compound value) c <;> rfl
  | .formula, c => by
    rw [scanner, skip, seenScanner, read?_bind, read?_bind, read?_bind]
    cases read? (exactly Markdown.formulaOpen) c with
    | none => rfl
    | some x =>
      rw [Option.bind_some, Option.bind_some, read?_bind]
      cases read? (takeUntil (exactly Markdown.formulaClose)) x.2 <;> rfl
  | .orderedMark, c => by
    rw [scanner, skip, seenScanner, read?_bind, read?_bind]
    cases read? orderedMarkScanner c <;> rfl
  | .optionally body, c => by
    rw [scanner, seenScanner, read?_bind, read?_bind, read?_optional, read?_optional,
      read?_scanner body]
    cases read? (body.seenScanner context compound) c <;> rfl

theorem read?_valueScanner : ∀ (v : ValueGrammar) (c : Cursor Char),
    read? (valueScanner context compound v) c =
      (read? (seenValueScanner context compound v) c).map (Prod.map Seen.erase id)
  | .scalar program, c => by
    rw [seenValueScanner]
    exact read?_seenLeaf _ c
  | .reference type, c => by
    rw [seenValueScanner]
    exact read?_seenLeaf _ c
  | .enum values, c => by
    rw [seenValueScanner]
    exact read?_seenLeaf _ c
  | .compound type, c => by
    rw [seenValueScanner]
    exact read?_seenLeaf _ c
  | .record type identifier body, c => by
    rw [valueScanner, seenValueScanner, read?_bind, read?_bind, read?_scanner body]
    cases read? (body.seenScanner context compound) c <;> rfl
  | .element type body, c => by
    rw [valueScanner, seenValueScanner, read?_bind, read?_bind, read?_scanner body]
    cases read? (body.seenScanner context compound) c <;> rfl
  | .items separator nonempty item, c => by
    rw [valueScanner, seenValueScanner, read?_bind, read?_bind,
      read?_separated_map (read?_valueScanner item)]
    cases read? (separated (seenValueScanner context compound item) (exactly separator) nonempty
      false) c with
    | none => rfl
    | some x => simp [Seen.erase, Seen.eraseItems_eq_map]

end

end Grammar

end ClauseTemplates
