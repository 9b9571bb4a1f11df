import ClauseTemplates.Proofs.Document.Texts
import ClauseTemplates.Proofs.Grammar.Compiled
import ClauseTemplates.Proofs.Grammar.Reading

namespace ClauseTemplates

mutual

/-- What a text shows, without the places where it shows it. -/
def Captured.unplaced : Captured → Captured
  | .value v => .value v
  | .record type identifier slots => .record type identifier (Slot.unplacedAll slots)
  | .unwrapped slots => .unwrapped (Slot.unplacedAll slots)
  | .array items => .array (Captured.unplacedAll items)

def Captured.unplacedAll : List Captured → List Captured
  | [] => []
  | item :: rest => Captured.unplaced item :: Captured.unplacedAll rest

def Slot.unplacedAll : List Slot → List Slot
  | [] => []
  | .mk name captured _ :: rest => .mk name captured.unplaced 0 :: Slot.unplacedAll rest

end

theorem Slot.unplacedAll_append (slots more : List Slot) :
    unplacedAll (slots ++ more) = unplacedAll slots ++ unplacedAll more := by
  induction slots with
  | nil => rfl
  | cons slot slots ih =>
    obtain ⟨name, captured, start⟩ := slot
    simp [unplacedAll, ih]

theorem Slot.any_isThis_unplacedAll (slots : List Slot) :
    (unplacedAll slots).any Slot.isThis = slots.any Slot.isThis := by
  induction slots with
  | nil => rfl
  | cons slot slots ih =>
    obtain ⟨name, captured, start⟩ := slot
    simp [unplacedAll, ih, Slot.isThis, Slot.name]

theorem Captured.unplaced_ofElement (type : Option String) (slots : List Slot) :
    (ofElement type slots).unplaced = ofElement type (Slot.unplacedAll slots) := by
  unfold ofElement
  rw [Slot.any_isThis_unplacedAll]
  split
  · rfl
  · cases type <;> rfl

namespace Grammar

open Scan Scanner Markdown

variable {context : ScanContext} {compound : String → Scanner Char Captured}

section

variable (context : ScanContext) (compound : String → Scanner Char Captured)

/-- Wherever this text stands before `rest`, exactly the text is read, and it shows these slots. -/
def Reads (g : Grammar) (rest w : List Char) (shown : List Slot) : Prop :=
  ∀ offset, ∃ slots, read? (g.scanner context compound) ⟨offset, w ++ rest⟩ =
    some (slots, ⟨offset + w.length, rest⟩) ∧ Slot.unplacedAll slots = shown

def ReadsValue (g : ValueGrammar) (rest w : List Char) (shown : Captured) : Prop :=
  ∀ offset, ∃ captured, read? (valueScanner context compound g) ⟨offset, w ++ rest⟩ =
    some (captured, ⟨offset + w.length, rest⟩) ∧ captured.unplaced = shown

end

section

variable {g first second body : Grammar} {rest v w : List Char} {shown more : List Slot}

theorem reads_text (chars rest : List Char) : Reads context compound (.text chars) rest chars [] :=
  fun offset => ⟨[], read?_text_append chars rest offset, rfl⟩

theorem reads_nothing (rest : List Char) : Reads context compound .nothing rest [] [] :=
  reads_text [] rest

theorem Reads.seq (h : Reads context compound first (w ++ rest) v shown)
    (h' : Reads context compound second rest w more) :
    Reads context compound (.seq first second) rest (v ++ w) (shown ++ more) := by
  intro offset
  obtain ⟨slots, hslots, rfl⟩ := h offset
  obtain ⟨later, hlater, rfl⟩ := h' (offset + v.length)
  have hlen : offset + (v ++ w).length = offset + v.length + w.length := by
    rw [List.length_append, Nat.add_assoc]
  refine ⟨slots ++ later, ?_, Slot.unplacedAll_append slots later⟩
  rw [List.append_assoc, hlen]
  exact read?_seq_some hslots hlater

/-- Text in front of what is read. -/
theorem Reads.after (chars : List Char) (h : Reads context compound second rest w more) :
    Reads context compound (.seq (.text chars) second) rest (chars ++ w) more :=
  (reads_text chars (w ++ rest)).seq h

/-- Text behind what is read. -/
theorem Reads.before (chars : List Char) (h : Reads context compound first (chars ++ rest) w shown) :
    Reads context compound (.seq first (.text chars)) rest (w ++ chars) shown := by
  have hseq := h.seq (reads_text chars rest)
  rwa [List.append_nil] at hseq

theorem reads_last (chars rest : List Char) :
    Reads context compound (.seq (.text chars) .nothing) rest chars [] := by
  have h : Reads context compound (.seq (.text chars) .nothing) rest (chars ++ []) [] :=
    (reads_nothing rest).after chars
  rwa [List.append_nil] at h

theorem Reads.enclosed (before after : List Char)
    (h : Reads context compound body (after ++ rest) w shown) :
    Reads context compound (.concat [.text before, body, .text after]) rest (before ++ w ++ after)
      shown := by
  have hseq := (h.seq (reads_last after rest)).after before
  rwa [List.append_nil, ← List.append_assoc] at hseq

theorem Reads.either_first (h : Reads context compound first rest w shown) :
    Reads context compound (.either first second) rest w shown := by
  intro offset
  obtain ⟨slots, hslots, hshown⟩ := h offset
  exact ⟨slots, by rw [read?_either, hslots, Option.some_or], hshown⟩

theorem Reads.either_second (h : Reads context compound second rest w shown)
    (hnone : ∀ offset, read? (first.scanner context compound) ⟨offset, w ++ rest⟩ = none) :
    Reads context compound (.either first second) rest w shown := by
  intro offset
  obtain ⟨slots, hslots, hshown⟩ := h offset
  exact ⟨slots, by rw [read?_either, hnone, Option.none_or, hslots], hshown⟩

theorem Reads.optionally (h : Reads context compound body rest w shown) :
    Reads context compound (.optionally body) rest w shown := by
  intro offset
  obtain ⟨slots, hslots, hshown⟩ := h offset
  exact ⟨slots, by rw [read?_optionally, hslots, Option.getD_some], hshown⟩

theorem reads_optionally_none
    (hnone : ∀ offset, read? (body.scanner context compound) ⟨offset, rest⟩ = none) :
    Reads context compound (.optionally body) rest [] [] := by
  intro offset
  exact ⟨[], by rw [read?_optionally, List.nil_append, hnone]; rfl, rfl⟩

theorem ReadsValue.slot {value : ValueGrammar} {captured : Captured} (name : String)
    (h : ReadsValue context compound value rest w captured) :
    Reads context compound (.slot name value) rest w [.mk name captured 0] := by
  intro offset
  obtain ⟨found, hfound, rfl⟩ := h offset
  exact ⟨[.mk name found offset], by rw [read?_slot, hfound]; rfl, rfl⟩

theorem Reads.record (type : String) (identifier : Option String)
    (h : Reads context compound body rest w shown) :
    ReadsValue context compound (.record type identifier body) rest w
      (.record type identifier shown) := by
  intro offset
  obtain ⟨slots, hslots, rfl⟩ := h offset
  exact ⟨.record type identifier slots, by rw [read?_record, hslots]; rfl, rfl⟩

theorem Reads.element (type : Option String) (h : Reads context compound body rest w shown) :
    ReadsValue context compound (.element type body) rest w (.ofElement type shown) := by
  intro offset
  obtain ⟨slots, hslots, rfl⟩ := h offset
  exact ⟨.ofElement type slots, by rw [read?_element, hslots]; rfl,
    Captured.unplaced_ofElement type slots⟩

end

theorem assemble_present (separator : List Char) (g : Grammar) (rest : List (Grammar × Bool)) :
    Compiling.assemble separator ((g, false) :: rest) =
      (.seq g (Compiling.assemble separator rest).2,
        .seq (.text separator) (.seq g (Compiling.assemble separator rest).2)) := rfl

theorem assemble_elidable (separator : List Char) (g : Grammar) (rest : List (Grammar × Bool)) :
    Compiling.assemble separator ((g, true) :: rest) =
      (.either (.seq g (Compiling.assemble separator rest).2) (Compiling.assemble separator rest).1,
        .either (.seq (.text separator) (.seq g (Compiling.assemble separator rest).2))
          (Compiling.assemble separator rest).2) := rfl

section

variable {separator rest v w : List Char} {g : Grammar} {blocks : List (Grammar × Bool)}
  {shown more : List Slot}

/-- A block that is present is read in front of the others. -/
theorem reads_present (elidable : Bool) (h : Reads context compound g (w ++ rest) v shown)
    (hlater : Reads context compound (Compiling.assemble separator blocks).2 rest w more) :
    Reads context compound (Compiling.assemble separator ((g, elidable) :: blocks)).1 rest (v ++ w)
        (shown ++ more) ∧
      Reads context compound (Compiling.assemble separator ((g, elidable) :: blocks)).2 rest
        (separator ++ (v ++ w)) (shown ++ more) := by
  have hblock := h.seq hlater
  cases elidable with
  | true =>
    rw [assemble_elidable]
    exact ⟨hblock.either_first, (hblock.after _).either_first⟩
  | false =>
    rw [assemble_present]
    exact ⟨hblock, hblock.after _⟩

/-- A block is left out where it and the others cannot be read. -/
theorem reads_absent_first
    (hnone : ∀ offset, read? ((seq g (Compiling.assemble separator blocks).2).scanner context compound)
      ⟨offset, w ++ rest⟩ = none)
    (h : Reads context compound (Compiling.assemble separator blocks).1 rest w more) :
    Reads context compound (Compiling.assemble separator ((g, true) :: blocks)).1 rest w more := by
  rw [assemble_elidable]
  exact h.either_second hnone

/-- A block behind others is left out together with its separator. -/
theorem reads_absent_later
    (hnone : ∀ next : Cursor Char, w ++ rest = separator ++ next.rest →
      read? ((seq g (Compiling.assemble separator blocks).2).scanner context compound) next = none)
    (h : Reads context compound (Compiling.assemble separator blocks).2 rest w more) :
    Reads context compound (Compiling.assemble separator ((g, true) :: blocks)).2 rest w more := by
  rw [assemble_elidable]
  exact h.either_second fun offset => read?_after_none fun next hnext => hnone next hnext

end

/-- What stands behind the blocks of a region. -/
def regionEnd (margin : List Char) (blocks : List (List Char)) : List Char :=
  if blocks.isEmpty then clauseClose else newline margin ++ clauseClose

theorem regionText_eq (margin : List Char) (name : String) (src : Option String)
    (blocks : List (List Char)) : regionText margin name src blocks =
      clauseOpen name src ++ (newline margin ++ (blockText margin blocks ++ regionEnd margin blocks)) := by
  cases blocks <;> simp [regionText, regionEnd, blockText]

/-- A region without blocks is read without a body: its body would end in a line break. -/
theorem reads_region {body : Grammar} {margin rest : List Char} {blocks : List (List Char)}
    {shown : List Slot} (name : String) (src : Option String)
    (hbody : Reads context compound body (regionEnd margin blocks ++ rest) (blockText margin blocks)
      shown) (hshown : blocks = [] → shown = []) :
    Reads context compound (ofRegion margin name src body) rest (regionText margin name src blocks)
      shown := by
  rw [regionText_eq]
  refine Reads.after _ (Reads.after _ ?_)
  cases blocks with
  | nil =>
    rw [hshown rfl]
    refine Reads.seq (reads_optionally_none fun offset => ?_) (reads_last clauseClose rest)
    obtain ⟨slots, hslots, _⟩ := hbody offset
    have hread : read? (body.scanner context compound) ⟨offset, regionEnd margin [] ++ rest⟩ =
        some (slots, ⟨offset, clauseClose ++ rest⟩) := hslots
    have hline : ¬ newline margin <+: clauseClose ++ rest :=
      fun h => absurd (List.cons_prefix_cons.mp h).1 (by decide)
    rw [read?_seq, hread, Option.bind_some, read?_text_none hline]
    rfl
  | cons block blocks =>
    have hline : Reads context compound (.seq body (.text (newline margin))) (clauseClose ++ rest)
        (blockText margin (block :: blocks) ++ newline margin) shown := by
      refine Reads.before _ ?_
      rw [← List.append_assoc]
      exact hbody
    have hseq := hline.optionally.seq (reads_last clauseClose rest)
    rwa [List.append_nil, List.append_assoc] at hseq

end Grammar

end ClauseTemplates
