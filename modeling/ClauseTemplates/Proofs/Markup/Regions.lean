import ClauseTemplates.Markup.Block
import Mathlib.Data.List.Infix
import Mathlib.Tactic.SplitIfs

namespace ClauseTemplates.Markup

/-- How many regions of a tag a line adds to those that are open. -/
def change (tag : RegionTag) (text : List Char) : Int :=
  if (regionOpening? text).any (·.tag == tag) then 1
  else if regionClosing? text == some tag then -1
  else 0

/-- How many regions of a tag some lines open and do not close. -/
def surplus (tag : RegionTag) : List (List Char) → Int
  | [] => 0
  | text :: rest => change tag text + surplus tag rest

/-- At no line do more regions end than there were, with so many open in front. -/
def StaysOpen (tag : RegionTag) (depth : Nat) (texts : List (List Char)) : Prop :=
  ∀ front, front <+: texts → 0 ≤ depth + surplus tag front

instance (tag : RegionTag) (depth : Nat) (texts : List (List Char)) :
    Decidable (StaysOpen tag depth texts) :=
  decidable_of_iff (∀ front ∈ texts.inits, 0 ≤ depth + surplus tag front) (by simp [StaysOpen])

variable {tag : RegionTag} {depth : Nat} {text : List Char} {texts : List (List Char)}
  {lines inside after : List Line}

theorem surplus_append (tag : RegionTag) (front rest : List (List Char)) :
    surplus tag (front ++ rest) = surplus tag front + surplus tag rest := by
  induction front with
  | nil => exact (Int.zero_add _).symm
  | cons text front ih =>
    rw [List.cons_append, surplus, surplus, ih, Int.add_assoc]

theorem staysOpen_nil : StaysOpen tag depth [] := by
  intro front hfront
  rw [List.prefix_nil.mp hfront, surplus]
  omega

/-- With the depth behind the first line, the others are judged on their own. -/
theorem staysOpen_cons {next : Nat} (hnext : (next : Int) = depth + change tag text) :
    StaysOpen tag depth (text :: texts) ↔ StaysOpen tag next texts := by
  constructor
  · intro h front hfront
    have htext := h (text :: front) (List.cons_prefix_cons.mpr ⟨rfl, hfront⟩)
    rw [surplus] at htext
    omega
  · intro h front hfront
    cases front with
    | nil =>
      rw [surplus]
      omega
    | cons first front =>
      obtain ⟨heq, hmore⟩ := List.cons_prefix_cons.mp hfront
      have hrest := h front hmore
      rw [heq, surplus]
      omega

theorem not_staysOpen_cons (h : (depth : Int) + change tag text < 0) :
    ¬ StaysOpen tag depth (text :: texts) := by
  intro hopen
  have htext := hopen [text] (List.cons_prefix_cons.mpr ⟨rfl, List.nil_prefix⟩)
  rw [surplus, surplus] at htext
  omega

theorem staysOpen_concat : StaysOpen tag depth (texts ++ [text]) ↔
    StaysOpen tag depth texts ∧ 0 ≤ depth + surplus tag texts + change tag text := by
  have hwhole : surplus tag (texts ++ [text]) = surplus tag texts + change tag text := by
    rw [surplus_append, surplus, surplus, Int.add_zero]
  constructor
  · intro h
    refine ⟨fun front hfront => h front (hfront.trans (List.prefix_append texts [text])), ?_⟩
    have hlast := h _ (List.prefix_refl _)
    omega
  · rintro ⟨hopen, hlast⟩ front hfront
    rcases List.prefix_concat_iff.mp hfront with rfl | hfront
    · omega
    · exact hopen front hfront

/-- A line ends the region, or it leaves another depth behind. -/
theorem splitRegion?_cons (tag : RegionTag) (depth : Nat) (line : Line) (rest : List Line) :
    ((depth : Int) + change tag line.text < 0 ∧ change tag line.text = -1 ∧ depth = 0 ∧
        splitRegion? tag depth (line :: rest) = some ([], rest)) ∨
      ∃ next : Nat, (next : Int) = depth + change tag line.text ∧
        splitRegion? tag depth (line :: rest) =
          (splitRegion? tag next rest).map fun found => (line :: found.1, found.2) := by
  rw [splitRegion?.eq_def tag depth (line :: rest), change]
  dsimp only
  split_ifs
  · exact Or.inr ⟨depth + 1, by omega, rfl⟩
  · cases depth with
    | zero => exact Or.inl ⟨by omega, rfl, rfl, rfl⟩
    | succ depth => exact Or.inr ⟨depth, by omega, rfl⟩
  · exact Or.inr ⟨depth, by omega, rfl⟩

/-- A region is not closed where its lines never close more than they open. -/
theorem splitRegion?_eq_none_iff :
    splitRegion? tag depth lines = none ↔ StaysOpen tag depth (lines.map Line.text) := by
  induction lines generalizing depth with
  | nil => exact ⟨fun _ => staysOpen_nil, fun _ => rfl⟩
  | cons line rest ih =>
    rcases splitRegion?_cons tag depth line rest with ⟨hend, _, _, hsplit⟩ | ⟨next, hnext, hsplit⟩
    · rw [hsplit]
      exact ⟨by nofun, fun h => absurd h (not_staysOpen_cons hend)⟩
    · rw [hsplit, Option.map_eq_none_iff, ih, List.map_cons, staysOpen_cons hnext]

/-- The line that closes a region is the first that closes more than were opened. -/
theorem splitRegion?_eq_some_iff : splitRegion? tag depth lines = some (inside, after) ↔
    ∃ close, lines = inside ++ close :: after ∧ change tag close.text = -1 ∧
      depth + surplus tag (inside.map Line.text) = 0 ∧ StaysOpen tag depth (inside.map Line.text) := by
  induction lines generalizing depth inside with
  | nil =>
    constructor
    · nofun
    · rintro ⟨close, h, _⟩
      cases inside <;> cases h
  | cons line rest ih =>
    rcases splitRegion?_cons tag depth line rest with ⟨hend, hclose, hdepth, hsplit⟩ | ⟨next, hnext, hsplit⟩
    · rw [hsplit]
      constructor
      · rintro ⟨⟩
        refine ⟨line, rfl, hclose, ?_, staysOpen_nil⟩
        rw [List.map_nil, surplus, hdepth]
        rfl
      · rintro ⟨close, heq, _, _, hopen⟩
        cases inside with
        | nil =>
          cases heq
          rfl
        | cons first inside =>
          cases heq
          exact absurd hopen (not_staysOpen_cons hend)
    · rw [hsplit, Option.map_eq_some_iff]
      constructor
      · rintro ⟨⟨inside, after⟩, hfound, ⟨⟩⟩
        obtain ⟨close, rfl, hclose, hzero, hopen⟩ := ih.mp hfound
        refine ⟨close, rfl, hclose, ?_, (staysOpen_cons hnext).mpr hopen⟩
        rw [List.map_cons, surplus]
        dsimp only
        omega
      · rintro ⟨close, heq, hclose, hzero, hopen⟩
        cases inside with
        | nil =>
          cases heq
          rw [List.map_nil, surplus] at hzero
          omega
        | cons first inside =>
          cases heq
          rw [List.map_cons, surplus] at hzero
          exact ⟨(inside, after), ih.mpr ⟨close, rfl, hclose, by omega, (staysOpen_cons hnext).mp hopen⟩, rfl⟩

end ClauseTemplates.Markup
