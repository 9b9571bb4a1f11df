import ClauseTemplates.Proofs.Scan.Repeated
import Mathlib.Data.List.Forall2

namespace ClauseTemplates.Scanner

open Scan

variable {τ α β ξ : Type}

/-- Items after a first one, without the failures on the way. -/
def laterItems? (item : Scanner τ α) (separator : Scanner τ Unit) :
    Nat → Cursor τ → List α × Cursor τ
  | 0, c => ([], c)
  | fuel + 1, c =>
    match read? separator c with
    | none => ([], c)
    | some (_, between) =>
      match read? item between with
      | none => ([], c)
      | some (a, next) =>
        if c.offset < next.offset then
          let later := laterItems? item separator fuel next
          (a :: later.1, later.2)
        else ([a], next)

theorem separatedTail_eq (item : Scanner τ α) (separator : Scanner τ Unit) (fuel : Nat)
    (found : List α) (alt : Option (Failure τ)) (c : Cursor τ) :
    (separatedTail item separator fuel found alt c).1 =
        found.reverse ++ (laterItems? item separator fuel c).1 ∧
      (separatedTail item separator fuel found alt c).2.1 =
        (laterItems? item separator fuel c).2 := by
  induction fuel generalizing found alt c with
  | zero => simp [separatedTail, laterItems?]
  | succ fuel ih =>
    unfold separatedTail laterItems? read?
    cases separator c with
    | failure f => simp [Outcome.result?]
    | success u between later =>
      simp only [Outcome.result?]
      cases item between with
      | failure f => simp
      | success a next alt' =>
        simp only
        split
        · obtain ⟨h1, h2⟩ := ih (a :: found) (merge (merge alt later) alt') next
          refine ⟨?_, h2⟩
          rw [h1]
          simp
        · simp

theorem read?_separated (item : Scanner τ α) (separator : Scanner τ Unit) (nonempty : Bool)
    (c : Cursor τ) :
    read? (separated item separator nonempty false) c =
      match read? item c with
      | none => if nonempty then none else some ([], c)
      | some (a, next) =>
        let later := laterItems? item separator (next.rest.length + 1) next
        some (a :: later.1, later.2) := by
  unfold read? separated
  cases item c with
  | failure f =>
    cases nonempty <;> rfl
  | success a next alt =>
    obtain ⟨h1, h2⟩ :=
      separatedTail_eq item separator (next.rest.length + 1) [a] alt next
    simp only [Outcome.result?, Bool.false_eq_true, if_false, h1, h2]
    rfl

/-- What stands behind an item: the later items, each with a separator in front, and the rest. -/
def behind (separator : List τ) (texts : List (List τ)) (rest : List τ) : List τ :=
  texts.flatMap (separator ++ ·) ++ rest

@[simp] theorem behind_nil (separator rest : List τ) : behind separator [] rest = rest := rfl

@[simp] theorem behind_cons (separator text rest : List τ) (texts : List (List τ)) :
    behind separator (text :: texts) rest =
      separator ++ (text ++ behind separator texts rest) := by
  simp [behind]

/-- A list ends where no separator with an item behind it can be read. -/
def Stops (item : Scanner τ α) (separator : Scanner τ Unit) (rest : List τ) : Prop :=
  ∀ offset between, read? separator ⟨offset, rest⟩ = some ((), between) →
    read? item between = none

theorem laterItems?_of_stops {item : Scanner τ α} {separator : Scanner τ Unit} {rest : List τ}
    (h : Stops item separator rest) (fuel offset : Nat) :
    laterItems? item separator fuel ⟨offset, rest⟩ = ([], ⟨offset, rest⟩) := by
  cases fuel with
  | zero => rfl
  | succ fuel =>
    unfold laterItems?
    cases hs : read? separator ⟨offset, rest⟩ with
    | none => rfl
    | some x => simp only [h offset x.2 hs]

theorem laterItems?_none {item : Scanner τ α} {separator : Scanner τ Unit} {c between : Cursor τ}
    (hseparator : read? separator c = some ((), between)) (hitem : read? item between = none)
    (fuel : Nat) : laterItems? item separator fuel c = ([], c) := by
  cases fuel with
  | zero => rfl
  | succ fuel => simp only [laterItems?, hseparator, hitem]

theorem laterItems?_first {item : Scanner τ α} {separator : Scanner τ Unit} {c between next : Cursor τ}
    {a : α} (hseparator : read? separator c = some ((), between))
    (hitem : read? item between = some (a, next)) (fuel : Nat) :
    ∃ more, (laterItems? item separator (fuel + 1) c).1 = a :: more := by
  simp only [laterItems?, hseparator, hitem]
  split
  · exact ⟨_, rfl⟩
  · exact ⟨[], rfl⟩

theorem laterItems?_some {item : Scanner τ α} {separator : Scanner τ Unit} {c between next : Cursor τ}
    {a : α} (hseparator : read? separator c = some ((), between))
    (hitem : read? item between = some (a, next)) (hmoves : c.offset < next.offset) (fuel : Nat) :
    laterItems? item separator (fuel + 1) c =
      (a :: (laterItems? item separator fuel next).1, (laterItems? item separator fuel next).2) := by
  simp only [laterItems?, hseparator, hitem, if_pos hmoves]

/-- Items that are read one by one before what stands behind them are read as a list, if each of them
has some text with its separator. -/
theorem laterItems?_of_items [DecidableEq τ] {item : Scanner τ α} {separator rest : List τ}
    (hstop : Stops item (exactly separator) rest) (text : ξ → List τ) (P : ξ → α → Prop)
    (xs : List ξ) (hs : ∀ x, separator ++ text x ≠ [])
    (hitem : ∀ before x later, xs = before ++ x :: later → ∀ offset, ∃ a,
      read? item ⟨offset, text x ++ behind separator (later.map text) rest⟩ =
        some (a, ⟨offset + (text x).length, behind separator (later.map text) rest⟩) ∧ P x a)
    (fuel offset : Nat) (hf : (behind separator (xs.map text) rest).length < fuel) :
    ∃ as, laterItems? item (exactly separator) fuel
          ⟨offset, behind separator (xs.map text) rest⟩ =
        (as, ⟨offset + (xs.flatMap fun x => separator ++ text x).length, rest⟩) ∧
      List.Forall₂ P xs as := by
  induction xs generalizing fuel offset with
  | nil => exact ⟨[], laterItems?_of_stops hstop fuel offset, .nil⟩
  | cons x xs ih =>
    obtain ⟨fuel, rfl⟩ : ∃ n, fuel = n + 1 := ⟨fuel - 1, by omega⟩
    obtain ⟨a, ha, hP⟩ := hitem [] x xs rfl (offset + separator.length)
    have hpos : 0 < separator.length + (text x).length := by
      rw [← List.length_append]
      exact List.length_pos_iff.mpr (hs x)
    simp only [List.map_cons, behind_cons, List.length_append] at hf ⊢
    obtain ⟨as, has, hall⟩ := ih
      (fun before y later h => hitem (x :: before) y later (by rw [h]; rfl)) fuel
      (offset + separator.length + (text x).length) (by omega)
    refine ⟨a :: as, ?_, .cons hP hall⟩
    rw [laterItems?_some (read?_exactly separator offset _) ha (by dsimp only; omega), has]
    simp only [List.flatMap_cons, List.length_append, Nat.add_assoc]

theorem read?_separated_of_items [DecidableEq τ] {item : Scanner τ α} {separator rest : List τ}
    (hstop : Stops item (exactly separator) rest) (text : ξ → List τ) (P : ξ → α → Prop) (x : ξ)
    (xs : List ξ) (hs : ∀ x, separator ++ text x ≠ []) (nonempty : Bool)
    (hitem : ∀ before y later, x :: xs = before ++ y :: later → ∀ offset, ∃ a,
      read? item ⟨offset, text y ++ behind separator (later.map text) rest⟩ =
        some (a, ⟨offset + (text y).length, behind separator (later.map text) rest⟩) ∧ P y a)
    (offset : Nat) :
    ∃ as, read? (separated item (exactly separator) nonempty false)
          ⟨offset, text x ++ behind separator (xs.map text) rest⟩ =
        some (as, ⟨offset + (text x ++ xs.flatMap fun y => separator ++ text y).length, rest⟩) ∧
      List.Forall₂ P (x :: xs) as := by
  obtain ⟨a, ha, hP⟩ := hitem [] x xs rfl offset
  obtain ⟨as, has, hall⟩ := laterItems?_of_items hstop text P xs hs
    (fun before y later h => hitem (x :: before) y later (by rw [h]; rfl))
    ((behind separator (xs.map text) rest).length + 1) (offset + (text x).length) (by omega)
  refine ⟨a :: as, ?_, .cons hP hall⟩
  rw [read?_separated]
  simp only [ha, has, List.length_append, Nat.add_assoc]

/-- The texts that a list was read from, each with what its item satisfies. -/
theorem laterItems?_passes [DecidableEq τ] {item : Scanner τ α} {separator : List τ}
    {P : List τ → α → Prop}
    (hitem : ∀ c a next, read? item c = some (a, next) → ∃ w, c.Passes w next ∧ P w a)
    {fuel : Nat} {c next : Cursor τ} {as : List α}
    (h : laterItems? item (exactly separator) fuel c = (as, next)) :
    ∃ texts, c.Passes (texts.flatMap (separator ++ ·)) next ∧ List.Forall₂ P texts as := by
  induction fuel generalizing c as with
  | zero =>
    cases h
    exact ⟨[], Cursor.Passes.refl _, .nil⟩
  | succ fuel ih =>
    unfold laterItems? at h
    cases hs : read? (exactly separator) c with
    | none =>
      simp only [hs] at h
      cases h
      exact ⟨[], Cursor.Passes.refl _, .nil⟩
    | some x =>
      simp only [hs] at h
      have hv := read?_exactly_some hs
      cases hi : read? item x.2 with
      | none =>
        simp only [hi] at h
        cases h
        exact ⟨[], Cursor.Passes.refl _, .nil⟩
      | some y =>
        simp only [hi] at h
        obtain ⟨w, hw, hP⟩ := hitem x.2 y.1 y.2 hi
        split at h
        · cases h
          obtain ⟨texts, ht, hall⟩ := ih rfl
          exact ⟨w :: texts, by simpa using (hv.trans hw).trans ht, .cons hP hall⟩
        · cases h
          exact ⟨[w], by simpa using hv.trans hw, .cons hP .nil⟩

theorem read?_separated_passes [DecidableEq τ] {item : Scanner τ α} {separator : List τ}
    {P : List τ → α → Prop} {nonempty : Bool}
    (hitem : ∀ c a next, read? item c = some (a, next) → ∃ w, c.Passes w next ∧ P w a)
    {c next : Cursor τ} {as : List α}
    (h : read? (separated item (exactly separator) nonempty false) c = some (as, next)) :
    (as = [] ∧ nonempty = false ∧ next = c) ∨
    ∃ text texts, c.Passes (text ++ texts.flatMap (separator ++ ·)) next ∧
      List.Forall₂ P (text :: texts) as := by
  rw [read?_separated] at h
  cases hi : read? item c with
  | none =>
    simp only [hi] at h
    split at h
    · cases h
    · cases h
      exact Or.inl ⟨rfl, by simpa using ‹¬ nonempty = true›, rfl⟩
  | some x =>
    simp only [hi] at h
    cases h
    obtain ⟨w, hw, hP⟩ := hitem c x.1 x.2 hi
    obtain ⟨texts, ht, hall⟩ := laterItems?_passes hitem rfl
    exact Or.inr ⟨w, texts, hw.trans ht, .cons hP hall⟩

/-- Items that are read alike make lists that are read alike. -/
theorem laterItems?_map {item : Scanner τ α} {annotated : Scanner τ β} {f : β → α}
    (h : ∀ c, read? item c = (read? annotated c).map (Prod.map f id)) (separator : Scanner τ Unit)
    (fuel : Nat) (c : Cursor τ) :
    laterItems? item separator fuel c =
      Prod.map (List.map f) id (laterItems? annotated separator fuel c) := by
  induction fuel generalizing c with
  | zero => rfl
  | succ fuel ih =>
    unfold laterItems?
    cases read? separator c with
    | none => rfl
    | some x =>
      dsimp only
      rw [h x.2]
      cases read? annotated x.2 with
      | none => rfl
      | some y =>
        dsimp only [Option.map_some, Prod.map, id]
        rw [ih y.2]
        split <;> rfl

theorem read?_separated_map {item : Scanner τ α} {annotated : Scanner τ β} {f : β → α}
    (h : ∀ c, read? item c = (read? annotated c).map (Prod.map f id)) (separator : Scanner τ Unit)
    (nonempty : Bool) (c : Cursor τ) :
    read? (separated item separator nonempty false) c =
      (read? (separated annotated separator nonempty false) c).map (Prod.map (List.map f) id) := by
  rw [read?_separated, read?_separated, h c]
  cases read? annotated c with
  | none => cases nonempty <;> rfl
  | some x => simp [laterItems?_map h]

/-- What holds of every item that can be read holds of the items of a list. -/
theorem laterItems?_forall {item : Scanner τ α} {P : α → Prop}
    (h : ∀ c a next, read? item c = some (a, next) → P a) (separator : Scanner τ Unit) (fuel : Nat)
    (c : Cursor τ) : ∀ a ∈ (laterItems? item separator fuel c).1, P a := by
  induction fuel generalizing c with
  | zero => simp [laterItems?]
  | succ fuel ih =>
    unfold laterItems?
    cases read? separator c with
    | none => simp
    | some x =>
      dsimp only
      cases hitem : read? item x.2 with
      | none => simp
      | some y =>
        have hy := h x.2 y.1 y.2 hitem
        dsimp only
        split
        · exact List.forall_mem_cons.mpr ⟨hy, ih y.2⟩
        · exact List.forall_mem_singleton.mpr hy

theorem read?_separated_forall {item : Scanner τ α} {P : α → Prop}
    (h : ∀ c a next, read? item c = some (a, next) → P a) {separator : Scanner τ Unit}
    {nonempty : Bool} {c next : Cursor τ} {as : List α}
    (hread : read? (separated item separator nonempty false) c = some (as, next)) :
    ∀ a ∈ as, P a := by
  rw [read?_separated] at hread
  cases hitem : read? item c with
  | none =>
    simp only [hitem] at hread
    split at hread
    · cases hread
    · cases hread
      simp
  | some x =>
    simp only [hitem] at hread
    cases hread
    exact List.forall_mem_cons.mpr ⟨h c x.1 x.2 hitem, laterItems?_forall h separator _ _⟩

end ClauseTemplates.Scanner
