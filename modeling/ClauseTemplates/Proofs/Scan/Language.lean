import ClauseTemplates.Proofs.Scan.Separated

namespace ClauseTemplates.Scanner

open Scan

variable {τ α : Type} {P : List τ → α → Prop}

/-- Only words of a language are read. -/
def Sound (p : Scanner τ α) (P : List τ → α → Prop) : Prop :=
  ∀ c a next, read? p c = some (a, next) → ∃ w, c.Passes w next ∧ P w a

/-- Every word of a language is read before what can stand behind it. -/
def Complete (p : Scanner τ α) (behind : List τ → Prop) (P : List τ → α → Prop) : Prop :=
  ∀ w a rest, P w a → behind rest → ∀ offset,
    read? p ⟨offset, w ++ rest⟩ = some (a, ⟨offset + w.length, rest⟩)

theorem Sound.rounds {p : Scanner τ α} (hp : Sound p P) {least most count : Nat} {c next : Cursor τ}
    {as : List α} (h : rounds? p least most count c = some (as, next)) :
    ∃ texts : List (List τ), c.Passes texts.flatten next ∧ List.Forall₂ P texts as := by
  induction most generalizing count c as with
  | zero =>
    cases h
    exact ⟨[], Cursor.Passes.refl _, .nil⟩
  | succ most ih =>
    unfold rounds? at h
    cases hr : read? p c with
    | none =>
      simp only [hr] at h
      split at h
      · cases h
      · cases h
        exact ⟨[], Cursor.Passes.refl _, .nil⟩
    | some x =>
      simp only [hr] at h
      obtain ⟨v, hv, hP⟩ := hp c x.1 x.2 hr
      split at h
      · obtain ⟨y, hy, h⟩ := Option.map_eq_some_iff.mp h
        cases h
        obtain ⟨texts, hpass, hall⟩ := ih hy
        exact ⟨v :: texts, hv.trans hpass, .cons hP hall⟩
      · cases h
        exact ⟨[v], by simpa using hv, .cons hP .nil⟩

theorem Sound.many {p : Scanner τ α} (hp : Sound p P) (least : Nat) {c next : Cursor τ} {as : List α}
    (h : read? (many p least) c = some (as, next)) :
    ∃ texts : List (List τ), c.Passes texts.flatten next ∧ List.Forall₂ P texts as := by
  rw [read?_many] at h
  exact hp.rounds h

/-- Rounds are read one after the other up to where none can be read. -/
theorem Complete.rounds {p : Scanner τ α} {behind : List τ → Prop} (hp : Complete p behind P)
    (hne : ∀ w a, P w a → w ≠ []) (hnext : ∀ w a rest, P w a → behind (w ++ rest)) {rest : List τ}
    (hrest : behind rest) (hstop : ∀ offset, read? p ⟨offset, rest⟩ = none) {texts : List (List τ)}
    {as : List α} (hall : List.Forall₂ P texts as) (most count offset : Nat)
    (hmost : (texts.flatten ++ rest).length < most) :
    rounds? p 0 most count ⟨offset, texts.flatten ++ rest⟩ =
      some (as, ⟨offset + texts.flatten.length, rest⟩) := by
  induction hall generalizing most count offset with
  | nil =>
    obtain ⟨most, rfl⟩ : ∃ n, most = n + 1 := ⟨most - 1, by omega⟩
    unfold rounds?
    simp [hstop]
  | @cons w a texts as hw hall ih =>
    obtain ⟨most, rfl⟩ : ∃ n, most = n + 1 := ⟨most - 1, by omega⟩
    have hpos : 0 < w.length := List.length_pos_iff.mpr (hne w a hw)
    have hbehind : behind (texts.flatten ++ rest) := by
      cases hall with
      | nil => exact hrest
      | cons hv _ =>
        rw [List.flatten_cons, List.append_assoc]
        exact hnext _ _ _ hv
    have hread := hp w a _ hw hbehind offset
    have hlength : (texts.flatten ++ rest).length < most := by
      simp only [List.flatten_cons, List.length_append] at hmost ⊢
      omega
    have hlater := ih most (count + 1) (offset + w.length) hlength
    have hmoves : offset < offset + w.length := by omega
    unfold rounds?
    simp only [List.flatten_cons, List.append_assoc, hread, hmoves, if_true, hlater, Option.map_some,
      List.length_append, Nat.add_assoc]

theorem Complete.many {p : Scanner τ α} {behind : List τ → Prop} (hp : Complete p behind P)
    (hne : ∀ w a, P w a → w ≠ []) (hnext : ∀ w a rest, P w a → behind (w ++ rest)) {rest : List τ}
    (hrest : behind rest) (hstop : ∀ offset, read? p ⟨offset, rest⟩ = none) {texts : List (List τ)}
    {as : List α} (hall : List.Forall₂ P texts as) (offset : Nat) :
    read? (many p 0) ⟨offset, texts.flatten ++ rest⟩ =
      some (as, ⟨offset + texts.flatten.length, rest⟩) := by
  rw [read?_many]
  exact hp.rounds hne hnext hrest hstop hall _ 0 offset (Nat.lt_succ_self _)

theorem read?_choice_nil (c : Cursor τ) : read? (choice ([] : List (Scanner τ α))) c = none := rfl

theorem read?_choice_cons (p : Scanner τ α) (ps : List (Scanner τ α)) (c : Cursor τ) :
    read? (choice (p :: ps)) c = (read? p c).or (read? (choice ps) c) := by
  rw [read?_choice, read?_choice, List.findSome?_cons]
  cases read? p c <;> rfl

theorem laterItems?_congr {item : Scanner τ α} {separator other : Scanner τ Unit}
    (h : ∀ c, read? separator c = read? other c) (fuel : Nat) (c : Cursor τ) :
    laterItems? item separator fuel c = laterItems? item other fuel c := by
  induction fuel generalizing c with
  | zero => rfl
  | succ fuel ih =>
    unfold laterItems?
    rw [h]
    cases read? other c with
    | none => rfl
    | some x =>
      dsimp only
      cases read? item x.2 with
      | none => rfl
      | some y => simp only [ih]

/-- Items with a separator in front of each are read up to where the list ends. -/
theorem Complete.later [DecidableEq τ] {item : Scanner τ α} {behind : List τ → Prop}
    (hp : Complete item behind P) {separator rest : List τ} (hs : separator ≠ [])
    (hnext : ∀ more, behind (separator ++ more)) (hrest : behind rest)
    (hstop : Stops item (exactly separator) rest) {texts : List (List τ)} {as : List α}
    (hall : List.Forall₂ P texts as) (fuel offset : Nat)
    (hf : (texts.flatMap (separator ++ ·) ++ rest).length < fuel) :
    laterItems? item (exactly separator) fuel ⟨offset, texts.flatMap (separator ++ ·) ++ rest⟩ =
      (as, ⟨offset + (texts.flatMap (separator ++ ·)).length, rest⟩) := by
  induction hall generalizing fuel offset with
  | nil => exact laterItems?_of_stops hstop fuel offset
  | @cons w a texts as hw hall ih =>
    obtain ⟨fuel, rfl⟩ : ∃ n, fuel = n + 1 := ⟨fuel - 1, by omega⟩
    have hpos : 0 < separator.length := List.length_pos_iff.mpr hs
    have hbehind : behind (texts.flatMap (separator ++ ·) ++ rest) := by
      cases hall with
      | nil => exact hrest
      | cons _ _ =>
        rw [List.flatMap_cons, List.append_assoc, List.append_assoc]
        exact hnext _
    have hread := hp w a _ hw hbehind (offset + separator.length)
    have hlength : (texts.flatMap (separator ++ ·) ++ rest).length < fuel := by
      simp only [List.flatMap_cons, List.length_append] at hf ⊢
      omega
    have hlater := ih fuel (offset + separator.length + w.length) hlength
    have hmoves : offset < offset + separator.length + w.length := by omega
    rw [List.flatMap_cons, List.append_assoc, List.append_assoc]
    unfold laterItems?
    rw [read?_exactly]
    simp only [hread, hmoves, if_true, hlater]
    simp only [List.length_append, Nat.add_assoc]

/-- A separator behind the last item is read with the items where that is allowed. -/
theorem read?_separated_trailing (item : Scanner τ α) (separator : Scanner τ Unit) (c : Cursor τ) :
    read? (separated item separator false true) c =
      match read? item c with
      | none => some ([], c)
      | some (a, next) =>
        let later := laterItems? item separator (next.rest.length + 1) next
        some (a :: later.1, ((read? separator later.2).map Prod.snd).getD later.2) := by
  unfold read? separated
  cases item c with
  | failure f => rfl
  | success a next alt =>
    obtain ⟨h1, h2⟩ := separatedTail_eq item separator (next.rest.length + 1) [a] alt next
    simp only [Outcome.result?, if_true, h1, h2]
    cases separator (laterItems? item separator (next.rest.length + 1) next).2 <;> rfl

end ClauseTemplates.Scanner
