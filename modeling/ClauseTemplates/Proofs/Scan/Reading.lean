import ClauseTemplates.Scan.Repetition

namespace ClauseTemplates.Scan

/-- What is left of an outcome when the failures on the way are forgotten. -/
def Outcome.result? : Outcome τ α → Option (α × Cursor τ)
  | .success a next _ => some (a, next)
  | .failure _ => none

/-- The second cursor stands behind `passed`. -/
def Cursor.Passes (c : Cursor τ) (passed : List τ) (next : Cursor τ) : Prop :=
  c.rest = passed ++ next.rest ∧ next.offset = c.offset + passed.length

theorem Cursor.Passes.refl (c : Cursor τ) : c.Passes [] c := ⟨rfl, rfl⟩

theorem Cursor.Passes.trans {a b c : Cursor τ} {v w : List τ} (h : a.Passes v b)
    (h' : b.Passes w c) : a.Passes (v ++ w) c := by
  refine ⟨?_, ?_⟩
  · rw [h.1, h'.1, List.append_assoc]
  · rw [h'.2, h.2, List.length_append, Nat.add_assoc]

theorem Cursor.Passes.unique {c next other : Cursor τ} {w : List τ} (h : c.Passes w next)
    (h' : c.Passes w other) : next = other := by
  obtain ⟨offset, rest⟩ := next
  obtain ⟨hrest, hoffset⟩ := h
  obtain ⟨hrest', hoffset'⟩ := h'
  obtain rfl : rest = other.rest := List.append_cancel_left (hrest.symm.trans hrest')
  obtain rfl : offset = other.offset := hoffset.trans hoffset'.symm
  rfl

theorem Cursor.passes_mk (offset : Nat) (w r : List τ) :
    (⟨offset, w ++ r⟩ : Cursor τ).Passes w ⟨offset + w.length, r⟩ := ⟨rfl, rfl⟩

end ClauseTemplates.Scan

namespace ClauseTemplates.Scanner

open Scan

variable {τ α β : Type}

/-- The value that is read and the place behind it. -/
def read? (p : Scanner τ α) (c : Cursor τ) : Option (α × Cursor τ) := (p c).result?

@[simp] theorem read?_pure (a : α) (c : Cursor τ) : read? (pure a) c = some (a, c) := rfl

@[simp] theorem read?_succeed (a : α) (c : Cursor τ) : read? (succeed a) c = some (a, c) := rfl

theorem read?_andThen (p : Scanner τ α) (q : α → Scanner τ β) (c : Cursor τ) :
    read? (andThen p q) c = (read? p c).bind fun x => read? (q x.1) x.2 := by
  unfold read? andThen
  cases p c with
  | failure f => rfl
  | success a next alt =>
    dsimp only [Outcome.result?, Option.bind]
    cases q a next <;> rfl

@[simp] theorem read?_bind (p : Scanner τ α) (q : α → Scanner τ β) (c : Cursor τ) :
    read? (p >>= q) c = (read? p c).bind fun x => read? (q x.1) x.2 := read?_andThen p q c

@[simp] theorem read?_located (p : Scanner τ α) (f : α → Nat → β) (c : Cursor τ) :
    read? (located p f) c = (read? p c).map fun x => (f x.1 c.offset, x.2) := by
  have h := read?_andThen p (fun a => succeed (f a c.offset)) c
  change read? (andThen p fun a => succeed (f a c.offset)) c = _
  rw [h]
  cases read? p c <;> rfl

@[simp] theorem read?_orElse (p q : Scanner τ α) (c : Cursor τ) :
    read? (orElse p q) c = (read? p c).or (read? q c) := by
  unfold read? orElse
  cases p c with
  | success a next alt => rfl
  | failure f =>
    dsimp only [Outcome.result?, Option.or]
    cases q c <;> rfl

@[simp] theorem read?_optional (p : Scanner τ α) (c : Cursor τ) :
    read? (optional p) c =
      some (((read? p c).map Prod.fst), ((read? p c).map Prod.snd).getD c) := by
  unfold read? optional
  cases p c <;> rfl

@[simp] theorem read?_token (expected : List τ) (accept : τ → Option α) (offset : Nat)
    (rest : List τ) : read? (token expected accept) ⟨offset, rest⟩ =
      match rest with
      | [] => none
      | t :: rest => (accept t).map fun a => (a, ⟨offset + 1, rest⟩) := by
  unfold read? token
  cases rest with
  | nil => rfl
  | cons t rest =>
    dsimp only
    cases accept t <;> rfl

@[simp] theorem read?_tryMap (p : Scanner τ α) (f : α → Except String β) (c : Cursor τ) :
    read? (tryMap p f) c =
      (read? p c).bind fun x => (f x.1).toOption.map fun b => (b, x.2) := by
  unfold read? tryMap
  cases p c with
  | failure _ => rfl
  | success a next alt =>
    dsimp only [Outcome.result?, Option.bind]
    cases f a <;> rfl

theorem read?_tryMap_eq_some {p : Scanner τ α} {f : α → Except String β} {c next : Cursor τ} {b : β} :
    read? (tryMap p f) c = some (b, next) ↔
      ∃ a, read? p c = some (a, next) ∧ f a = .ok b := by
  rw [read?_tryMap]
  constructor
  · intro h
    obtain ⟨⟨a, behind⟩, hread, h⟩ := Option.bind_eq_some_iff.mp h
    cases hf : f a with
    | error e =>
      rw [hf] at h
      cases h
    | ok found =>
      rw [hf] at h
      cases h
      exact ⟨a, hread, hf⟩
  · rintro ⟨a, hread, hf⟩
    rw [hread, Option.bind_some, hf]
    rfl

theorem read?_exactly [DecidableEq τ] (ts : List τ) (offset : Nat) (rest : List τ) :
    read? (exactly ts) ⟨offset, ts ++ rest⟩ = some ((), ⟨offset + ts.length, rest⟩) := by
  induction ts generalizing offset with
  | nil => rfl
  | cons t ts ih =>
    have h : read? (exactly (t :: ts)) ⟨offset, t :: ts ++ rest⟩ =
        read? (exactly ts) ⟨offset + 1, ts ++ rest⟩ := by
      simp [read?, exactly]
    rw [h, ih, List.length_cons, Nat.add_assoc, Nat.add_comm 1]

theorem read?_exactly_some [DecidableEq τ] {ts : List τ} {c next : Cursor τ} {u : Unit}
    (h : read? (exactly ts) c = some (u, next)) : c.Passes ts next := by
  induction ts generalizing c with
  | nil =>
    cases h
    exact Cursor.Passes.refl _
  | cons t ts ih =>
    obtain ⟨offset, rest⟩ := c
    unfold read? exactly at h
    cases rest with
    | nil => cases h
    | cons u rest =>
      dsimp only at h
      split at h
      · rename_i heq
        obtain ⟨h1, h2⟩ := ih h
        refine ⟨?_, ?_⟩
        · simpa [heq] using h1
        · rw [h2, List.length_cons]
          dsimp only
          omega
      · cases h

/-- Exact text is read where it stands in front, and nowhere else. -/
theorem read?_exactly_iff [DecidableEq τ] (ts : List τ) (c : Cursor τ) :
    (∃ next, read? (exactly ts) c = some ((), next)) ↔ ts <+: c.rest := by
  constructor
  · rintro ⟨next, h⟩
    exact ⟨next.rest, (read?_exactly_some h).1.symm⟩
  · rintro ⟨rest, h⟩
    refine ⟨⟨c.offset + ts.length, rest⟩, ?_⟩
    obtain ⟨offset, cs⟩ := c
    subst h
    exact read?_exactly ts offset rest

theorem read?_exactly_none [DecidableEq τ] {ts : List τ} {c : Cursor τ} (h : ¬ ts <+: c.rest) :
    read? (exactly ts) c = none := by
  cases hr : read? (exactly ts) c with
  | none => rfl
  | some x => exact absurd ((read?_exactly_iff ts c).mp ⟨x.2, hr⟩) h

theorem run_eq_ok {p : Scanner τ α} {tokens : List τ} {a : α} :
    run p tokens = .ok a ↔ ∃ next, read? p (Cursor.start tokens) = some (a, next) := by
  unfold run read?
  cases p (Cursor.start tokens) <;> simp [Outcome.result?]

theorem read?_endOfInput (c : Cursor τ) :
    read? endOfInput c = if c.rest.isEmpty then some ((), c) else none := by
  unfold read? endOfInput
  split <;> rfl

/-- The whole text is read as the value. -/
def Accepts (p : Scanner τ α) (text : List τ) (a : α) : Prop :=
  run (do let a ← p; endOfInput; pure a) text = .ok a

theorem accepts_iff {p : Scanner τ α} {text : List τ} {a : α} :
    Accepts p text a ↔ ∃ offset, read? p ⟨0, text⟩ = some (a, ⟨offset, []⟩) := by
  unfold Accepts
  rw [run_eq_ok, read?_bind]
  change (∃ next, (read? p ⟨0, text⟩).bind _ = _) ↔ _
  cases read? p ⟨0, text⟩ with
  | none => simp
  | some x =>
    obtain ⟨b, offset, rest⟩ := x
    rw [Option.bind_some, read?_bind, read?_endOfInput]
    cases rest with
    | nil => simp
    | cons t rest => simp

end ClauseTemplates.Scanner
