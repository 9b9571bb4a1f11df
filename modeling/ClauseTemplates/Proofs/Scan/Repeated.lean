import ClauseTemplates.Proofs.Scan.Reading

namespace ClauseTemplates.Scanner

open Scan

variable {τ α β : Type}

/-- Every success stands behind some of the input that was in front. -/
def Advances (p : Scanner τ α) : Prop :=
  ∀ c a next, read? p c = some (a, next) → ∃ w, c.Passes w next

theorem advances_pure (a : α) : Advances (pure a : Scanner τ α) := by
  intro c a' next h
  cases h
  exact ⟨[], Cursor.Passes.refl _⟩

theorem Advances.bind {p : Scanner τ α} {q : α → Scanner τ β} (hp : Advances p)
    (hq : ∀ a, Advances (q a)) : Advances (p >>= q) := by
  intro c b next h
  rw [read?_bind] at h
  obtain ⟨⟨a, between⟩, ha, hb⟩ := Option.bind_eq_some_iff.mp h
  obtain ⟨v, hv⟩ := hp c a between ha
  obtain ⟨w, hw⟩ := hq a between b next hb
  exact ⟨v ++ w, hv.trans hw⟩

theorem Advances.located {p : Scanner τ α} (hp : Advances p) (f : α → Nat → β) :
    Advances (located p f) := by
  intro c b next h
  rw [read?_located] at h
  obtain ⟨⟨a, between⟩, ha, hb⟩ := Option.map_eq_some_iff.mp h
  cases hb
  exact hp c a between ha

theorem Advances.orElse {p q : Scanner τ α} (hp : Advances p) (hq : Advances q) :
    Advances (orElse p q) := by
  intro c a next h
  rw [read?_orElse, Option.or_eq_some_iff] at h
  rcases h with h | ⟨_, h⟩
  · exact hp c a next h
  · exact hq c a next h

theorem Advances.optional {p : Scanner τ α} (hp : Advances p) : Advances (optional p) := by
  intro c a next h
  rw [read?_optional] at h
  cases hr : read? p c with
  | none =>
    rw [hr] at h
    cases h
    exact ⟨[], Cursor.Passes.refl _⟩
  | some x =>
    rw [hr] at h
    cases h
    exact hp c x.1 x.2 hr

theorem Advances.tryMap {p : Scanner τ α} (hp : Advances p) (f : α → Except String β) :
    Advances (tryMap p f) := by
  intro c b next h
  rw [read?_tryMap] at h
  obtain ⟨⟨a, between⟩, ha, hb⟩ := Option.bind_eq_some_iff.mp h
  obtain ⟨_, _, hb⟩ := Option.map_eq_some_iff.mp hb
  cases hb
  exact hp c a between ha

theorem advances_token (expected : List τ) (accept : τ → Option α) :
    Advances (token expected accept) := by
  rintro ⟨offset, rest⟩ a next h
  rw [read?_token] at h
  cases rest with
  | nil => cases h
  | cons t rest =>
    obtain ⟨b, _, hb⟩ := Option.map_eq_some_iff.mp h
    cases hb
    exact ⟨[t], rfl, rfl⟩

theorem advances_satisfying (accept : τ → Bool) : Advances (satisfying accept) :=
  advances_token _ _

theorem advances_among [DecidableEq τ] (tokens : List τ) : Advances (among tokens) :=
  advances_token _ _

theorem advances_exactly [DecidableEq τ] (ts : List τ) : Advances (exactly ts) :=
  fun _ _ _ h => ⟨ts, read?_exactly_some h⟩

theorem read?_choice_go (ps : List (Scanner τ α)) (earlier : Option (Failure τ))
    (c : Cursor τ) : read? (choice.go earlier ps) c = ps.findSome? fun p => read? p c := by
  induction ps generalizing earlier with
  | nil => rfl
  | cons p ps ih =>
    unfold read? choice.go
    rw [List.findSome?_cons]
    cases hp : p c with
    | success a next alt => rfl
    | failure f => exact ih _

theorem read?_choice (ps : List (Scanner τ α)) (c : Cursor τ) :
    read? (choice ps) c = ps.findSome? fun p => read? p c := read?_choice_go ps none c

theorem advances_choice {ps : List (Scanner τ α)} (h : ∀ p ∈ ps, Advances p) :
    Advances (choice ps) := by
  intro c a next hread
  rw [read?_choice] at hread
  obtain ⟨p, hp, hread⟩ := List.exists_of_findSome?_eq_some hread
  exact h p hp c a next hread

theorem read?_firstOf (ps : List (Scanner τ α)) (c : Cursor τ) :
    read? (firstOf ps) c = ps.findSome? fun p => read? p c := by
  induction ps with
  | nil => rfl
  | cons p ps ih =>
    cases ps with
    | nil =>
      change read? p c = _
      cases h : read? p c <;> simp [h]
    | cons q ps =>
      have h : read? (firstOf (p :: q :: ps)) c = (read? p c).or (read? (firstOf (q :: ps)) c) :=
        read?_orElse p (firstOf (q :: ps)) c
      rw [h, ih]
      cases hp : read? p c <;> simp [hp]

section

variable [DecidableEq τ] {text : List τ} {value found : α} {choices : List (List τ × α)}
  {c next : Cursor τ}

theorem read?_one_iff :
    read? (andThen (exactly text) fun _ => succeed value) c = some (found, next) ↔
      value = found ∧ c.Passes text next := by
  rw [read?_andThen]
  constructor
  · intro h
    obtain ⟨x, hx, h⟩ := Option.bind_eq_some_iff.mp h
    cases h
    exact ⟨rfl, read?_exactly_some hx⟩
  · rintro ⟨rfl, hpass⟩
    obtain ⟨offset, rest⟩ := c
    obtain ⟨rfl, hoffset⟩ : rest = text ++ next.rest ∧ next.offset = offset + text.length := hpass
    rw [read?_exactly, ← hoffset]
    rfl

theorem read?_one_none_iff :
    read? (andThen (exactly text) fun _ => succeed value) c = none ↔ ¬ text <+: c.rest := by
  constructor
  · intro h hfront
    obtain ⟨behind, hread⟩ := (read?_exactly_iff text c).mpr hfront
    rw [read?_andThen, hread] at h
    cases h
  · intro h
    rw [read?_andThen, read?_exactly_none h]
    rfl

/-- The first text that stands in front is read. -/
theorem read?_oneOf_iff : read? (oneOf choices) c = some (found, next) ↔
    ∃ earlier text later, choices = earlier ++ (text, found) :: later ∧
      (∀ choice ∈ earlier, ¬ choice.1 <+: c.rest) ∧ c.Passes text next := by
  rw [oneOf, read?_firstOf, List.findSome?_map, List.findSome?_eq_some_iff]
  constructor
  · rintro ⟨earlier, ⟨text, value⟩, later, heq, hread, hnone⟩
    obtain ⟨rfl, hpass⟩ := read?_one_iff.mp hread
    exact ⟨earlier, text, later, heq, fun choice hc => read?_one_none_iff.mp (hnone choice hc), hpass⟩
  · rintro ⟨earlier, text, later, heq, hnone, hpass⟩
    exact ⟨earlier, (text, found), later, heq, read?_one_iff.mpr ⟨rfl, hpass⟩,
      fun choice hc => read?_one_none_iff.mpr (hnone choice hc)⟩

theorem read?_oneOf_none_iff :
    read? (oneOf choices) c = none ↔ ∀ choice ∈ choices, ¬ choice.1 <+: c.rest := by
  rw [oneOf, read?_firstOf, List.findSome?_map, List.findSome?_eq_none_iff]
  exact forall₂_congr fun choice _ => read?_one_none_iff

/-- What is read for one of several texts is what it stands for. -/
theorem read?_oneOf_mem (h : read? (oneOf choices) c = some (found, next)) :
    ∃ text, (text, found) ∈ choices ∧ c.Passes text next := by
  obtain ⟨earlier, text, later, rfl, -, hpass⟩ := read?_oneOf_iff.mp h
  exact ⟨text, List.mem_append_right earlier List.mem_cons_self, hpass⟩

theorem advances_oneOf (choices : List (List τ × α)) : Advances (oneOf choices) := by
  intro c a next h
  obtain ⟨text, -, hpass⟩ := read?_oneOf_mem h
  exact ⟨text, hpass⟩

end

/-- Rounds of a scanner without the failures on the way. -/
def rounds? (p : Scanner τ α) (least : Nat) :
    Nat → Nat → Cursor τ → Option (List α × Cursor τ)
  | 0, _, c => some ([], c)
  | most + 1, count, c =>
    match read? p c with
    | none => if count < least then none else some ([], c)
    | some (a, next) =>
      if c.offset < next.offset then
        (rounds? p least most (count + 1) next).map fun x => (a :: x.1, x.2)
      else some ([a], next)

theorem read?_rounds (p : Scanner τ α) (least most count : Nat) (found : List α)
    (alt : Option (Failure τ)) (c : Cursor τ) :
    read? (rounds p least most count found alt) c =
      (rounds? p least most count c).map fun x => (found.reverse ++ x.1, x.2) := by
  induction most generalizing count found alt c with
  | zero => simp [read?, rounds, rounds?, Outcome.result?]
  | succ most ih =>
    unfold rounds?
    cases hp : p c with
    | failure f =>
      have hr : read? p c = none := by unfold read?; rw [hp]; rfl
      simp only [hr]
      unfold read? rounds
      rw [hp]
      dsimp only
      split <;> simp [Outcome.result?]
    | success a next later =>
      have hr : read? p c = some (a, next) := by unfold read?; rw [hp]; rfl
      simp only [hr]
      unfold read? rounds
      rw [hp]
      dsimp only
      split
      · refine (ih (count + 1) (a :: found) (merge alt later) next).trans ?_
        cases rounds? p least most (count + 1) next <;> simp
      · simp [Outcome.result?]

theorem read?_many (p : Scanner τ α) (least : Nat) (c : Cursor τ) :
    read? (many p least) c = rounds? p least (c.rest.length + 1) 0 c := by
  have h := read?_rounds p least (c.rest.length + 1) 0 [] none c
  simpa [read?, many] using h

theorem read?_between (p : Scanner τ α) (least most : Nat) (c : Cursor τ) :
    read? (between p least most) c = rounds? p least most 0 c := by
  have h := read?_rounds p least most 0 [] none c
  simpa [read?, between] using h

/-- Rounds of single tokens are the tokens in front that are accepted, up to `most` of them. -/
theorem rounds?_satisfying (accept : τ → Bool) (least most count offset : Nat) (ts : List τ) :
    rounds? (satisfying accept) least most count ⟨offset, ts⟩ =
      let found := (ts.take most).takeWhile accept
      if found.length < most ∧ count + found.length < least then none
      else some (found, ⟨offset + found.length, ts.drop found.length⟩) := by
  induction most generalizing count offset ts with
  | zero => simp [rounds?]
  | succ most ih =>
    unfold rounds?
    rw [satisfying, read?_token, ← satisfying]
    cases ts with
    | nil => simp
    | cons t ts =>
      by_cases ht : accept t = true
      · have hl : offset < offset + 1 := Nat.lt_succ_self _
        simp only [ht, if_true, Option.map_some, hl, ih, List.take_succ_cons,
          List.takeWhile_cons_of_pos, List.length_cons, List.drop_succ_cons]
        generalize (ts.take most).takeWhile accept = found
        by_cases hb : found.length < most ∧ count + 1 + found.length < least
        · rw [if_pos hb, if_pos (by omega), Option.map_none]
        · rw [if_neg hb, if_neg (by omega), Option.map_some]
          simp only [Nat.add_assoc, Nat.add_comm 1]
      · simp [ht]

theorem read?_many_satisfying (accept : τ → Bool) (least offset : Nat) (ts : List τ) :
    read? (many (satisfying accept) least) ⟨offset, ts⟩ =
      if (ts.takeWhile accept).length < least then none
      else some (ts.takeWhile accept,
        ⟨offset + (ts.takeWhile accept).length, ts.dropWhile accept⟩) := by
  have hl : (ts.takeWhile accept).length ≤ ts.length :=
    (List.takeWhile_prefix accept).length_le
  have hd : ts.drop (ts.takeWhile accept).length = ts.dropWhile accept := by
    have h : (ts.takeWhile accept ++ ts.dropWhile accept).drop (ts.takeWhile accept).length =
        ts.dropWhile accept := List.drop_left
    rwa [List.takeWhile_append_dropWhile] at h
  rw [read?_many, rounds?_satisfying, List.take_of_length_le (Nat.le_succ _)]
  have hm : (ts.takeWhile accept).length < ts.length + 1 := by omega
  simp only [hm, true_and, hd, Nat.zero_add]

theorem rounds?_passes {p : Scanner τ α} (hp : Advances p) {least most count : Nat}
    {c next : Cursor τ} {as : List α} (h : rounds? p least most count c = some (as, next)) :
    ∃ w, c.Passes w next := by
  induction most generalizing count c as with
  | zero =>
    cases h
    exact ⟨[], Cursor.Passes.refl _⟩
  | succ most ih =>
    unfold rounds? at h
    cases hr : read? p c with
    | none =>
      simp only [hr] at h
      split at h
      · cases h
      · cases h
        exact ⟨[], Cursor.Passes.refl _⟩
    | some x =>
      simp only [hr] at h
      obtain ⟨v, hv⟩ := hp c x.1 x.2 hr
      split at h
      · obtain ⟨y, hy, hn⟩ := Option.map_eq_some_iff.mp h
        cases hn
        obtain ⟨w, hw⟩ := ih hy
        exact ⟨v ++ w, hv.trans hw⟩
      · cases h
        exact ⟨v, hv⟩

theorem Advances.many {p : Scanner τ α} (hp : Advances p) (least : Nat) :
    Advances (many p least) := by
  intro c as next h
  rw [read?_many] at h
  exact rounds?_passes hp h

theorem Advances.between {p : Scanner τ α} (hp : Advances p) (least most : Nat) :
    Advances (between p least most) := by
  intro c as next h
  rw [read?_between] at h
  exact rounds?_passes hp h

section

variable {p : Scanner τ α} {passed rest : List τ} {offset : Nat} {alt : Option (Failure τ)}
  {next : Cursor τ}

theorem searched_here {a : α} (h : read? p ⟨offset, rest⟩ = some (a, next)) :
    (searched p rest passed offset alt).result? = some (passed.reverse, next) := by
  unfold searched
  unfold read? at h
  cases hp : p ⟨offset, rest⟩ with
  | success b between later =>
    rw [hp] at h
    cases h
    rfl
  | failure f =>
    rw [hp] at h
    cases h

theorem searched_later {t : τ} (h : read? p ⟨offset, t :: rest⟩ = none) :
    ∃ merged, searched p (t :: rest) passed offset alt =
      searched p rest (t :: passed) (offset + 1) merged := by
  rw [searched]
  unfold read? at h
  cases hp : p ⟨offset, t :: rest⟩ with
  | success b between later =>
    rw [hp] at h
    cases h
  | failure f => exact ⟨_, rfl⟩

theorem searched_end (h : read? p ⟨offset, []⟩ = none) :
    (searched p [] passed offset alt).result? = none := by
  unfold searched
  unfold read? at h
  cases hp : p ⟨offset, []⟩ with
  | success b between later =>
    rw [hp] at h
    cases h
  | failure f => rfl

variable {mark found body : List τ}

/-- These tokens are passed in front of a mark that stands nowhere before. -/
def BeforeMark (mark : List τ) (c : Cursor τ) (body : List τ) (next : Cursor τ) : Prop :=
  c.Passes (body ++ mark) next ∧ ∀ k < body.length, ¬ mark <+: c.rest.drop k

theorem beforeMark_cons {t u : τ} (h : ¬ mark <+: t :: rest) :
    BeforeMark mark ⟨offset, t :: rest⟩ (u :: body) next ↔
      u = t ∧ BeforeMark mark ⟨offset + 1, rest⟩ body next := by
  constructor
  · rintro ⟨⟨hrest, hoffset⟩, hfirst⟩
    obtain ⟨rfl, htail⟩ := List.cons.inj hrest
    refine ⟨rfl, ⟨htail, ?_⟩, fun k hk => hfirst (k + 1) (by simpa using hk)⟩
    simp only [List.length_append, List.length_cons] at hoffset ⊢
    omega
  · rintro ⟨rfl, ⟨hrest, hoffset⟩, hfirst⟩
    refine ⟨⟨congrArg (u :: ·) hrest, ?_⟩, fun k hk => ?_⟩
    · simp only [List.length_append, List.length_cons] at hoffset ⊢
      omega
    · cases k with
      | zero => exact h
      | succ k => exact hfirst k (by simpa using hk)

variable [DecidableEq τ]

theorem searched_front (h : mark <+: rest) :
    (searched (exactly mark) rest passed offset alt).result? = some (found, next) ↔
      ∃ body, found = passed.reverse ++ body ∧ BeforeMark mark ⟨offset, rest⟩ body next := by
  obtain ⟨tail, rfl⟩ := h
  rw [searched_here (read?_exactly mark offset tail)]
  constructor
  · intro h
    cases h
    exact ⟨[], by simp, Cursor.passes_mk offset mark tail, by simp⟩
  · rintro ⟨body, rfl, hpass, hfirst⟩
    cases body with
    | nil => rw [hpass.unique (Cursor.passes_mk offset mark tail), List.append_nil]
    | cons t body => exact absurd (List.prefix_append mark tail) (hfirst 0 (by simp))

theorem searched_exactly :
    (searched (exactly mark) rest passed offset alt).result? = some (found, next) ↔
      ∃ body, found = passed.reverse ++ body ∧ BeforeMark mark ⟨offset, rest⟩ body next := by
  induction rest generalizing passed offset alt with
  | nil =>
    by_cases h : mark <+: []
    · exact searched_front h
    · rw [searched_end (read?_exactly_none h)]
      constructor
      · nofun
      · rintro ⟨body, -, ⟨hrest, -⟩, -⟩
        exact absurd (by simp_all) h
  | cons t rest ih =>
    by_cases h : mark <+: t :: rest
    · exact searched_front h
    · obtain ⟨merged, hlater⟩ := searched_later (read?_exactly_none h)
      rw [hlater, ih]
      constructor
      · rintro ⟨body, rfl, hbody⟩
        exact ⟨t :: body, by simp, (beforeMark_cons h).mpr ⟨rfl, hbody⟩⟩
      · rintro ⟨body, rfl, hbody⟩
        cases body with
        | nil => exact absurd ⟨next.rest, hbody.1.1.symm⟩ h
        | cons u body =>
          obtain ⟨rfl, hmore⟩ := (beforeMark_cons h).mp hbody
          exact ⟨body, by simp, hmore⟩

theorem read?_takeUntil_exactly {c : Cursor τ} :
    read? (takeUntil (exactly mark)) c = some (body, next) ↔ BeforeMark mark c body next := by
  unfold read? takeUntil
  rw [searched_exactly]
  simp

theorem advances_takeUntil_exactly (mark : List τ) : Advances (takeUntil (exactly mark)) :=
  fun _ body _ h => ⟨body ++ mark, (read?_takeUntil_exactly.mp h).1⟩

end

end ClauseTemplates.Scanner
