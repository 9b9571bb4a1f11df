import ClauseTemplates.Scan.Repetition

namespace ClauseTemplates

namespace Scan

variable {τ α : Type}

/-- The offset behind the last token. -/
def Cursor.stop (c : Cursor τ) : Nat := c.offset + c.rest.length

theorem Cursor.offset_le_stop (c : Cursor τ) : c.offset ≤ c.stop := Nat.le_add_right _ _

theorem Cursor.stop_cons (offset : Nat) (t : τ) (rest : List τ) :
    (⟨offset + 1, rest⟩ : Cursor τ).stop = (⟨offset, t :: rest⟩ : Cursor τ).stop := by
  simp only [stop, List.length_cons]
  omega

/-- The input still ends at the same offset, and no failure is told of a place behind it. -/
def Outcome.Within (stop : Nat) : Outcome τ α → Prop
  | .success _ next alt => next.stop = stop ∧ ∀ f ∈ alt, f.start ≤ stop
  | .failure f => f.start ≤ stop

variable {f g : Failure τ} {a b : Option (Failure τ)} {stop : Nat}

theorem Failure.start_further (hf : f.start ≤ stop) (hg : g.start ≤ stop) :
    (f.further g).start ≤ stop := by
  unfold Failure.further
  split
  · exact hg
  · split
    · exact hf
    · exact hf

theorem start_merge (ha : ∀ f ∈ a, f.start ≤ stop) (hb : ∀ f ∈ b, f.start ≤ stop) :
    ∀ f ∈ merge a b, f.start ≤ stop := by
  cases a with
  | none => exact hb
  | some f =>
    cases b with
    | none => exact ha
    | some g =>
      rintro _ ⟨⟩
      exact Failure.start_further (hb g rfl) (ha f rfl)

theorem Failure.start_after (hf : f.start ≤ stop) (ha : ∀ f ∈ a, f.start ≤ stop) :
    (f.after a).start ≤ stop := by
  cases a with
  | none => exact hf
  | some g => exact Failure.start_further hf (ha g rfl)

end Scan

namespace Scanner

open Scan

variable {τ α β : Type} {p q : Scanner τ α}

/-- Whatever fails is told of a place in the input. -/
def Placed (p : Scanner τ α) : Prop := ∀ c, (p c).Within c.stop

theorem placed_pure (a : α) : Placed (pure a : Scanner τ α) := fun _ => ⟨rfl, by nofun⟩

theorem Placed.bind {q : α → Scanner τ β} (hp : Placed p) (hq : ∀ a, Placed (q a)) :
    Placed (p >>= q) := by
  intro c
  have hc := hp c
  change (andThen p q c).Within c.stop
  unfold andThen
  cases hpc : p c with
  | failure f =>
    rw [hpc] at hc
    exact hc
  | success a next alt =>
    rw [hpc] at hc
    obtain ⟨hstop, halt⟩ := hc
    have hnext := hq a next
    rw [hstop] at hnext
    dsimp only
    cases hqn : q a next with
    | failure f =>
      rw [hqn] at hnext
      exact Failure.start_after hnext halt
    | success b last later =>
      rw [hqn] at hnext
      exact ⟨hnext.1, start_merge halt hnext.2⟩

theorem start_unexpected (expected : List (Option τ)) (c : Cursor τ) :
    (unexpected expected c).start ≤ c.stop := c.offset_le_stop

theorem placed_token (expected : List τ) (accept : τ → Option α) : Placed (token expected accept) := by
  rintro ⟨offset, rest⟩
  unfold token
  cases rest with
  | nil => exact start_unexpected _ _
  | cons t rest =>
    dsimp only
    cases accept t with
    | none => exact start_unexpected _ _
    | some a => exact ⟨Cursor.stop_cons offset t rest, by nofun⟩

theorem placed_satisfying (accept : τ → Bool) : Placed (satisfying accept) :=
  placed_token _ _

theorem placed_exactly [DecidableEq τ] (ts : List τ) : Placed (exactly ts) := by
  induction ts with
  | nil => exact placed_pure ()
  | cons t ts ih =>
    rintro ⟨offset, rest⟩
    cases rest with
    | nil => exact start_unexpected _ _
    | cons u rest =>
      have hrest := ih ⟨offset + 1, rest⟩
      rw [Cursor.stop_cons offset u rest] at hrest
      unfold exactly
      dsimp only
      split
      · exact hrest
      · exact start_unexpected _ _

theorem placed_endOfInput : Placed (endOfInput : Scanner τ Unit) := by
  intro c
  unfold endOfInput
  split
  · exact ⟨rfl, by nofun⟩
  · exact start_unexpected _ c

theorem Placed.tryMap (hp : Placed p) (f : α → Except String β) : Placed (tryMap p f) := by
  intro c
  have hc := hp c
  unfold Scanner.tryMap
  cases hpc : p c with
  | failure failure =>
    rw [hpc] at hc
    exact hc
  | success a next alt =>
    rw [hpc] at hc
    dsimp only
    cases f a with
    | ok b => exact hc
    | error message => exact c.offset_le_stop

theorem Placed.orElse (hp : Placed p) (hq : Placed q) : Placed (orElse p q) := by
  intro c
  have hc := hp c
  have hd := hq c
  unfold Scanner.orElse
  cases hpc : p c with
  | success a next alt =>
    rw [hpc] at hc
    exact hc
  | failure f =>
    rw [hpc] at hc
    dsimp only
    cases hqc : q c with
    | success a next alt =>
      rw [hqc] at hd
      exact hd
    | failure g =>
      rw [hqc] at hd
      exact Failure.start_further hc hd

theorem placed_choice {ps : List (Scanner τ α)} (h : ∀ p ∈ ps, Placed p) : Placed (choice ps) := by
  intro c
  have hgo (earlier : Option (Failure τ)) (hearlier : ∀ f ∈ earlier, f.start ≤ c.stop) :
      (choice.go earlier ps c).Within c.stop := by
    induction ps generalizing earlier with
    | nil =>
      cases earlier with
      | none => exact c.offset_le_stop
      | some f => exact hearlier f rfl
    | cons p ps ih =>
      obtain ⟨hp, hps⟩ := List.forall_mem_cons.mp h
      have hc := hp c
      unfold choice.go
      cases hpc : p c with
      | success a next alt =>
        rw [hpc] at hc
        exact hc
      | failure f =>
        rw [hpc] at hc
        refine ih hps _ (start_merge hearlier ?_)
        rintro _ ⟨⟩
        exact hc
  exact hgo none (by nofun)

theorem Placed.optional (hp : Placed p) : Placed (optional p) := by
  intro c
  have hc := hp c
  unfold Scanner.optional
  cases hpc : p c with
  | success a next alt =>
    rw [hpc] at hc
    exact hc
  | failure f =>
    rw [hpc] at hc
    refine ⟨rfl, ?_⟩
    rintro _ ⟨⟩
    exact hc

theorem Placed.rounds (hp : Placed p) {stop : Nat} (least most count : Nat) (found : List α)
    (alt : Option (Failure τ)) (halt : ∀ f ∈ alt, f.start ≤ stop) (c : Cursor τ)
    (hstop : c.stop = stop) : (rounds p least most count found alt c).Within stop := by
  induction most generalizing count found alt c with
  | zero => exact ⟨hstop, halt⟩
  | succ most ih =>
    have hc := hp c
    rw [hstop] at hc
    unfold Scanner.rounds
    cases hpc : p c with
    | failure f =>
      rw [hpc] at hc
      dsimp only
      split
      · exact hc
      · refine ⟨hstop, start_merge halt ?_⟩
        rintro _ ⟨⟩
        exact hc
    | success a next later =>
      rw [hpc] at hc
      dsimp only
      split
      · exact ih (count + 1) (a :: found) (merge alt later) (start_merge halt hc.2) next hc.1
      · exact ⟨hc.1, start_merge halt hc.2⟩

theorem Placed.many (hp : Placed p) (least : Nat) : Placed (many p least) :=
  fun c => hp.rounds least _ 0 [] none (by nofun) c rfl

theorem Placed.takeUntil (hp : Placed p) : Placed (takeUntil p) := by
  have hsearched (rest passed : List τ) (offset : Nat) (alt : Option (Failure τ))
      (halt : ∀ f ∈ alt, f.start ≤ offset + rest.length) :
      (searched p rest passed offset alt).Within (offset + rest.length) := by
    induction rest generalizing passed offset alt with
    | nil =>
      have hc := hp ⟨offset, []⟩
      unfold searched
      cases hpc : p ⟨offset, []⟩ with
      | success a next later =>
        rw [hpc] at hc
        exact ⟨hc.1, start_merge halt hc.2⟩
      | failure f =>
        rw [hpc] at hc
        exact hc
    | cons t rest ih =>
      have hc := hp ⟨offset, t :: rest⟩
      have hlength : offset + 1 + rest.length = offset + (t :: rest).length := by
        rw [List.length_cons]
        omega
      unfold searched
      cases hpc : p ⟨offset, t :: rest⟩ with
      | success a next later =>
        rw [hpc] at hc
        exact ⟨hc.1, start_merge halt hc.2⟩
      | failure f =>
        rw [hpc] at hc
        have hnext := ih (t :: passed) (offset + 1) (merge alt (some f))
        rw [hlength] at hnext
        refine hnext (start_merge halt ?_)
        rintro _ ⟨⟩
        exact hc
  intro c
  exact hsearched c.rest [] c.offset none (by nofun)

/-- What a whole text fails with is told of a place in it. -/
theorem Placed.run (hp : Placed p) {tokens : List τ} {f : Failure τ}
    (h : run p tokens = .error f) : f.start ≤ tokens.length := by
  have hc := hp (Cursor.start tokens)
  unfold Scanner.run at h
  cases hpc : p (Cursor.start tokens) with
  | success a next alt =>
    rw [hpc] at h
    cases h
  | failure g =>
    rw [hpc] at h hc
    cases h
    simpa [Outcome.Within, Cursor.stop, Cursor.start] using hc

end Scanner

end ClauseTemplates
