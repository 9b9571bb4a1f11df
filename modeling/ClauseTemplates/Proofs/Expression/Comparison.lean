import ClauseTemplates.Proofs.Expression.Arithmetic

namespace ClauseTemplates

open Double

namespace Evaluation

/-- The operators that compare, each with the relation it stands for. -/
def comparisons : List (BinaryOp × (Int → Int → Bool)) :=
  [(.eq, fun x y => decide (x = y)), (.ne, fun x y => decide (x ≠ y)),
   (.lt, fun x y => decide (x < y)), (.le, fun x y => decide (x ≤ y)),
   (.gt, fun x y => decide (y < x)), (.ge, fun x y => decide (y ≤ x))]

section

variable {op : BinaryOp} {relation : Int → Int → Bool} {x y : Int} {u v : Double}

/-- Integers are compared by the values of their doubles. -/
theorem binary_comparison (h : (op, relation) ∈ comparisons) :
    Evaluation.binary op (.int x) (.int y) =
      .ok (.bool (relation (ofInt x).units (ofInt y).units)) := by
  have hcompare : compare (.int x) (.int y) =
      .ok (Ord.compare (ofInt x).units (ofInt y).units) := rfl
  have hequal : equal (.int x) (.int y) = decide ((ofInt x).units = (ofInt y).units) := by
    rw [Bool.eq_iff_iff, decide_eq_true_iff]
    exact beq_iff (ofInt x) (ofInt y)
  simp only [comparisons, List.mem_cons, Prod.mk.injEq, List.not_mem_nil, or_false] at h
  rcases h with ⟨rfl, rfl⟩ | ⟨rfl, rfl⟩ | ⟨rfl, rfl⟩ | ⟨rfl, rfl⟩ | ⟨rfl, rfl⟩ | ⟨rfl, rfl⟩
  · rw [Evaluation.binary, hequal]
  · rw [Evaluation.binary, hequal, ← decide_not]
  · rw [Evaluation.binary, hcompare]
    change Except.ok (Json.bool (Ord.compare _ _).isLT) = _
    congr 2
    rw [Bool.eq_iff_iff, decide_eq_true_iff, Ordering.isLT_iff_eq_lt, Int.compare_eq_lt]
  · rw [Evaluation.binary, hcompare]
    change Except.ok (Json.bool (Ord.compare _ _).isLE) = _
    congr 2
    rw [Bool.eq_iff_iff, decide_eq_true_iff, Std.isLE_compare]
  · rw [Evaluation.binary, hcompare]
    change Except.ok (Json.bool (Ord.compare _ _).isGT) = _
    congr 2
    rw [Bool.eq_iff_iff, decide_eq_true_iff, Ordering.isGT_iff_eq_gt, Int.compare_eq_gt]
  · rw [Evaluation.binary, hcompare]
    change Except.ok (Json.bool (Ord.compare _ _).isGE) = _
    congr 2
    rw [Bool.eq_iff_iff, decide_eq_true_iff, Std.isGE_compare]

theorem relation_congr {a b c d : Int} (h : (op, relation) ∈ comparisons) (heq : a = b ↔ c = d)
    (hle : a ≤ b ↔ c ≤ d) : relation a b = relation c d := by
  simp only [comparisons, List.mem_cons, Prod.mk.injEq, List.not_mem_nil, or_false] at h
  rcases h with ⟨-, rfl⟩ | ⟨-, rfl⟩ | ⟨-, rfl⟩ | ⟨-, rfl⟩ | ⟨-, rfl⟩ | ⟨-, rfl⟩ <;>
    exact decide_eq_decide.mpr (by omega)

/-- Rounding to doubles keeps every relation between integers that do not share a double. -/
theorem relation_units (h : (op, relation) ∈ comparisons) (hx : Json.inInt64 x = true)
    (hy : Json.inInt64 y = true) (hapart : ofInt x = ofInt y → x = y) :
    relation (ofInt x).units (ofInt y).units = relation x y := by
  have heq : (ofInt x).units = (ofInt y).units ↔ x = y :=
    ⟨fun h => hapart (ofInt_eq_of_units (range_of_inInt64 hx) (range_of_inInt64 hy) h),
      fun h => h ▸ rfl⟩
  refine relation_congr h heq ⟨fun h => ?_, ?_⟩
  · by_contra hlt
    have hge := units_ofInt_mono (range_of_inInt64 hy) (range_of_inInt64 hx) (by omega : y ≤ x)
    have hsame := heq.mp (by omega)
    omega
  · exact units_ofInt_mono (range_of_inInt64 hx) (range_of_inInt64 hy)

/-- All comparisons of two integers are exact just when the integers are one or have two doubles. -/
theorem comparisons_exact_iff (hx : Json.inInt64 x = true) (hy : Json.inInt64 y = true) :
    (∀ c ∈ comparisons, Evaluation.binary c.1 (.int x) (.int y) = .ok (.bool (c.2 x y))) ↔
      (ofInt x = ofInt y → x = y) := by
  constructor
  · intro h hsame
    have heq : (BinaryOp.eq, fun x y => decide (x = y)) ∈ comparisons := List.mem_cons_self
    have hexact := h _ heq
    rw [binary_comparison heq] at hexact
    dsimp only at hexact
    rw [hsame] at hexact
    simpa using hexact.symm
  · intro h c hc
    rw [binary_comparison hc, relation_units hc hx hy h]

/-- Integers of at most 2 ^ 53 have doubles of their own. -/
theorem eq_of_ofInt_eq (hx : x.natAbs ≤ power 2 53) (hy : y.natAbs ≤ power 2 53)
    (h : ofInt x = ofInt y) : x = y := by
  have htruncate := truncate_ofInt hx
  rwa [h, truncate_ofInt hy, eq_comm] at htruncate

end

/-- A choice between two numbers that doubles make as integers do. -/
structure Chooses (f : Double → Double → Double) (g : Int → Int → Int) : Prop where
  ofInt : ∀ x y, Json.inInt64 x = true → Json.inInt64 y = true →
    f (Double.ofInt x) (Double.ofInt y) = Double.ofInt (g x y)
  chosen : ∀ x y, g x y = x ∨ g x y = y

section

variable {x y : Int} {xs : List Int}

theorem smaller_ofInt (hx : Json.inInt64 x = true) (hy : Json.inInt64 y = true) :
    smaller (ofInt x) (ofInt y) = ofInt (min x y) := by
  have hcompare : (ofInt y).compare (ofInt x) = .lt ↔ (ofInt y).units < (ofInt x).units :=
    Int.compare_eq_lt
  have hx := range_of_inInt64 hx
  have hy := range_of_inInt64 hy
  unfold smaller
  by_cases hle : x ≤ y
  · have hunits := units_ofInt_mono hx hy hle
    rw [if_neg (by rw [hcompare]; omega), Int.min_eq_left hle]
  · have hunits := units_ofInt_mono hy hx (by omega)
    rw [Int.min_eq_right (by omega)]
    split
    · rfl
    · rename_i hnot
      rw [hcompare] at hnot
      exact ofInt_eq_of_units hx hy (by omega)

theorem larger_ofInt (hx : Json.inInt64 x = true) (hy : Json.inInt64 y = true) :
    larger (ofInt x) (ofInt y) = ofInt (max x y) := by
  have hcompare : (ofInt y).compare (ofInt x) = .gt ↔ (ofInt x).units < (ofInt y).units :=
    Int.compare_eq_gt
  have hx := range_of_inInt64 hx
  have hy := range_of_inInt64 hy
  unfold larger
  by_cases hle : y ≤ x
  · have hunits := units_ofInt_mono hy hx hle
    rw [if_neg (by rw [hcompare]; omega), Int.max_eq_left hle]
  · have hunits := units_ofInt_mono hx hy (by omega)
    rw [Int.max_eq_right (by omega)]
    split
    · rfl
    · rename_i hnot
      rw [hcompare] at hnot
      exact ofInt_eq_of_units hx hy (by omega)

theorem chooses_smaller : Chooses smaller min where
  ofInt _ _ := smaller_ofInt
  chosen x y := by omega

theorem chooses_larger : Chooses larger max where
  ofInt _ _ := larger_ofInt
  chosen x y := by omega

section

variable {f : Double → Double → Double} {g : Int → Int → Int}

theorem Chooses.inInt64 (h : Chooses f g) (hx : Json.inInt64 x = true)
    (hxs : ∀ y ∈ xs, Json.inInt64 y = true) : Json.inInt64 (xs.foldl g x) = true := by
  apply List.foldlRecOn (motive := fun y => Json.inInt64 y = true) xs g hx
  intro y hy z hz
  rcases h.chosen y z with hsame | hsame
  · rwa [hsame]
  · rw [hsame]
    exact hxs z hz

theorem Chooses.foldl (h : Chooses f g) (hx : Json.inInt64 x = true)
    (hxs : ∀ y ∈ xs, Json.inInt64 y = true) :
    (xs.map Double.ofInt).foldl f (Double.ofInt x) = Double.ofInt (xs.foldl g x) := by
  induction xs generalizing x with
  | nil => rw [List.map_nil, List.foldl_nil, List.foldl_nil]
  | cons y ys ih =>
    obtain ⟨hy, hys⟩ := List.forall_mem_cons.mp hxs
    have hchosen : Json.inInt64 (g x y) = true := by
      rcases h.chosen x y with hsame | hsame <;> rwa [hsame]
    rw [List.map_cons, List.foldl_cons, List.foldl_cons, h.ofInt x y hx hy, ih hchosen hys]

end

/-- The integer that a chosen double stands for is given back as one only below 9 * 10 ^ 15. -/
theorem integral_ofInt (hx : Json.inInt64 x = true) :
    integral (ofInt x) =
      if x.natAbs < 9000000000000000 then .int x else .double (ofInt x) := by
  have hbound : 9000000000000000 ≤ power 2 53 := by decide
  unfold integral
  by_cases h : x.natAbs < 9000000000000000
  · have hsmall : x.natAbs ≤ power 2 53 := by omega
    rw [isIntegral_ofInt hsmall, truncate_ofInt hsmall, if_pos h, decide_eq_true h]
    rfl
  · have hlarge : 9000000000000000 ≤ (ofInt x).truncate.natAbs :=
      @le_natAbs_truncate_ofInt 9000000000000000 x hbound (range_of_inInt64 hx) (Nat.not_lt.mp h)
    rw [if_neg h, decide_eq_false (Nat.not_lt.mpr hlarge), Bool.and_false]
    rfl

theorem numberArgs_int (function : String) (hne : xs ≠ []) {arguments : List Json}
    (h : arguments = xs.map .int ∨ arguments = [.arr (xs.map .int)]) :
    numberArgs function arguments = .ok (xs.map ofInt) := by
  have hall : (xs.map Json.int).mapM (numberArg function) = .ok (xs.map ofInt) := by
    rw [List.mapM_map]
    exact List.mapM_pure
  obtain ⟨x, ys, rfl⟩ := List.exists_cons_of_ne_nil hne
  rcases h with rfl | rfl
  · exact hall
  · exact hall

theorem allInt64_int (hxs : ∀ x ∈ xs, Json.inInt64 x = true) {arguments : List Json}
    (h : arguments = xs.map .int ∨ arguments = [.arr (xs.map .int)]) :
    allInt64 arguments = true := by
  have hall : ∀ x ∈ xs, (Json.int x).int64?.isSome = true := by
    intro x hx
    rw [Json.int64?_int (hxs x hx)]
    rfl
  unfold allInt64
  rcases h with rfl | rfl
  · simpa using hall
  · simpa using hall

/-- The chosen one of some integers is given back as an integer only below 9 * 10 ^ 15. -/
theorem Chooses.keepKind {f : Double → Double → Double} {g : Int → Int → Int} (h : Chooses f g)
    (hxs : ∀ y ∈ x :: xs, Json.inInt64 y = true) {arguments : List Json}
    (harguments : allInt64 arguments = true) :
    keepKind arguments (foldFirst f ((x :: xs).map Double.ofInt)) =
      .ok (if (xs.foldl g x).natAbs < 9000000000000000 then .int (xs.foldl g x)
        else .double (Double.ofInt (xs.foldl g x))) := by
  obtain ⟨hx, hxs⟩ := List.forall_mem_cons.mp hxs
  rw [List.map_cons, foldFirst, h.foldl hx hxs, Evaluation.keepKind, if_pos harguments,
    integral_ofInt (h.inInt64 hx hxs)]

end

end Evaluation

namespace Expression

open Evaluation

section

variable {scope : Scope} {lhs rhs : Expression} {arguments : List Expression} {values : List Json}
  {x y : Int} {xs : List Int}

theorem call_min (hxs : ∀ y ∈ x :: xs, Json.inInt64 y = true)
    (h : values = (x :: xs).map .int ∨ values = [.arr ((x :: xs).map .int)]) :
    Evaluation.call "min" values = .ok (if (xs.foldl min x).natAbs < 9000000000000000
      then .int (xs.foldl min x) else .double (ofInt (xs.foldl min x))) := by
  have hcall : Evaluation.call "min" values =
      (do keepKind values (foldFirst smaller (← numberArgs "min" values))) := rfl
  rw [hcall, numberArgs_int "min" (List.cons_ne_nil x xs) h]
  exact chooses_smaller.keepKind hxs (allInt64_int hxs h)

theorem call_max (hxs : ∀ y ∈ x :: xs, Json.inInt64 y = true)
    (h : values = (x :: xs).map .int ∨ values = [.arr ((x :: xs).map .int)]) :
    Evaluation.call "max" values = .ok (if (xs.foldl max x).natAbs < 9000000000000000
      then .int (xs.foldl max x) else .double (ofInt (xs.foldl max x))) := by
  have hcall : Evaluation.call "max" values =
      (do keepKind values (foldFirst larger (← numberArgs "max" values))) := rfl
  rw [hcall, numberArgs_int "max" (List.cons_ne_nil x xs) h]
  exact chooses_larger.keepKind hxs (allInt64_int hxs h)

theorem evaluate_comparison (hlhs : lhs.evaluate scope = .ok (.int x))
    (hrhs : rhs.evaluate scope = .ok (.int y)) :
    ∀ c ∈ comparisons,
      (binary c.1 lhs rhs).evaluate scope = Evaluation.binary c.1 (.int x) (.int y) := by
  intro c hc
  have hlazy : ∀ c ∈ comparisons, c.1 ≠ .and ∧ c.1 ≠ .or := by simp [comparisons]
  exact evaluate_binary hlhs hrhs (hlazy c hc).1 (hlazy c hc).2

/-- Integers are compared by their doubles. So all comparisons of two integers are exact just when
the integers are one or have two doubles, as those of at most 2 ^ 53 have, and
the least and the greatest of some integers are told as integers only below 9 * 10 ^ 15. -/
theorem compared_as_doubles (hlhs : lhs.evaluate scope = .ok (.int x))
    (hrhs : rhs.evaluate scope = .ok (.int y)) (hx : Json.inInt64 x = true)
    (hy : Json.inInt64 y = true) (hne : xs ≠ []) (hxs : ∀ z ∈ xs, Json.inInt64 z = true)
    (harguments : evaluateAll scope arguments = .ok (xs.map .int) ∨
      evaluateAll scope arguments = .ok [.arr (xs.map .int)]) :
    (∀ c ∈ comparisons, (binary c.1 lhs rhs).evaluate scope =
      .ok (.bool (c.2 (ofInt x).units (ofInt y).units))) ∧
    ((∀ c ∈ comparisons, (binary c.1 lhs rhs).evaluate scope = .ok (.bool (c.2 x y))) ↔
      (ofInt x = ofInt y → x = y)) ∧
    (x.natAbs ≤ power 2 53 → y.natAbs ≤ power 2 53 → ofInt x = ofInt y → x = y) ∧
    ∃ least ∈ xs, ∃ greatest ∈ xs, (∀ z ∈ xs, least ≤ z ∧ z ≤ greatest) ∧
      (Expression.call "min" arguments).evaluate scope =
        .ok (if least.natAbs < 9000000000000000 then .int least else .double (ofInt least)) ∧
      (Expression.call "max" arguments).evaluate scope =
        .ok (if greatest.natAbs < 9000000000000000 then .int greatest
          else .double (ofInt greatest)) := by
  have hbinary := evaluate_comparison hlhs hrhs
  refine ⟨fun c hc => ?_, ?_, eq_of_ofInt_eq, ?_⟩
  · rw [hbinary c hc, binary_comparison hc]
  · rw [← comparisons_exact_iff hx hy]
    exact forall₂_congr fun c hc => by rw [hbinary c hc]
  · obtain ⟨z, zs, rfl⟩ := List.exists_cons_of_ne_nil hne
    obtain ⟨values, hvalues, hshape⟩ : ∃ values, evaluateAll scope arguments = .ok values ∧
        (values = (z :: zs).map .int ∨ values = [.arr ((z :: zs).map .int)]) := by
      rcases harguments with h | h
      · exact ⟨_, h, .inl rfl⟩
      · exact ⟨_, h, .inr rfl⟩
    obtain ⟨hleast, hle⟩ := List.min?_eq_some_iff.mp (@List.min?_cons' Int z _ zs)
    obtain ⟨hgreatest, hge⟩ := List.max?_eq_some_iff.mp (@List.max?_cons' Int z _ zs)
    refine ⟨_, hleast, _, hgreatest, fun y hy => ⟨hle y hy, hge y hy⟩, ?_, ?_⟩
    · rw [evaluate_call hvalues, call_min hxs hshape]
    · rw [evaluate_call hvalues, call_max hxs hshape]

end

namespace Receipts

def first : Int := 9007199254740993

def second : Int := 9007199254740992

def scope : Scope := .ofData (.obj [("first", .int first), ("second", .int second)]) ⟨0, 0, 0⟩

def lhs : Expression := .ident "first"

def rhs : Expression := .ident "second"

/-- Two receipts whose numbers differ are taken for one, and neither number is the least. -/
theorem compared_as_doubles_receipts :
    lhs.evaluate scope = .ok (.int first) ∧ rhs.evaluate scope = .ok (.int second) ∧
      Json.inInt64 first = true ∧ Json.inInt64 second = true ∧
      evaluateAll scope [lhs, rhs] = .ok ([first, second].map .int) ∧
      (¬ ∀ c ∈ comparisons, (binary c.1 lhs rhs).evaluate scope = .ok (.bool (c.2 first second))) ∧
      ∃ least, (Expression.call "min" [lhs, rhs]).evaluate scope = .ok (.double least) := by
  have hlhs : lhs.evaluate scope = .ok (.int first) := rfl
  have hrhs : rhs.evaluate scope = .ok (.int second) := rfl
  have hfirst : Json.inInt64 first = true := by decide
  have hsecond : Json.inInt64 second = true := by decide
  have hall : ∀ z ∈ [first, second], Json.inInt64 z = true := by simp [hfirst, hsecond]
  have harguments : evaluateAll scope [lhs, rhs] = .ok ([first, second].map .int) := rfl
  have hsame : ofInt first = ofInt second := by decide +kernel
  obtain ⟨-, hexact, -, least, hleast, -, -, -, hmin, -⟩ :=
    compared_as_doubles hlhs hrhs hfirst hsecond (List.cons_ne_nil _ _) hall (.inl harguments)
  refine ⟨hlhs, hrhs, hfirst, hsecond, harguments, ?_, ofInt least, ?_⟩
  · rw [hexact]
    exact fun h => absurd (h hsame) (by decide)
  · have hlarge : ∀ z ∈ [first, second], ¬ z.natAbs < 9000000000000000 := by decide
    rw [hmin, if_neg (hlarge least hleast)]

end Receipts

end Expression

end ClauseTemplates
