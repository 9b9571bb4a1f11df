import ClauseTemplates.Template

namespace ClauseTemplates

/-- Equality of elements, none of which carry a record. -/
def Frame.equal : Frame → Frame → Bool
  | .paragraph, .paragraph => true
  | .heading level, .heading other => level == other
  | .blockQuote, .blockQuote => true
  | .list kind start, .list other begin => kind == other && start == begin
  | .item, .item => true
  | .emph, .emph => true
  | .strong, .strong => true
  | _, _ => false

theorem Frame.eq_of_equal {frame other : Frame} (h : frame.equal other = true) : frame = other := by
  cases frame <;> cases other <;> simp_all [Frame.equal]

namespace Node

mutual

/-- Equality of nodes that can be computed. -/
def equal : Node → Node → Bool
  | .variable v, .variable w => v == w
  | .enumVariable v, .enumVariable w => v == w
  | .formula f, .formula g => f == g
  | .conditional name condition whenTrue whenFalse, .conditional name' condition' whenTrue' whenFalse' =>
    name == name' && condition == condition' && equalAll whenTrue whenTrue' &&
      equalAll whenFalse whenFalse'
  | .optional name type whenSome whenNone, .optional name' type' whenSome' whenNone' =>
    name == name' && type == type' && equalAll whenSome whenSome' && equalAll whenNone whenNone'
  | .within name type children, .within name' type' children' =>
    name == name' && type == type' && equalAll children children'
  | .list name kind type children, .list name' kind' type' children' =>
    name == name' && kind == kind' && type == type' && equalAll children children'
  | .join name type separator children, .join name' type' separator' children' =>
    name == name' && type == type' && separator == separator' && equalAll children children'
  | .clause name type src condition children, .clause name' type' src' condition' children' =>
    name == name' && type == type' && src == src' && condition == condition' &&
      equalAll children children'
  | .leaf l, .leaf m => l == m
  | .markup frame children, .markup frame' children' => frame.equal frame' && equalAll children children'
  | _, _ => false

def equalAll : List Node → List Node → Bool
  | [], [] => true
  | n :: ns, m :: ms => n.equal m && equalAll ns ms
  | _, _ => false

end

mutual

theorem eq_of_equal : ∀ {n m : Node}, n.equal m = true → n = m
  | .variable v, m, h => by
    cases m <;> simp_all [equal]
  | .enumVariable v, m, h => by
    cases m <;> simp_all [equal]
  | .formula f, m, h => by
    cases m <;> simp_all [equal]
  | .leaf l, m, h => by
    cases m <;> simp_all [equal]
  | .contract type children, m, h => by
    cases m <;> simp_all [equal]
  | .conditional name condition whenTrue whenFalse, m, h => by
    cases m with
    | conditional name' condition' whenTrue' whenFalse' =>
      simp only [equal, Bool.and_eq_true, beq_iff_eq] at h
      rw [h.1.1.1, h.1.1.2, eq_of_equalAll h.1.2, eq_of_equalAll h.2]
    | _ => simp [equal] at h
  | .optional name type whenSome whenNone, m, h => by
    cases m with
    | optional name' type' whenSome' whenNone' =>
      simp only [equal, Bool.and_eq_true, beq_iff_eq] at h
      rw [h.1.1.1, h.1.1.2, eq_of_equalAll h.1.2, eq_of_equalAll h.2]
    | _ => simp [equal] at h
  | .within name type children, m, h => by
    cases m with
    | within name' type' children' =>
      simp only [equal, Bool.and_eq_true, beq_iff_eq] at h
      rw [h.1.1, h.1.2, eq_of_equalAll h.2]
    | _ => simp [equal] at h
  | .list name kind type children, m, h => by
    cases m with
    | list name' kind' type' children' =>
      simp only [equal, Bool.and_eq_true, beq_iff_eq] at h
      rw [h.1.1.1, h.1.1.2, h.1.2, eq_of_equalAll h.2]
    | _ => simp [equal] at h
  | .join name type separator children, m, h => by
    cases m with
    | join name' type' separator' children' =>
      simp only [equal, Bool.and_eq_true, beq_iff_eq] at h
      rw [h.1.1.1, h.1.1.2, h.1.2, eq_of_equalAll h.2]
    | _ => simp [equal] at h
  | .clause name type src condition children, m, h => by
    cases m with
    | clause name' type' src' condition' children' =>
      simp only [equal, Bool.and_eq_true, beq_iff_eq] at h
      rw [h.1.1.1.1, h.1.1.1.2, h.1.1.2, h.1.2, eq_of_equalAll h.2]
    | _ => simp [equal] at h
  | .markup frame children, m, h => by
    cases m with
    | markup frame' children' =>
      simp only [equal, Bool.and_eq_true] at h
      rw [Frame.eq_of_equal h.1, eq_of_equalAll h.2]
    | _ => simp [equal] at h

theorem eq_of_equalAll : ∀ {ns ms : List Node}, equalAll ns ms = true → ns = ms
  | [], [], _ => rfl
  | [], _ :: _, h => by simp [equalAll] at h
  | _ :: _, [], h => by simp [equalAll] at h
  | n :: ns, m :: ms, h => by
    simp only [equalAll, Bool.and_eq_true] at h
    rw [eq_of_equal h.1, eq_of_equalAll h.2]

end

/-- To find out whether a result is these nodes, it is enough to compute it. -/
theorem eq_ok_of_equalAll {ε : Type} {result : Except ε (List Node)} {nodes : List Node}
    (h : result.toOption.any (equalAll nodes) = true) : result = .ok nodes := by
  cases result with
  | error e => cases h
  | ok found => rw [eq_of_equalAll h]

end Node

namespace Template

def equal (t u : Template) : Bool := t.kind == u.kind && t.type == u.type && Node.equalAll t.body u.body

theorem eq_of_equal {t u : Template} (h : t.equal u = true) : t = u := by
  obtain ⟨kind, type, body⟩ := t
  simp only [equal, Bool.and_eq_true, beq_iff_eq] at h
  rw [h.1.1, h.1.2, Node.eq_of_equalAll h.2]

theorem eq_ok_of_equal {result : Except Error Template} {t : Template}
    (h : result.toOption.any t.equal = true) : result = .ok t := by
  cases result with
  | error e => cases h
  | ok found => rw [eq_of_equal h]

end Template

end ClauseTemplates
