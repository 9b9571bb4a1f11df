import ClauseTemplates.Scan.Basic

namespace ClauseTemplates.Scanner

open Scan

/-- Exactly these tokens. -/
def exactly [DecidableEq τ] : List τ → Scanner τ Unit
  | [] => succeed ()
  | t :: ts => fun c =>
    match c.rest with
    | [] => .failure (unexpected [some t] c)
    | u :: rest =>
      if u = t then exactly ts ⟨c.offset + 1, rest⟩ else .failure (unexpected [some t] c)

/-- The first of many that succeeds. If all fail, the failure that reached furthest is told, the
first one's if some are level. -/
def firstOf : List (Scanner τ α) → Scanner τ α
  | [] => fun c => .failure (rejected c.offset c.offset "no alternatives")
  | [p] => p
  | p :: rest => orElse p (firstOf rest)

/-- The value of the first text that is in front. -/
def oneOf [DecidableEq τ] (choices : List (List τ × α)) : Scanner τ α :=
  firstOf (choices.map fun (text, value) => andThen (exactly text) fun _ => succeed value)

/-- Rounds of `p` up to the first that fails, and at most `most`. After a round that reads nothing
the same round would follow for ever; here it is the last one. -/
def rounds (p : Scanner τ α) (least : Nat) :
    Nat → Nat → List α → Option (Failure τ) → Scanner τ (List α)
  | 0, _, found, alt, c => .success found.reverse c alt
  | most + 1, count, found, alt, c =>
    match p c with
    | .failure f =>
      if count < least then .failure f else .success found.reverse c (merge alt (some f))
    | .success a next later =>
      if c.offset < next.offset then
        rounds p least most (count + 1) (a :: found) (merge alt later) next
      else .success (a :: found).reverse next (merge alt later)

/-- At least `least` rounds of `p`, and as many as there are. -/
def many (p : Scanner τ α) (least : Nat) : Scanner τ (List α) := fun c =>
  rounds p least (c.rest.length + 1) 0 [] none c

/-- At least `least` and at most `most` rounds of `p`. -/
def between (p : Scanner τ α) (least most : Nat) : Scanner τ (List α) := fun c =>
  rounds p least most 0 [] none c

/-- Items after a first one, each with a separator in front. A separator without an item after it
is not read. The last failure is what ended the list. After a separator and
an item that together read nothing the same would follow for ever; here such an item is the last
one. Only joins get there, where nothing stands between items that may be shown by nothing. -/
def separatedTail (item : Scanner τ α) (separator : Scanner τ Unit) :
    Nat → List α → Option (Failure τ) → Cursor τ →
      List α × Cursor τ × Option (Failure τ) × Option (Failure τ)
  | 0, found, alt, c => (found.reverse, c, alt, none)
  | fuel + 1, found, alt, c =>
    match separator c with
    | .failure f => (found.reverse, c, alt, some f)
    | .success _ between alt₁ =>
      match item between with
      | .failure f => (found.reverse, c, merge alt alt₁, some f)
      | .success a next alt₂ =>
        let alt := merge (merge alt alt₁) alt₂
        if c.offset < next.offset then
          separatedTail item separator fuel (a :: found) alt next
        else ((a :: found).reverse, next, alt, none)

/-- Items with separators between them: at least one of them if `nonempty`, and a separator after
the last one if `trailing` allows it. -/
def separated (item : Scanner τ α) (separator : Scanner τ Unit) (nonempty trailing : Bool) :
    Scanner τ (List α) := fun c =>
  match item c with
  | .failure f => if nonempty then .failure f else .success [] c (some f)
  | .success a next alt =>
    let (found, next, alt, ended) :=
      separatedTail item separator (next.rest.length + 1) [a] alt next
    if trailing then
      match separator next with
      | .failure _ => .success found next (merge alt ended)
      | .success _ next later => .success found next (merge (merge alt later) ended)
    else .success found next (merge alt ended)

/-- The tokens before the first place where `p` succeeds, and what it reads there. -/
def searched (p : Scanner τ α) :
    List τ → List τ → Nat → Option (Failure τ) → Outcome τ (List τ)
  | rest, passed, offset, alt =>
    match p ⟨offset, rest⟩ with
    | .success _ next later => .success passed.reverse next (merge alt later)
    | .failure f =>
      match rest with
      | [] => .failure f
      | t :: rest => searched p rest (t :: passed) (offset + 1) (merge alt (some f))

/-- The tokens before the first place where `p` succeeds; continues after what it reads there. -/
def takeUntil (p : Scanner τ α) : Scanner τ (List τ) := fun c =>
  searched p c.rest [] c.offset none

/-- The value read from the whole of some tokens. -/
def run (p : Scanner τ α) (tokens : List τ) : Except (Failure τ) α :=
  match p (Cursor.start tokens) with
  | .success a _ _ => .ok a
  | .failure f => .error f

end ClauseTemplates.Scanner
