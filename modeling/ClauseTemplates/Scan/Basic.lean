namespace ClauseTemplates.Scan

/-- A place in the input: how many tokens lie before it, and those that follow. -/
structure Cursor (τ : Type) where
  offset : Nat
  rest : List τ

def Cursor.start (tokens : List τ) : Cursor τ := ⟨0, tokens⟩

inductive Cause (τ : Type)
  | unexpected (found : Option τ)
  | custom (message : String)

/-- Why scanning stopped. Of two failures the one that reached further is told; `start` is the
place it is told of. What was expected there are tokens, or none for the end of the input. -/
structure Failure (τ : Type) where
  reached : Nat
  start : Nat
  cause : Cause τ
  expected : List (Option τ)

/-- A success keeps the failure that reached furthest on the way, in case scanning stops later
without getting as far. -/
inductive Outcome (τ α : Type)
  | success (value : α) (next : Cursor τ) (alt : Option (Failure τ))
  | failure (f : Failure τ)

/-- The failure that reached further. If they are level it is the first one, and what either expected
was expected. -/
def Failure.further (f g : Failure τ) : Failure τ :=
  if f.reached < g.reached then g
  else if g.reached < f.reached then f
  else { f with expected := f.expected ++ g.expected }

/-- The further of an earlier and a later failure, the later one if they are level. -/
def merge : Option (Failure τ) → Option (Failure τ) → Option (Failure τ)
  | none, later => later
  | earlier, none => earlier
  | some earlier, some later => some (later.further earlier)

/-- A failure after a success that remembers another one. -/
def Failure.after (f : Failure τ) (alt : Option (Failure τ)) : Failure τ :=
  match alt with
  | none => f
  | some g => f.further g

end Scan

/-- Reads a value from the front of the rest of the input. -/
def Scanner (τ α : Type) := Scan.Cursor τ → Scan.Outcome τ α

namespace Scanner

open Scan

def succeed (value : α) : Scanner τ α := fun c => .success value c none

/-- One scanner after the other, where the first one's value may choose the second. -/
def andThen (p : Scanner τ α) (q : α → Scanner τ β) : Scanner τ β := fun c =>
  match p c with
  | .failure f => .failure f
  | .success a next alt =>
    match q a next with
    | .failure f => .failure (f.after alt)
    | .success b next later => .success b next (merge alt later)

instance : Monad (Scanner τ) where
  pure := succeed
  bind := andThen

/-- Fails at a token where others were expected, if it is known which ones. -/
def unexpected (expected : List (Option τ)) (c : Cursor τ) : Failure τ :=
  ⟨c.offset, c.offset, .unexpected c.rest.head?, expected⟩

/-- One token that `accept` turns into a value; failures tell that some of `expected` was expected. -/
def token (expected : List τ) (accept : τ → Option α) : Scanner τ α := fun c =>
  match c.rest with
  | [] => .failure (unexpected (expected.map some) c)
  | t :: rest =>
    match accept t with
    | some a => .success a ⟨c.offset + 1, rest⟩ none
    | none => .failure (unexpected (expected.map some) c)

/-- One token of some kind; failures do not tell which tokens are of that kind. -/
def satisfying (accept : τ → Bool) : Scanner τ τ :=
  token [] fun t => if accept t then some t else none

/-- One of a few tokens. -/
def among [DecidableEq τ] (tokens : List τ) : Scanner τ τ :=
  token tokens fun t => if t ∈ tokens then some t else none

def endOfInput : Scanner τ Unit := fun c =>
  if c.rest.isEmpty then .success () c none else .failure (unexpected [none] c)

/-- Fails with a message about everything read from `start` on. -/
def rejected (start reached : Nat) (message : String) : Failure τ :=
  ⟨reached, start, .custom message, []⟩

/-- Refuses some of the values read, with a message. -/
def tryMap (p : Scanner τ α) (f : α → Except String β) : Scanner τ β := fun c =>
  match p c with
  | .failure failure => .failure failure
  | .success a next alt =>
    match f a with
    | .ok b => .success b next alt
    | .error message => .failure (rejected c.offset next.offset message)

/-- The value together with the place where it starts. -/
def located (p : Scanner τ α) (f : α → Nat → β) : Scanner τ β := fun c =>
  (p.andThen fun a => succeed (f a c.offset)) c

/-- The first that succeeds; what the ones before it failed with is forgotten. If both fail, the
failure that reached further is told, the first one's if they are level. -/
def orElse (p q : Scanner τ α) : Scanner τ α := fun c =>
  match p c with
  | .success a next alt => .success a next alt
  | .failure f =>
    match q c with
    | .success a next alt => .success a next alt
    | .failure g => .failure (f.further g)

/-- The first of many that succeeds. If all fail, the failure that reached furthest is told, the
last one's if some are level. -/
def choice : List (Scanner τ α) → Scanner τ α := fun ps c => go none ps c
where
  go : Option (Failure τ) → List (Scanner τ α) → Scanner τ α
    | earlier, [], c => .failure (earlier.getD (rejected c.offset c.offset "no alternatives"))
    | earlier, p :: ps, c =>
      match p c with
      | .success a next alt => .success a next alt
      | .failure f => go (merge earlier (some f)) ps c

/-- Nothing is read where `p` fails. -/
def optional (p : Scanner τ α) : Scanner τ (Option α) := fun c =>
  match p c with
  | .success a next alt => .success (some a) next alt
  | .failure f => .success none c (some f)

end Scanner

end ClauseTemplates
