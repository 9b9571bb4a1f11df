import ClauseTemplates.Proofs.Grammar.Compiled
import Mathlib.Data.Finset.Card

namespace ClauseTemplates

namespace Table

def keys (table : Table) : List EntryKey := table.cells.map (·.1)

/-- What requests leave of a table: cells that hold an entry stay where and as they are, and so does
the entry that is found for a key. -/
structure Kept (table table' : Table) : Prop where
  schema : table'.schema = table.schema
  settings : table'.settings = table.settings
  cells : ∀ (i : Nat) (key : EntryKey) (e : Entry), table.cells[i]? = some (key, some e) →
    table'.cells[i]? = some (key, some e)
  cached : ∀ (key : EntryKey) (e : Entry), table.cached? key = some e → table'.cached? key = some e

namespace Kept

variable {table table' table'' : Table}

theorem refl (table : Table) : Kept table table := ⟨rfl, rfl, fun _ _ _ h => h, fun _ _ h => h⟩

theorem trans (h : Kept table table') (h' : Kept table' table'') : Kept table table'' :=
  ⟨h'.schema.trans h.schema, h'.settings.trans h.settings,
    fun i key e he => h'.cells i key e (h.cells i key e he),
    fun key e he => h'.cached key e (h.cached key e he)⟩

end Kept

/-- A cell that holds another entry is not the first of its key if that one holds none. -/
theorem getElem?_store {key other : EntryKey} {entry : Option Entry} {e : Entry} :
    ∀ {cells : List (EntryKey × Option Entry)} {i : Nat}, (cells.lookup key).join = none →
      cells[i]? = some (other, some e) → (store key entry cells)[i]? = some (other, some e)
  | [], _, _, h => by simp at h
  | (k, found) :: rest, i, hnone, h => by
    rw [List.lookup_cons] at hnone
    unfold store
    by_cases hk : k = key
    · subst hk
      rw [if_pos rfl]
      cases i with
      | zero =>
        obtain ⟨rfl, rfl⟩ : k = other ∧ found = some e := by simpa using h
        simp at hnone
      | succ i => exact h
    · rw [if_neg hk]
      cases i with
      | zero => exact h
      | succ i =>
        rw [beq_eq_false_iff_ne.mpr (Ne.symm hk)] at hnone
        exact getElem?_store hnone h

theorem entry_kept (key : EntryKey) (table : Table) : Kept table (table.entry key).2 := by
  unfold entry
  cases h : table.cached? key with
  | some found => exact Kept.refl table
  | none =>
    refine ⟨rfl, rfl, fun i other e he => getElem?_store h he, fun other e he => ?_⟩
    have hother : other ≠ key := by
      rintro rfl
      rw [h] at he
      cases he
    unfold cached?
    rw [lookup_store, if_neg hother]
    exact he

theorem keys_store (key : EntryKey) (entry : Option Entry) (cells : List (EntryKey × Option Entry)) :
    (store key entry cells).map (·.1) =
      if key ∈ cells.map (·.1) then cells.map (·.1) else cells.map (·.1) ++ [key] := by
  induction cells with
  | nil => rfl
  | cons cell cells ih =>
    obtain ⟨k, e⟩ := cell
    unfold store
    by_cases hk : k = key
    · subst hk
      simp
    · rw [if_neg hk, List.map_cons, ih]
      have hiff : (key ∈ ((k, e) :: cells).map (·.1)) ↔ key ∈ cells.map (·.1) := by
        simp [Ne.symm hk]
      by_cases hmem : key ∈ cells.map (·.1)
      · rw [if_pos hmem, if_pos (hiff.mpr hmem), List.map_cons]
      · rw [if_neg hmem, if_neg (mt hiff.mp hmem), List.map_cons, List.cons_append]

theorem mem_keys_of_cached {table : Table} {key : EntryKey} {e : Entry}
    (h : table.cached? key = some e) : key ∈ table.keys := by
  have hlookup : table.cells.lookup key = some (some e) := Option.join_eq_some_iff.mp h
  obtain ⟨l₁, l₂, hcells, -⟩ := List.lookup_eq_some_iff.mp hlookup
  unfold keys
  rw [hcells]
  simp

/-- A request adds the key, unless it was requested before. -/
theorem keys_entry (key : EntryKey) (table : Table) :
    (table.entry key).2.keys = if key ∈ table.keys then table.keys else table.keys ++ [key] := by
  unfold entry
  cases h : table.cached? key with
  | some found => rw [if_pos (mem_keys_of_cached h)]
  | none => exact keys_store key _ table.cells

theorem cell_of_cached {key : EntryKey} {table : Table} {e : Entry}
    (h : table.cached? key = some e) : ∃ i : Nat, table.cells[i]? = some (key, some e) := by
  have hlookup : table.cells.lookup key = some (some e) := Option.join_eq_some_iff.mp h
  obtain ⟨l₁, l₂, hcells, -⟩ := List.lookup_eq_some_iff.mp hlookup
  exact ⟨l₁.length, by rw [hcells]; simp⟩

theorem entry_of_cached {key : EntryKey} {table : Table} {e : Entry}
    (h : table.cached? key = some e) : table.entry key = (.ok e, table) := by
  unfold entry
  rw [h]

/-- An entry that was handed out is kept. -/
theorem cached_of_entry {key : EntryKey} {table : Table} {e : Entry}
    (h : (table.entry key).1 = .ok e) : (table.entry key).2.cached? key = some e := by
  unfold entry at h ⊢
  cases hcached : table.cached? key with
  | some found =>
    rw [hcached] at h
    cases h
    exact hcached
  | none =>
    rw [hcached] at h
    have hcompile : Entry.compile table.schema key = .ok e := h
    unfold cached?
    rw [lookup_store, if_pos rfl, hcompile]
    rfl

end Table

/-- What is computed from entries that are requested one after the other: each request may depend on
the answers to those before it. -/
inductive Inquiry (α : Type)
  | done (a : α)
  | ask (key : EntryKey) (next : Except EntryError Entry → Inquiry α)

namespace Inquiry

variable {α β : Type}

/-- The requests are answered by a table, which keeps the answers. -/
def run : Inquiry α → Table → α × Table
  | done a, table => (a, table)
  | ask key next, table => (next (table.entry key).1).run (table.entry key).2

section

variable (schema : Schema)

/-- The requests are answered without a table. -/
def result : Inquiry α → α
  | done a => a
  | ask key next => (next (Entry.compile schema key)).result

/-- The keys that are requested, in this order. -/
def keys : Inquiry α → List EntryKey
  | done _ => []
  | ask key next => key :: (next (Entry.compile schema key)).keys

end

def bind (f : α → Inquiry β) : Inquiry α → Inquiry β
  | done a => f a
  | ask key next => ask key fun answer => (next answer).bind f

def map (f : α → β) (q : Inquiry α) : Inquiry β := q.bind fun a => done (f a)

theorem run_bind (f : α → Inquiry β) (q : Inquiry α) :
    ∀ table, (q.bind f).run table = (f (q.run table).1).run (q.run table).2 := by
  induction q with
  | done a => exact fun _ => rfl
  | ask key next ih => exact fun table => ih _ _

theorem run_map (f : α → β) (q : Inquiry α) (table : Table) :
    (q.map f).run table = (f (q.run table).1, (q.run table).2) := run_bind _ q table

theorem kept_run (q : Inquiry α) : ∀ table : Table, table.Kept (q.run table).2 := by
  induction q with
  | done a => exact Table.Kept.refl
  | ask key next ih => exact fun table => (Table.entry_kept key table).trans (ih _ _)

variable {schema : Schema}

/-- A faithful table makes no difference to the result, and stays faithful. -/
theorem run_faithful (q : Inquiry α) : ∀ table : Table, table.Faithful →
    (q.run table).1 = q.result table.schema ∧ (q.run table).2.Faithful := by
  induction q with
  | done a => exact fun table h => ⟨rfl, h⟩
  | ask key next ih =>
    intro table h
    obtain ⟨hanswer, hfaithful⟩ := Table.entry_faithful h key
    have hschema := (Table.entry_schema key table).1
    rw [run, result, hanswer, ← hschema]
    exact ih _ _ hfaithful

/-- The keys of a table are those that were requested, each once. -/
theorem keys_run (q : Inquiry α) : ∀ table : Table, table.Faithful →
    table.keys.Nodup → (q.run table).2.keys.Nodup ∧
      (q.run table).2.keys.toFinset = table.keys.toFinset ∪ (q.keys table.schema).toFinset := by
  induction q with
  | done a =>
    intro table _ hnodup
    exact ⟨hnodup, by simp [run, keys]⟩
  | ask key next ih =>
    intro table hf hnodup
    obtain ⟨hanswer, hfaithful⟩ := Table.entry_faithful hf key
    have hschema := (Table.entry_schema key table).1
    have hkeys := Table.keys_entry key table
    have hnodup' : (table.entry key).2.keys.Nodup := by
      rw [hkeys]
      split_ifs with hmem
      · exact hnodup
      · exact List.nodup_append.mpr ⟨hnodup, List.nodup_singleton key, by
          rintro k hk _ hother rfl
          exact hmem (List.mem_singleton.mp hother ▸ hk)⟩
    have hset : (table.entry key).2.keys.toFinset = insert key table.keys.toFinset := by
      rw [hkeys]
      split_ifs with hmem
      · rw [Finset.insert_eq_of_mem (List.mem_toFinset.mpr hmem)]
      · ext k
        simp
    obtain ⟨hrest, hunion⟩ := ih (table.entry key).1 _ hfaithful hnodup'
    rw [run, keys, List.toFinset_cons]
    refine ⟨hrest, ?_⟩
    rw [hunion, hset, hanswer, hschema]
    simp

end Inquiry

end ClauseTemplates
