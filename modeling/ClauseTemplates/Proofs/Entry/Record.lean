import ClauseTemplates.Entry.Table
import Mathlib.Data.List.Perm.Subperm

namespace ClauseTemplates

theorem Schema.of_find? {schema : Schema} {name : String} {d : Declaration}
    (h : schema.find? name = some d) : d ∈ schema.declarations ∧ d.name = name :=
  ⟨List.mem_of_find?_eq_some h, by simpa using List.find?_some h⟩

/-- The names that the schema declares. -/
def Schema.declared (schema : Schema) : List String := schema.declarations.map (·.name)

theorem Schema.length_le_of_declared {schema : Schema} {names : List String} (hnodup : names.Nodup)
    (hsub : names ⊆ schema.declared) : names.length ≤ schema.declarations.length := by
  have hle := (hnodup.subperm hsub).length_le
  unfold declared at hle
  rwa [List.length_map] at hle

namespace Entry

open Binding

theorem compile_compound {schema : Schema} {key : EntryKey} {type : String} {children : List Node}
    (h : Entry.compile schema key = .ok (.compound type children)) :
    ∃ d, schema.find? key.type = some d ∧ d.isEnum = false ∧ d.name = key.type ∧
      bindRecord schema key.type (Fragment.ofDeclaration d) = .ok children := by
  unfold Entry.compile at h
  split at h
  · split at h <;> cases h
  · split at h
    · cases h
    · rename_i d hd
      obtain ⟨hd, henum⟩ := Option.filter_eq_some_iff.mp hd
      have hname := (Schema.of_find? hd).2
      split at h
      · cases h
      · split at h
        · rename_i children hc
          cases h
          exact ⟨d, hd, by simpa using henum, hname, hname ▸ hc⟩
        · cases h

theorem key_of_compound {schema : Schema} {key : EntryKey} {type : String} {children : List Node}
    (h : Entry.compile schema key = .ok (.compound type children)) :
    key = ⟨type, none⟩ ∧ schema.isCompound type = true := by
  obtain ⟨type', format⟩ := key
  obtain ⟨d, hd, henum, -, -⟩ := compile_compound h
  unfold Entry.compile at h
  split at h
  · split at h <;> cases h
  · rename_i hscalar
    split at h
    · cases h
    · rename_i d' hd'
      have hd' : schema.find? type' = some d' := (Option.filter_eq_some_iff.mp hd').1
      obtain rfl : d = d' := Option.some.inj (hd.symm.trans hd')
      split at h
      · cases h
      · split at h
        · cases h
          have hname : d.name = type' := (Schema.of_find? hd).2
          have hrecord : schema.isRecord type' = true := by simp_all [Schema.isRecord]
          simp_all [Schema.isCompound]
        · cases h

theorem declared_of_compound {schema : Schema} {key : EntryKey} {type : String} {children : List Node}
    (h : Entry.compile schema key = .ok (.compound type children)) : type ∈ schema.declared := by
  obtain ⟨rfl, _⟩ := key_of_compound h
  obtain ⟨d, hd, _⟩ := compile_compound h
  obtain ⟨hmem, rfl⟩ := Schema.of_find? hd
  exact List.mem_map_of_mem hmem

end Entry

namespace Fragment

theorem forall_ofDeclaration {d : Declaration} {P : Node → Prop}
    (h : ∀ lead, ∀ p ∈ d.properties, ∀ n ∈ entry lead p, P n) : ∀ n ∈ ofDeclaration d, P n := by
  intro n hn
  unfold ofDeclaration at hn
  split at hn
  · cases hn
  · rename_i first rest hshown
    have hmem (p : Property) (hp : p ∈ first :: rest) : p ∈ d.properties :=
      (List.mem_filter.mp (hshown ▸ hp)).1
    rcases List.mem_append.mp hn with hn | hn
    · exact h "" first (hmem first List.mem_cons_self) n hn
    · obtain ⟨p, hp, hn⟩ := List.mem_flatMap.mp hn
      exact h Markup.defaultSeparator p (hmem p (List.mem_cons_of_mem _ hp)) n hn

end Fragment

end ClauseTemplates
