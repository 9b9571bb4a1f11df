import ClauseTemplates.Proofs.Markup.Level
import ClauseTemplates.Proofs.Template.Every

namespace ClauseTemplates

/-- A node as it is written, with nothing of what binding fills in. -/
def Node.Unbound : Node → Prop
  | .variable v => v = .unbound v.name v.format
  | .enumVariable _ => False
  | .optional _ type _ _ => type = none
  | .within _ type _ => type = none
  | .list _ _ type _ => type = none
  | .join _ type _ _ => type = none
  | .clause _ type _ _ _ => type = none
  | .contract _ _ => False
  | _ => True

namespace Markup

open Node

theorem shape_unbound : Shape fun _ n => n.Every Unbound where
  ofVariable _ _ := rfl
  formula _ := trivial
  conditional _ _ _ _ _ ht hf := ⟨trivial, everyAll_iff.mpr ht, everyAll_iff.mpr hf⟩
  optional _ _ _ hs hn := ⟨rfl, everyAll_iff.mpr hs, everyAll_iff.mpr hn⟩
  within _ _ hc := ⟨rfl, everyAll_iff.mpr hc⟩
  join _ _ _ hc := ⟨rfl, everyAll_iff.mpr hc⟩
  list _ _ _ hc := ⟨rfl, everyAll_iff.mpr hc⟩
  clause _ _ _ _ _ hc := ⟨rfl, everyAll_iff.mpr hc⟩
  leaf _ _ _ := trivial
  markup _ _ _ _ _ hc := ⟨trivial, everyAll_iff.mpr hc⟩
  inside _ _ _ _ _ h := everyAll_iff.mp h.2

mutual

theorem unbound_named : ∀ (n : Node) (counts : Counts), n.Every Unbound →
    (named counts n).1.Every Unbound
  | .variable _, _, h => by rwa [named]
  | .enumVariable _, _, h => by rwa [named]
  | .formula _, _, _ => by
    rw [named]
    exact trivial
  | .conditional _ _ whenTrue whenFalse, _, ⟨_, ht, hf⟩ => by
    rw [named]
    exact ⟨trivial, unbound_namedAll whenTrue _ ht, unbound_namedAll whenFalse _ hf⟩
  | .optional _ _ whenSome whenNone, _, ⟨htype, hs, hn⟩ => by
    rw [named]
    exact ⟨htype, unbound_namedAll whenSome _ hs, unbound_namedAll whenNone _ hn⟩
  | .within _ _ children, _, ⟨htype, hc⟩ => by
    rw [named]
    exact ⟨htype, unbound_namedAll children _ hc⟩
  | .list _ _ _ children, _, ⟨htype, hc⟩ => by
    rw [named]
    exact ⟨htype, unbound_namedAll children _ hc⟩
  | .join _ _ _ children, _, ⟨htype, hc⟩ => by
    rw [named]
    exact ⟨htype, unbound_namedAll children _ hc⟩
  | .clause _ _ _ _ children, _, ⟨htype, hc⟩ => by
    rw [named]
    exact ⟨htype, unbound_namedAll children _ hc⟩
  | .contract _ _, _, h => h.1.elim
  | .leaf _, _, h => by rwa [named]
  | .markup _ children, _, ⟨_, hc⟩ => by
    rw [named]
    exact ⟨trivial, unbound_namedAll children _ hc⟩

theorem unbound_namedAll : ∀ (ns : List Node) (counts : Counts), EveryAll Unbound ns →
    EveryAll Unbound (namedAll counts ns).1
  | [], _, _ => by
    rw [namedAll]
    exact trivial
  | n :: rest, counts, ⟨hn, hrest⟩ => by
    rw [namedAll]
    exact ⟨unbound_named n counts hn, unbound_namedAll rest _ hrest⟩

end

theorem read_unbound {markup : String} {ns : List Node} (h : read markup = .ok ns) :
    EveryAll Unbound ns := by
  obtain ⟨nodes, hn, h⟩ := bind_eq_ok.mp h
  cases h
  exact unbound_namedAll nodes _ (everyAll_iff.mpr (shape_readBlocks shape_unbound _ _ nodes hn))

end Markup

end ClauseTemplates
